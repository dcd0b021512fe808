import Lookalike.Attribute

/-! # Selections of a given size

A selection of `k` members of a list is told by the places it takes.  `chooseAll` starts with the first
`k` places and goes from one selection to the next (`nextPlaces?`) until no place can move on; it refuses
a `k` past the length.  `wordBinomial` counts the selections with words of 64 bits, or says nothing when a
product on the way does not fit one.

Main statement: `chooseAll_eq`.  The selections are those of the recursion on the list, `combinations`,
in the same order. -/

namespace Lookalike

/-! ### From one selection to the next -/

/-- The members of a list at some places, in the order of the places. -/
def pick {α : Type} (xs : List α) (is : List Nat) : List α := is.filterMap (xs[·]?)

@[simp] theorem pick_nil {α : Type} (xs : List α) : pick xs [] = [] := rfl

/-- A choice of `k` of the first `n` places: increasing, so each is taken once. -/
structure IsSelection (n k : Nat) (is : List Nat) : Prop where
  length : is.length = k
  increasing : is.Pairwise (· < ·)
  bounded : ∀ i ∈ is, i < n

/-- The selection of places after a given one: the last place that can move on does so, and those
behind it follow it closely. -/
def nextPlaces? (n : Nat) : List Nat → Option (List Nat)
  | [] => none
  | i :: is =>
      match nextPlaces? n is with
      | some js => some (i :: js)
      | none =>
          if i + is.length + 1 = n then none else some (List.range' (i + 1) (is.length + 1))

/-- Places as the digits of a number, each counted from the far end; the number falls from one
selection to the next. -/
def placesWeight (n acc : Nat) : List Nat → Nat
  | [] => acc
  | i :: is => placesWeight n (acc * (n + 1) + (n - i)) is

section nextPlaces?

variable {n k : Nat} {is js : List Nat}

theorem length_nextPlaces? (h : nextPlaces? n is = some js) : js.length = is.length := by
  induction is generalizing js with
  | nil => cases h
  | cons i is ih =>
      rw [nextPlaces?] at h
      split at h
      · rename_i ls hls
        rw [← Option.some.inj h, List.length_cons, List.length_cons, ih hls]
      · split at h
        · cases h
        · rw [← Option.some.inj h, List.length_range', List.length_cons]

/-- No place is below all those before the step. -/
theorem exists_le_of_mem_nextPlaces? (h : nextPlaces? n is = some js) {j : Nat} (hj : j ∈ js) :
    ∃ i ∈ is, i ≤ j := by
  induction is generalizing js with
  | nil => cases h
  | cons i is ih =>
      rw [nextPlaces?] at h
      split at h
      · rename_i ls hls
        rw [← Option.some.inj h, List.mem_cons] at hj
        rcases hj with rfl | hj
        · exact ⟨j, List.mem_cons_self, Nat.le_refl j⟩
        · obtain ⟨l, hl, hle⟩ := ih hls hj
          exact ⟨l, List.mem_cons_of_mem i hl, hle⟩
      · split at h
        · cases h
        · rw [← Option.some.inj h, List.mem_range'_1] at hj
          exact ⟨i, List.mem_cons_self, by omega⟩

namespace IsSelection

/-- Increasing places leave room for all that follow the first. -/
theorem add_length_lt {i : Nat} (h : IsSelection n k (i :: is)) : i + is.length < n := by
  obtain ⟨-, hincreasing, hbounded⟩ := h
  induction is generalizing i with
  | nil => exact hbounded i List.mem_cons_self
  | cons j is ih =>
      obtain ⟨hi, hrest⟩ := List.pairwise_cons.1 hincreasing
      have hij : i < j := hi j List.mem_cons_self
      have hj : j + is.length < n := ih hrest fun l hl => hbounded l (List.mem_cons_of_mem i hl)
      rw [List.length_cons]
      omega

theorem tail {i : Nat} (h : IsSelection n k (i :: is)) : IsSelection n is.length is :=
  ⟨rfl, (List.pairwise_cons.1 h.increasing).2, fun j hj => h.bounded j (List.mem_cons_of_mem i hj)⟩

theorem range (h : k ≤ n) : IsSelection n k (List.range k) :=
  ⟨List.length_range, List.pairwise_lt_range, fun _ hi =>
    Nat.lt_of_lt_of_le (List.mem_range.1 hi) h⟩

/-- A step leads from a selection to one of as many places, none past the end. -/
theorem next (h : IsSelection n k is) (hnext : nextPlaces? n is = some js) : IsSelection n k js := by
  have hlength : js.length = k := (length_nextPlaces? hnext).trans h.length
  suffices hplaces : js.Pairwise (· < ·) ∧ ∀ j ∈ js, j < n from ⟨hlength, hplaces.1, hplaces.2⟩
  clear hlength
  induction is generalizing k js with
  | nil => cases hnext
  | cons i is ih =>
      rw [nextPlaces?] at hnext
      split at hnext
      · rename_i ls hls
        obtain ⟨hincreasing, hbounded⟩ := ih h.tail hls
        rw [← Option.some.inj hnext, List.pairwise_cons, List.forall_mem_cons]
        refine ⟨⟨fun l hl => ?_, hincreasing⟩, h.bounded i List.mem_cons_self, hbounded⟩
        obtain ⟨j, hj, hle⟩ := exists_le_of_mem_nextPlaces? hls hl
        exact Nat.lt_of_lt_of_le ((List.pairwise_cons.1 h.increasing).1 j hj) hle
      · split at hnext
        · cases hnext
        · have hroom := h.add_length_lt
          rw [← Option.some.inj hnext]
          refine ⟨List.pairwise_lt_range', fun j hj => ?_⟩
          rw [List.mem_range'_1] at hj
          omega

end IsSelection

/-- The first digit that differs decides. -/
theorem placesWeight_lt {acc acc' : Nat} (h : acc < acc') (hlength : is.length = js.length) :
    placesWeight n acc is < placesWeight n acc' js := by
  induction is generalizing acc acc' js with
  | nil =>
      obtain rfl := List.length_eq_zero_iff.1 hlength.symm
      exact h
  | cons i is ih =>
      cases js with
      | nil => cases hlength
      | cons j js =>
          have hmul : acc * (n + 1) + (n + 1) ≤ acc' * (n + 1) := by
            rw [← Nat.succ_mul]
            exact Nat.mul_le_mul_right (n + 1) h
          show placesWeight n (acc * (n + 1) + (n - i)) is <
            placesWeight n (acc' * (n + 1) + (n - j)) js
          exact ih (by omega) (Nat.succ.inj hlength)

theorem placesWeight_nextPlaces? (acc : Nat) (h : IsSelection n k is)
    (hnext : nextPlaces? n is = some js) : placesWeight n acc js < placesWeight n acc is := by
  induction is generalizing k js acc with
  | nil => cases hnext
  | cons i is ih =>
      rw [nextPlaces?] at hnext
      split at hnext
      · rename_i ls hls
        rw [← Option.some.inj hnext]
        exact ih _ h.tail hls
      · split at hnext
        · cases hnext
        · have hi := h.bounded i List.mem_cons_self
          have hdigit : acc * (n + 1) + (n - (i + 1)) < acc * (n + 1) + (n - i) := by omega
          rw [← Option.some.inj hnext, List.range'_succ, placesWeight, placesWeight]
          exact placesWeight_lt hdigit List.length_range'

end nextPlaces?

/-! ### All selections -/

/-- The members at a selection of places, and at each one after it.  It is semireducible so that searches
for given values still evaluate. -/
@[semireducible] def selectFrom {α : Type} {k : Nat} (xs : List α) (is : List Nat)
    (h : IsSelection xs.length k is) : List (List α) :=
  pick xs is ::
    match hnext : nextPlaces? xs.length is with
    | none => []
    | some js => selectFrom xs js (h.next hnext)
termination_by placesWeight xs.length 0 is
decreasing_by exact placesWeight_nextPlaces? 0 h hnext

/-- The sublists of `k` members, of which there must be as many. -/
def chooseAll {α : Type} (items : List α) (k : Nat) : Except RuleError (List (List α)) :=
  if h : items.length < k then .error (.subsetSize k items.length)
  else .ok (selectFrom items (List.range k) (.range (Nat.le_of_not_lt h)))

/-- The sublists of `k` members, those with the first member before those without; the latter are
looked for only where enough members remain. -/
def combinations {α : Type} : List α → Nat → List (List α)
  | _, 0 => [[]]
  | [], _ + 1 => []
  | x :: xs, k + 1 =>
      (combinations xs k).map (x :: ·) ++ if k < xs.length then combinations xs (k + 1) else []

/-- The product of two words, if it fits a word. -/
def wordProduct? (a b : UInt64) : Option UInt64 :=
  if a.toNat * b.toNat < UInt64.size then some (a * b) else none

/-- Goes on from `C(n, i)` by the given number of factors. -/
def binomialFrom (n acc i : UInt64) : Nat → Option UInt64
  | 0 => some acc
  | more + 1 =>
      match wordProduct? acc (n - i) with
      | some product => binomialFrom n (product / (i + 1)) (i + 1) more
      | none => none

/-- The number of selections of `k` out of `n`, if the products that give it fit a word. -/
def wordBinomial (n k : UInt64) : Option UInt64 :=
  if n < k then some 0 else binomialFrom n 1 0 (min k (n - k)).toNat

/-- The number of selections for numbers that fit a word. -/
def binomial (n k : Nat) : Option Nat :=
  if n < UInt64.size ∧ k < UInt64.size then
    (wordBinomial (.ofNat n) (.ofNat k)).map UInt64.toNat
  else none

/-! ### Facts -/

section combinations

variable {α : Type}

theorem combinations_eq_nil_of_length_lt {xs : List α} {k : Nat}
    (h : xs.length < k) : combinations xs k = [] := by
  induction xs generalizing k with
  | nil =>
      cases k with
      | zero => exact absurd h (Nat.not_lt_zero _)
      | succ k => rfl
  | cons x xs ih =>
      cases k with
      | zero => exact absurd h (Nat.not_lt_zero _)
      | succ k =>
          have h : xs.length < k := Nat.lt_of_succ_lt_succ h
          simp [combinations, ih h, Nat.not_lt.2 (Nat.le_of_lt h)]

theorem combinations_zero (xs : List α) : combinations xs 0 = [[]] := by
  cases xs <;> rfl

theorem combinations_cons_succ (x : α) (xs : List α) (k : Nat) :
    combinations (x :: xs) (k + 1) =
      (combinations xs k).map (x :: ·) ++ combinations xs (k + 1) := by
  rw [combinations]
  split
  · rfl
  · rename_i h
    rw [combinations_eq_nil_of_length_lt (k := k + 1) (by omega)]

theorem exists_getElem?_of_lt {xs : List α} {i : Nat} (h : i < xs.length) :
    ∃ x, xs[i]? = some x := ⟨xs[i], List.getElem?_eq_getElem h⟩

theorem pick_range (xs : List α) : pick xs (List.range xs.length) = xs := by
  induction xs with
  | nil => rfl
  | cons x xs ih =>
      rw [List.length_cons, List.range_succ_eq_map, pick, List.filterMap_cons, List.filterMap_map]
      exact congrArg (x :: ·) ih

theorem combinations_pick (xs : List α) {is : List Nat} (h : ∀ i ∈ is, i < xs.length) (k : Nat) :
    combinations (pick xs is) k = (combinations is k).map (pick xs) := by
  induction is generalizing k with
  | nil => cases k <;> rfl
  | cons i is ih =>
      have ih := ih fun j hj => h j (List.mem_cons_of_mem _ hj)
      obtain ⟨x, hx⟩ := exists_getElem?_of_lt (h i List.mem_cons_self)
      have hcons (js : List Nat) : pick xs (i :: js) = x :: pick xs js := by
        rw [pick, List.filterMap_cons, hx, pick]
      cases k with
      | zero => simp [combinations_zero]
      | succ k =>
          rw [hcons, combinations_cons_succ, combinations_cons_succ, ih, ih, List.map_append,
            List.map_map, List.map_map]
          simp only [Function.comp_def, hcons]

end combinations

/-! ### The selections in their order -/

/-- From a selection on these are gone through, and after the last there is no other. -/
inductive Visits (n : Nat) : List Nat → List (List Nat) → Prop
  | last {is : List Nat} (h : nextPlaces? n is = none) : Visits n is [is]
  | more {is js : List Nat} {later : List (List Nat)} (h : nextPlaces? n is = some js)
      (hlater : Visits n js later) : Visits n is (is :: later)

/-- A place in front stays while those behind it are gone through, and then moves on if it can. -/
theorem Visits.cons {n i : Nat} {is : List Nat} {visited later : List (List Nat)}
    (h : Visits n is visited)
    (hlater : if i + is.length + 1 = n then later = []
      else Visits n (List.range' (i + 1) (is.length + 1)) later) :
    Visits n (i :: is) (visited.map (i :: ·) ++ later) := by
  induction h with
  | last hlast =>
      split at hlater
      · rename_i hend
        subst hlater
        refine .last ?_
        rw [nextPlaces?, hlast]
        exact if_pos hend
      · rename_i hroom
        refine .more ?_ hlater
        rw [nextPlaces?, hlast]
        exact if_neg hroom
  | more hnext _ ih =>
      refine .more ?_ (ih ?_)
      · rw [nextPlaces?, hnext]
      · rwa [length_nextPlaces? hnext]

/-- From the first `k` of some places on, all selections of `k` of them are gone through. -/
theorem visits_combinations {a m k : Nat} (h : k ≤ m) :
    Visits (a + m) (List.range' a k) (combinations (List.range' a m) k) := by
  induction m generalizing a k with
  | zero =>
      obtain rfl := Nat.le_zero.1 h
      exact .last rfl
  | succ m ih =>
      cases k with
      | zero =>
          rw [combinations_zero]
          exact .last rfl
      | succ k =>
          have hbound : a + (m + 1) = a + 1 + m := by omega
          rw [List.range'_succ, List.range'_succ, combinations_cons_succ, hbound]
          refine (ih (Nat.le_of_succ_le_succ h)).cons ?_
          rw [List.length_range']
          split
          · exact combinations_eq_nil_of_length_lt (by rw [List.length_range']; omega)
          · exact ih (by omega)

theorem visits_range {n k : Nat} (h : k ≤ n) :
    Visits n (List.range k) (combinations (List.range n) k) := by
  have hvisits := visits_combinations (a := 0) h
  rwa [Nat.zero_add, ← List.range_eq_range', ← List.range_eq_range'] at hvisits

theorem selectFrom_eq {α : Type} {k : Nat} {xs : List α} {is : List Nat} {visited : List (List Nat)}
    (hvisits : Visits xs.length is visited) (h : IsSelection xs.length k is) :
    selectFrom xs is h = visited.map (pick xs) := by
  induction hvisits with
  | last hlast =>
      rw [selectFrom]
      split
      · rfl
      · rename_i hnext
        rw [hlast] at hnext
        cases hnext
  | more hnext _ ih =>
      rw [selectFrom]
      split
      · rename_i hlast
        rw [hnext] at hlast
        cases hlast
      · rename_i js hjs
        rw [hnext] at hjs
        obtain rfl := Option.some.inj hjs
        rw [ih, List.map_cons]

/-- Going from each selection to the next lists the selections of the recursion. -/
theorem chooseAll_eq {α : Type} (items : List α) (k : Nat) :
    chooseAll items k =
      if items.length < k then .error (.subsetSize k items.length)
      else .ok (combinations items k) := by
  unfold chooseAll
  split
  · rfl
  · rename_i h
    have hvisits := visits_range (Nat.le_of_not_lt h)
    rw [selectFrom_eq hvisits, ← combinations_pick items (fun i hi => List.mem_range.1 hi),
      pick_range]

end Lookalike
