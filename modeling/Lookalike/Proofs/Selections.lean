import Lookalike.Combination
import Mathlib.Data.List.Sort
import Mathlib.Data.Nat.Choose.Basic

/-! # Selections by their places

A selection of members of a list is told by the places it takes: `pick xs is` lists the members of
`xs` at the places `is`.  `combinations` over increasing places lists the increasing sequences of
places among them (`mem_combinations_of_increasing`), each once and in lexicographic order
(`pairwise_combinations`), and selecting members is the same as selecting their places
(`combinations_pick`). -/

namespace Lookalike

section pick

variable {α β : Type}

theorem mem_pick {xs : List α} {is : List ℕ} {x : α} :
    x ∈ pick xs is ↔ ∃ i ∈ is, xs[i]? = some x := by
  simp [pick]

theorem pick_eq_nil_iff {xs : List α} {is : List ℕ} (h : ∀ i ∈ is, i < xs.length) :
    pick xs is = [] ↔ is = [] := by
  cases is with
  | nil => simp
  | cons i is =>
      obtain ⟨x, hx⟩ := exists_getElem?_of_lt (h i List.mem_cons_self)
      rw [pick, List.filterMap_cons, hx]
      simp

theorem filterMap_eq_range (f : α → Option β) (xs : List α) :
    xs.filterMap f = (List.range xs.length).filterMap fun i => xs[i]?.bind f := by
  conv_lhs => rw [← pick_range xs, pick, List.filterMap_filterMap]

theorem map_filter_eq_filterMap (p : α → Bool) (f : α → β) (xs : List α) :
    (xs.filter p).map f = xs.filterMap fun x => if p x then some (f x) else none := by
  rw [← List.filterMap_eq_map, List.filterMap_filter]
  rfl

theorem filter_eq_pick (p : α → Bool) (xs : List α) :
    xs.filter p = pick xs ((List.range xs.length).filter fun i => xs[i]?.any p) := by
  conv_lhs => rw [← pick_range xs, pick]
  rw [pick, List.filter_filterMap, List.filterMap_filter]
  refine List.filterMap_congr fun i _ => ?_
  cases xs[i]? <;> simp [Option.filter]

end pick

/-! ### Selecting places -/

section combinations

variable {α β : Type}

theorem combinations_map (f : α → β) (xs : List α) (k : ℕ) :
    combinations (xs.map f) k = (combinations xs k).map (List.map f) := by
  induction xs generalizing k with
  | nil => cases k <;> rfl
  | cons x xs ih =>
      cases k with
      | zero => simp [combinations_zero]
      | succ k =>
          rw [List.map_cons, combinations_cons_succ, combinations_cons_succ, ih, ih, List.map_append,
            List.map_map, List.map_map]
          rfl

theorem mem_combinations_iff {xs ys : List α} {k : ℕ} :
    ys ∈ combinations xs k ↔ ys.Sublist xs ∧ ys.length = k := by
  induction xs generalizing ys k with
  | nil =>
      cases k with
      | zero => simp [combinations]
      | succ k =>
          simp only [combinations, List.not_mem_nil, List.sublist_nil, false_iff]
          rintro ⟨rfl, h⟩
          exact absurd h (Nat.zero_ne_add_one k)
  | cons x xs ih =>
      cases k with
      | zero =>
          rw [combinations_zero, List.mem_singleton, List.length_eq_zero_iff]
          exact ⟨fun h => ⟨h ▸ List.nil_sublist _, h⟩, And.right⟩
      | succ k =>
          rw [combinations_cons_succ, List.mem_append, List.mem_map, List.sublist_cons_iff, ih]
          constructor
          · rintro (⟨zs, hzs, rfl⟩ | ⟨hys, hlen⟩)
            · obtain ⟨hzs, hlen⟩ := ih.mp hzs
              exact ⟨Or.inr ⟨zs, rfl, hzs⟩, by rw [List.length_cons, hlen]⟩
            · exact ⟨Or.inl hys, hlen⟩
          · rintro ⟨hys | ⟨zs, rfl, hzs⟩, hlen⟩
            · exact Or.inr ⟨hys, hlen⟩
            · exact Or.inl ⟨zs, ih.mpr ⟨hzs, Nat.succ.inj hlen⟩, rfl⟩

theorem length_combinations (xs : List α) (k : ℕ) :
    (combinations xs k).length = xs.length.choose k := by
  induction xs generalizing k with
  | nil => cases k <;> simp [combinations]
  | cons x xs ih =>
      cases k with
      | zero => simp [combinations_zero]
      | succ k =>
          rw [combinations_cons_succ, List.length_append, List.length_map, ih, ih, List.length_cons,
            Nat.choose_succ_succ]

/-- The selections all of whose members have a property are those of the members with it. -/
theorem filter_all_combinations (p : α → Bool) (xs : List α) (k : ℕ) :
    (combinations xs k).filter (fun ys => ys.all p) = combinations (xs.filter p) k := by
  induction xs generalizing k with
  | nil => cases k <;> rfl
  | cons x xs ih =>
      cases k with
      | zero => simp [combinations_zero]
      | succ k =>
          have hcons : (fun ys : List α => ys.all p) ∘ (x :: ·) = fun ys => p x && ys.all p := by
            funext ys
            exact List.all_cons
          rw [combinations_cons_succ, List.filter_append, List.filter_map, hcons, ih]
          cases hx : p x with
          | true => simp [hx, combinations_cons_succ, ih]
          | false => simp [hx]

/-- Selections are listed in lexicographic order, each once. -/
theorem pairwise_combinations {is : List ℕ} (h : is.Pairwise (· < ·)) (k : ℕ) :
    (combinations is k).Pairwise (· < ·) := by
  induction is generalizing k with
  | nil => cases k <;> simp [combinations]
  | cons i is ih =>
      obtain ⟨hi, his⟩ := List.pairwise_cons.mp h
      cases k with
      | zero => simp [combinations_zero]
      | succ k =>
          rw [combinations_cons_succ, List.pairwise_append, List.pairwise_map]
          refine ⟨?_, ih his (k + 1), ?_⟩
          · exact (ih his k).imp fun hlt => List.cons_lt_cons_iff.mpr (Or.inr ⟨rfl, hlt⟩)
          · intro js hjs ls hls
            obtain ⟨js, -, rfl⟩ := List.mem_map.mp hjs
            obtain ⟨hsub, hlen⟩ := mem_combinations_iff.mp hls
            cases ls with
            | nil => exact absurd hlen (Nat.zero_ne_add_one k)
            | cons l ls =>
                exact List.cons_lt_cons_iff.mpr (Or.inl (hi l (hsub.subset List.mem_cons_self)))

theorem sublist_iff_of_increasing {is js : List ℕ} (h : is.Pairwise (· < ·)) :
    js.Sublist is ↔ js.Pairwise (· < ·) ∧ ∀ j ∈ js, j ∈ is := by
  constructor
  · intro hsub
    exact ⟨h.sublist hsub, fun j hj => hsub.subset hj⟩
  · rintro ⟨hjs, hmem⟩
    have hnodup : js.Nodup := hjs.imp fun hlt => hlt.ne
    exact List.sublist_of_subperm_of_pairwise (List.subperm_of_subset hnodup hmem) hjs h

theorem mem_combinations_of_increasing {is js : List ℕ} (h : is.Pairwise (· < ·)) {k : ℕ} :
    js ∈ combinations is k ↔ js.length = k ∧ js.Pairwise (· < ·) ∧ ∀ j ∈ js, j ∈ is := by
  rw [mem_combinations_iff, sublist_iff_of_increasing h, and_comm]

theorem mem_combinations_range {n k : ℕ} {is : List ℕ} :
    is ∈ combinations (List.range n) k ↔ IsSelection n k is := by
  rw [mem_combinations_of_increasing List.pairwise_lt_range]
  constructor
  · rintro ⟨hlen, hinc, hmem⟩
    exact ⟨hlen, hinc, fun i hi => List.mem_range.mp (hmem i hi)⟩
  · rintro ⟨hlen, hinc, hmem⟩
    exact ⟨hlen, hinc, fun i hi => List.mem_range.mpr (hmem i hi)⟩

theorem IsSelection.sublist {xs : List α} {k : ℕ} {is : List ℕ} (h : IsSelection xs.length k is) :
    (pick xs is).Sublist xs := by
  have hmem : pick xs is ∈ (combinations (List.range xs.length) k).map (pick xs) :=
    List.mem_map_of_mem (mem_combinations_range.mpr h)
  rw [← combinations_pick xs fun i hi => List.mem_range.mp hi, pick_range] at hmem
  exact (mem_combinations_iff.mp hmem).1

end combinations

end Lookalike
