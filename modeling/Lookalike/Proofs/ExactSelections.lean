import Lookalike.Proofs.Selections
import Lookalike.Proofs.WordBinomials

/-! # Exact selections

`chooseAll` goes from one selection of places to the next and lists the members there.  `Enumerates` says
what is to be shown of that: the places are all selections of the asked size, each once and in
lexicographic order, and every place is one of the list.  Where `binomial` gives a number, it is the number of
the selections (`binomial_eq_some`).

Main statement: `chooseAll_exact`. -/

namespace Lookalike

/-! ### What is listed -/

/-- Selections of places are gone through one after the other, from the first places to the end; they are
all there are, in lexicographic order, and each lists the members of the items at its places, all of which
have one. -/
structure Enumerates {α : Type} (items : List α) (k : ℕ) (places : List (List ℕ))
    (lists : List (List α)) : Prop where
  visits : Visits items.length (List.range k) places
  selections : ∀ is, is ∈ places ↔ IsSelection items.length k is
  lexicographic : places.Pairwise (· < ·)
  members : List.Forall₂ (fun is ys => is.map (items[·]?) = ys.map some) places lists

/-- The sublists of a size are listed by recursion on the list: of none there is one, and those with the
first member come before those without. -/
structure ListsByRecursion {α : Type} (sublists : List α → ℕ → List (List α)) : Prop where
  zero : ∀ xs, sublists xs 0 = [[]]
  nil : ∀ k, sublists [] (k + 1) = []
  cons : ∀ x xs k,
    sublists (x :: xs) (k + 1) = (sublists xs k).map (x :: ·) ++ sublists xs (k + 1)

section Enumerates

variable {α : Type}

theorem listsByRecursion_combinations : ListsByRecursion (combinations (α := α)) :=
  ⟨combinations_zero, fun _ => rfl, combinations_cons_succ⟩

theorem map_getElem?_eq_pick {items : List α} {is : List ℕ} (h : ∀ i ∈ is, i < items.length) :
    is.map (items[·]?) = (pick items is).map some := by
  induction is with
  | nil => rfl
  | cons i is ih =>
      obtain ⟨hi, his⟩ := List.forall_mem_cons.mp h
      obtain ⟨x, hx⟩ := exists_getElem?_of_lt hi
      have hpick : pick items (i :: is) = x :: pick items is := by
        rw [pick, List.filterMap_cons, hx, pick]
      rw [hpick, List.map_cons, List.map_cons, hx, ih his]

theorem enumerates_combinations {items : List α} {k : ℕ} (h : k ≤ items.length) :
    Enumerates items k (combinations (List.range items.length) k) (combinations items k) := by
  have hlists : combinations items k =
      (combinations (List.range items.length) k).map (pick items) := by
    rw [← combinations_pick items fun i hi => List.mem_range.mp hi, pick_range]
  constructor
  case visits => exact visits_range h
  case selections => exact fun is => mem_combinations_range
  case lexicographic => exact pairwise_combinations List.pairwise_lt_range k
  case members =>
    rw [hlists, List.forall₂_map_right_iff, List.forall₂_same]
    intro is his
    exact map_getElem?_eq_pick (mem_combinations_range.mp his).bounded

end Enumerates

/-! ### Selections of a list -/

/-- More members than there are cannot be selected.  Otherwise the selections are enumerated; they are
those of the recursion on the list, and their number is the binomial coefficient, which `binomial` gives
if it gives one. -/
theorem chooseAll_exact {α : Type} (items : List α) (k : ℕ) :
    if items.length < k then chooseAll items k = .error (.subsetSize k items.length)
    else ∃ places lists, chooseAll items k = .ok lists ∧ Enumerates items k places lists ∧
      (∃ sublists, ListsByRecursion sublists ∧ lists = sublists items k) ∧
      lists.length = items.length.choose k ∧
      ∀ c, binomial items.length k = some c → lists.length = c := by
  rw [chooseAll_eq]
  split_ifs with hlt
  · rfl
  · have hle := Nat.not_lt.mp hlt
    refine ⟨_, _, rfl, enumerates_combinations hle, ⟨_, listsByRecursion_combinations, rfl⟩,
      length_combinations items k, fun c hc => ?_⟩
    rw [length_combinations, binomial_eq_some hc]

end Lookalike
