import Lookalike.Merge
import Mathlib.Data.List.Basic

/-! # The greatest of some numbers

`Binary64.max` passes over words that are no numbers and keeps the first of two equal ones, so the
maximum of a list does not depend on how its members are grouped (`max_assoc`, `max_foldl`).
`IsMaximum` says what the maximum is, without reference to how it is found; it is determined as a
number by the words in the list (`IsMaximum.same`). -/

namespace Lookalike
namespace Binary64

variable {x y z : Binary64}

theorem lt_iff : x.lt y = true ↔ x.isNaN = false ∧ y.isNaN = false ∧ x.place < y.place := by
  simp [lt, and_assoc]

theorem lt_eq_false_iff :
    x.lt y = false ↔ x.isNaN = true ∨ y.isNaN = true ∨ y.place ≤ x.place := by
  rw [← Bool.not_eq_true, lt_iff]
  cases x.isNaN <;> cases y.isNaN <;> simp

theorem lt_self (x : Binary64) : x.lt x = false := by
  rw [lt_eq_false_iff]
  exact Or.inr (Or.inr (Int.le_refl _))

theorem lt_trans (h : x.lt y = true) (h' : y.lt z = true) : x.lt z = true := by
  rw [lt_iff] at h h' ⊢
  exact ⟨h.1, h'.2.1, Int.lt_trans h.2.2 h'.2.2⟩

/-- What is not exceeded by a number is below whatever exceeds that number. -/
theorem lt_of_le_of_lt (hx : x.isNaN = false) (h : y.lt x = false) (hlt : y.lt z = true) :
    x.lt z = true := by
  rw [lt_iff] at hlt ⊢
  rw [lt_eq_false_iff] at h
  obtain ⟨hy, hz, hlt⟩ := hlt
  refine ⟨hx, hz, ?_⟩
  simp only [hx, hy, Bool.false_eq_true, false_or] at h
  omega

theorem lt_of_lt_of_le (hlt : x.lt y = true) (hz : z.isNaN = false) (h : z.lt y = false) :
    x.lt z = true := by
  rw [lt_iff] at hlt ⊢
  rw [lt_eq_false_iff] at h
  obtain ⟨hx, hy, hlt⟩ := hlt
  refine ⟨hx, hz, ?_⟩
  simp only [hy, hz, Bool.false_eq_true, false_or] at h
  omega

/-! ### Maxima of two -/

theorem max_eq (x y : Binary64) : x.max y = if x.isNaN = true ∨ x.lt y = true then y else x := by
  simp [max]

theorem max_choice (x y : Binary64) : x.max y = x ∨ x.max y = y := by
  rw [max_eq]
  split_ifs
  · exact Or.inr rfl
  · exact Or.inl rfl

theorem isNaN_max (hx : x.isNaN = false) : (x.max y).isNaN = false := by
  rw [max_eq]
  split_ifs with h
  · rcases h with h | h
    · rw [hx] at h
      cases h
    · exact (lt_iff.mp h).2.1
  · exact hx

theorem max_lt_left (hx : x.isNaN = false) : (x.max y).lt x = false := by
  rw [max_eq]
  split_ifs with h
  · rcases h with h | h
    · rw [hx] at h
      cases h
    · rw [lt_iff] at h
      rw [lt_eq_false_iff]
      omega
  · exact lt_self x

theorem max_lt_right (x y : Binary64) : (x.max y).lt y = false := by
  rw [max_eq]
  split_ifs with h
  · exact lt_self y
  · exact eq_false_of_ne_true fun hlt => h (Or.inr hlt)

theorem max_assoc (x y z : Binary64) : (x.max y).max z = x.max (y.max z) := by
  simp only [max_eq, lt_iff]
  cases hx : x.isNaN <;> cases hy : y.isNaN <;> cases hz : z.isNaN <;> simp [hx, hy, hz] <;>
    split_ifs <;> simp_all <;> omega

theorem max_foldl (m x : Binary64) (xs : List Binary64) :
    m.max (xs.foldl max x) = xs.foldl max (m.max x) := by
  induction xs generalizing x with
  | nil => rfl
  | cons y ys ih => rw [List.foldl_cons, List.foldl_cons, ih, max_assoc]

/-! ### Maxima of lists -/

/-- The greatest of the numbers among some words: one of them, and below none of them. -/
structure IsMaximum (m : Binary64) (xs : List Binary64) : Prop where
  mem : m ∈ xs
  number : m.isNaN = false
  bound : ∀ x ∈ xs, m.lt x = false

/-- Two words are the same number: neither is below the other. -/
def Same (x y : Binary64) : Prop := x.lt y = false ∧ y.lt x = false

theorem same_iff_place_eq (hx : x.isNaN = false) (hy : y.isNaN = false) :
    Same x y ↔ x.place = y.place := by
  unfold Same
  rw [lt_eq_false_iff, lt_eq_false_iff, hx, hy]
  simp only [Bool.false_eq_true, false_or]
  omega

theorem IsMaximum.same {m m' : Binary64} {xs ys : List Binary64} (h : IsMaximum m xs)
    (h' : IsMaximum m' ys) (hmem : ∀ x, x ∈ xs ↔ x ∈ ys) : Same m m' :=
  ⟨h.bound m' ((hmem m').mpr h'.mem), h'.bound m ((hmem m).mp h.mem)⟩

theorem IsMaximum.of_mem_iff {m : Binary64} {xs ys : List Binary64} (h : IsMaximum m xs)
    (hmem : ∀ x, x ∈ ys ↔ x ∈ xs) : IsMaximum m ys :=
  ⟨(hmem m).mpr h.mem, h.number, fun x hx => h.bound x ((hmem x).mp hx)⟩

theorem IsMaximum.max {m : Binary64} {xs : List Binary64} (h : IsMaximum m xs) (y : Binary64) :
    IsMaximum (m.max y) (xs ++ [y]) := by
  refine ⟨?_, isNaN_max h.number, ?_⟩
  · rcases max_choice m y with he | he <;> rw [he]
    · exact List.mem_append_left _ h.mem
    · exact List.mem_append_right _ List.mem_cons_self
  · intro x hx
    rcases List.mem_append.mp hx with hx | hx
    · by_contra hcontra
      have hexceeds := lt_of_lt_of_le (eq_true_of_ne_false hcontra) h.number (h.bound x hx)
      rw [max_lt_left h.number] at hexceeds
      cases hexceeds
    · rw [List.mem_singleton.mp hx]
      exact max_lt_right m y

theorem IsMaximum.foldl {m : Binary64} {xs : List Binary64} (h : IsMaximum m xs)
    (ys : List Binary64) : IsMaximum (ys.foldl Binary64.max m) (xs ++ ys) := by
  induction ys generalizing m xs with
  | nil => simpa using h
  | cons y ys ih =>
      have := ih (h.max y)
      rwa [List.append_assoc, List.singleton_append] at this

theorem foldl_max_mem (m : Binary64) (xs : List Binary64) : xs.foldl max m ∈ m :: xs := by
  induction xs generalizing m with
  | nil => exact List.mem_singleton.mpr rfl
  | cons x xs ih =>
      rw [List.foldl_cons]
      rcases List.mem_cons.mp (ih (m.max x)) with h | h
      · rw [h]
        rcases max_choice m x with h | h <;> rw [h] <;> simp
      · exact List.mem_cons_of_mem _ (List.mem_cons_of_mem _ h)

end Binary64
end Lookalike
