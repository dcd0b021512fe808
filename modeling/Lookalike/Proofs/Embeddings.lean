import Lookalike.Combination
import Mathlib.Data.List.Forall2

/-! # Lists that embed into others

A list embeds into another by a relation when its members are related, one by one and in order, to
some members of the other.  What is listed of the members of one list then embeds into what is listed
of those of the other, if it does so for related members (`sublistForall₂_flatMap`), and the selections
of one list into those of the other (`sublistForall₂_combinations`). -/

namespace Lookalike

open List (SublistForall₂ Forall₂)

variable {α β γ δ : Type} {R : α → β → Prop} {S : γ → δ → Prop}

theorem sublistForall₂_append {xs xs' : List α} {ys ys' : List β} (h : SublistForall₂ R xs ys)
    (h' : SublistForall₂ R xs' ys') : SublistForall₂ R (xs ++ xs') (ys ++ ys') := by
  obtain ⟨zs, hzs, hsub⟩ := List.sublistForall₂_iff.mp h
  obtain ⟨zs', hzs', hsub'⟩ := List.sublistForall₂_iff.mp h'
  exact List.sublistForall₂_iff.mpr ⟨zs ++ zs', List.rel_append hzs hzs', hsub.append hsub'⟩

theorem sublistForall₂_flatMap {f : α → List γ} {g : β → List δ} {xs : List α} {ys : List β}
    (h : SublistForall₂ R xs ys) (hfg : ∀ x y, R x y → SublistForall₂ S (f x) (g y)) :
    SublistForall₂ S (xs.flatMap f) (ys.flatMap g) := by
  induction h with
  | nil => exact .nil
  | cons hxy _ ih =>
      rw [List.flatMap_cons, List.flatMap_cons]
      exact sublistForall₂_append (hfg _ _ hxy) ih
  | cons_right _ ih =>
      rw [List.flatMap_cons]
      exact sublistForall₂_append .nil ih

theorem sublistForall₂_map {f : α → γ} {g : β → δ} {xs : List α} {ys : List β}
    (h : SublistForall₂ R xs ys) (hfg : ∀ x y, R x y → S (f x) (g y)) :
    SublistForall₂ S (xs.map f) (ys.map g) := by
  induction h with
  | nil => exact .nil
  | cons hxy _ ih => exact .cons (hfg _ _ hxy) ih
  | cons_right _ ih => exact .cons_right ih

/-- Members that are kept on the left need to be kept on the right. -/
theorem sublistForall₂_filter {p : α → Bool} {q : β → Bool} {xs : List α} {ys : List β}
    (h : SublistForall₂ R xs ys) (hpq : ∀ x y, R x y → p x = true → q y = true) :
    SublistForall₂ R (xs.filter p) (ys.filter q) := by
  induction h with
  | nil => exact .nil
  | @cons x y xs ys hxy _ ih =>
      by_cases hx : p x = true
      · rw [List.filter_cons_of_pos hx, List.filter_cons_of_pos (hpq x y hxy hx)]
        exact .cons hxy ih
      · rw [List.filter_cons_of_neg hx, List.filter_cons]
        split_ifs
        · exact .cons_right ih
        · exact ih
  | @cons_right y xs ys _ ih =>
      rw [List.filter_cons]
      split_ifs
      · exact .cons_right ih
      · exact ih

/-- What is found of a member by one function needs to be found by the other. -/
theorem sublistForall₂_filterMap {f : α → Option γ} {g : α → Option δ} {xs : List α}
    (h : ∀ x ∈ xs, ∀ c, f x = some c → ∃ d, g x = some d ∧ S c d) :
    SublistForall₂ S (xs.filterMap f) (xs.filterMap g) := by
  induction xs with
  | nil => exact .nil
  | cons x xs ih =>
      obtain ⟨hx, hxs⟩ := List.forall_mem_cons.mp h
      cases hf : f x with
      | none =>
          rw [List.filterMap_cons_none hf, List.filterMap_cons]
          cases g x with
          | none => exact ih hxs
          | some d => exact .cons_right (ih hxs)
      | some c =>
          obtain ⟨d, hg, hcd⟩ := hx c hf
          rw [List.filterMap_cons_some hf, List.filterMap_cons_some hg]
          exact .cons hcd (ih hxs)

/-- Every selection from a list goes to one from a list into which it embeds, and their order stays. -/
theorem sublistForall₂_combinations {xs : List α} {ys : List β} (h : SublistForall₂ R xs ys)
    (k : ℕ) : SublistForall₂ (Forall₂ R) (combinations xs k) (combinations ys k) := by
  induction h generalizing k with
  | nil =>
      cases k with
      | zero =>
          rw [combinations_zero, combinations_zero]
          exact .cons .nil .nil
      | succ k => exact .nil
  | cons hxy _ ih =>
      cases k with
      | zero =>
          rw [combinations_zero, combinations_zero]
          exact .cons .nil .nil
      | succ k =>
          rw [combinations_cons_succ, combinations_cons_succ]
          exact sublistForall₂_append (sublistForall₂_map (ih k) fun _ _ h => .cons hxy h) (ih (k + 1))
  | cons_right _ ih =>
      cases k with
      | zero =>
          rw [combinations_zero, combinations_zero]
          exact .cons .nil .nil
      | succ k =>
          rw [combinations_cons_succ]
          exact sublistForall₂_append .nil (ih (k + 1))

/-! ### Values that related members share -/

section map

variable {f : α → γ} {g : β → γ} {xs : List α} {ys : List β}

theorem map_eq_map_of_forall₂ (h : Forall₂ R xs ys) (hfg : ∀ x y, R x y → g y = f x) :
    ys.map g = xs.map f := by
  induction h with
  | nil => rfl
  | cons hxy _ ih => rw [List.map_cons, List.map_cons, hfg _ _ hxy, ih]

theorem sublist_map_of_sublistForall₂ (h : SublistForall₂ R xs ys)
    (hfg : ∀ x y, R x y → g y = f x) : (xs.map f).Sublist (ys.map g) := by
  obtain ⟨zs, hzs, hsub⟩ := List.sublistForall₂_iff.mp h
  rw [← map_eq_map_of_forall₂ hzs hfg]
  exact hsub.map g

theorem length_le_of_sublistForall₂ (h : SublistForall₂ R xs ys) : xs.length ≤ ys.length := by
  obtain ⟨zs, hzs, hsub⟩ := List.sublistForall₂_iff.mp h
  rw [hzs.length_eq]
  exact hsub.length_le

end map

end Lookalike
