import Lookalike.Generation
import Mathlib.Data.List.Basic

/-! # Labels of searches

The label of a marker is the code of its rule, a number sign and its number.  A code may hold number
signs and digits, but there is no number sign in a number, so the last one of a label ends the code.

Main statements: `Marker.label_injective`, and `Rule.label_of_generate` for the searches of a rule. -/

namespace Lookalike

/-- A list is cut at the last place of a member in one way only. -/
theorem append_cons_inj_of_not_mem {α : Type} {x : α} {xs xs' ys ys' : List α} (hys : x ∉ ys)
    (hys' : x ∉ ys') (h : xs ++ x :: ys = xs' ++ x :: ys') : xs = xs' ∧ ys = ys' := by
  induction xs generalizing xs' with
  | nil =>
      cases xs' with
      | nil => exact ⟨rfl, (List.cons.inj h).2⟩
      | cons y xs' =>
          obtain ⟨-, htail⟩ := List.cons.inj h
          exact absurd (by simp [htail]) hys
  | cons y xs ih =>
      cases xs' with
      | nil =>
          obtain ⟨-, htail⟩ := List.cons.inj h
          exact absurd (by simp [← htail]) hys'
      | cons y' xs' =>
          obtain ⟨rfl, htail⟩ := List.cons.inj h
          obtain ⟨rfl, rfl⟩ := ih htail
          exact ⟨rfl, rfl⟩

namespace Marker

theorem toList_label (m : Marker) :
    m.label.toList = m.ruleCode.toList ++ '#' :: Nat.toDigits 10 m.variant := by
  have hsign : "#".toList = ['#'] := rfl
  rw [label, String.toList_append, String.toList_append, Nat.toList_repr, hsign, List.append_assoc,
    List.singleton_append]

theorem sign_not_mem_toDigits (n : ℕ) : '#' ∉ Nat.toDigits 10 n := fun h =>
  absurd (Nat.isDigit_of_mem_toDigits (by omega) (by omega) h) (by decide)

/-- A label tells its marker, also when the code looks like one. -/
theorem label_injective {m m' : Marker} (h : m.label = m'.label) : m = m' := by
  have hlists := congrArg String.toList h
  rw [toList_label, toList_label] at hlists
  obtain ⟨hcode, hdigits⟩ := append_cons_inj_of_not_mem (sign_not_mem_toDigits _)
    (sign_not_mem_toDigits _) hlists
  have hvariant : m.variant = m'.variant := by
    rw [← Nat.ofDigitChars_ten_toDigits (n := m.variant), hdigits, Nat.ofDigitChars_ten_toDigits]
  obtain ⟨code, variant⟩ := m
  obtain ⟨code', variant'⟩ := m'
  obtain rfl : code = code' := String.toList_injective hcode
  obtain rfl : variant = variant' := hvariant
  rfl

/-- The labels of different searches of a rule differ. -/
theorem label_inj {code : String} {v w : ℕ} : label ⟨code, v⟩ = label ⟨code, w⟩ ↔ v = w := by
  constructor
  · intro h
    exact congrArg variant (label_injective h)
  · rintro rfl
    rfl

end Marker

theorem Rule.label_of_generate {r : Rule} {catalog : AttributeCatalog} {options : SynthesisOptions}
    {o : Observation} {context : RequestContext} {ds : List Descriptor}
    (h : r.generate catalog options o context = .ok ds) {v : ℕ} {d : Descriptor}
    (hd : ds[v]? = some d) : d.label = some (Marker.label ⟨r.code, v⟩) := by
  unfold generate at h
  cases hsets : r.workingSets catalog o with
  | error e =>
      rw [hsets] at h
      cases h
  | ok sets =>
      rw [hsets] at h
      obtain rfl := Except.ok.inj h
      rw [List.getElem?_map, Option.map_eq_some_iff] at hd
      obtain ⟨⟨set, variant⟩, hset, rfl⟩ := hd
      obtain ⟨-, rfl⟩ : sets[v]? = some set ∧ v = variant := by
        simpa [List.getElem?_zipIdx] using hset
      rfl

end Lookalike
