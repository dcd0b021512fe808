import Lookalike.PersonName
import Lookalike.Proofs.Vocabulary
import Mathlib.Data.List.TakeWhile

/-! # Normal forms that say something

A name that is not blank has normal forms that are not empty, and the words of a text are not empty and
hold no space.

Main statements: `family_ne_empty`, `first_ne_empty` and `mem_words`. -/

namespace Lookalike

/-! ### Texts that are not blank -/

namespace Text

theorem dropEnd_eq_nil_iff {α : Type} {p : α → Bool} {cs : List α} :
    dropEnd p cs = [] ↔ ∀ c ∈ cs, p c = true := by
  rw [dropEnd, List.reverse_eq_nil_iff, List.dropWhile_eq_nil_iff]
  simp

theorem trimChars_eq_nil_iff {cs : List Char} :
    trimChars cs = [] ↔ ∀ c ∈ cs, isSpace c = true := by
  rw [trimChars, dropEnd_eq_nil_iff, ← List.dropWhile_eq_nil_iff, dropWhile_dropWhile,
    List.dropWhile_eq_nil_iff]

theorem trimChars_ne_nil {s : String} (h : isBlank s = false) : trimChars s.toList ≠ [] := by
  rw [Ne, trimChars_eq_nil_iff, ← List.all_eq_true]
  exact Bool.eq_false_iff.mp h

theorem ne_empty_of_not_isBlank {s : String} (h : isBlank s = false) : s ≠ "" := by
  rintro rfl
  cases h

theorem lowerChar_ne_nil (c : Char) : lowerChar c ≠ [] := by
  unfold lowerChar
  split_ifs
  · exact List.cons_ne_nil _ _
  · exact List.cons_ne_nil _ _
  · split
    · exact List.cons_ne_nil _ _
    · exact List.cons_ne_nil _ _

theorem lowerAt_ne_nil (before : List Char) (c : Char) (after : List Char) :
    lowerAt before c after ≠ [] := by
  unfold lowerAt
  split_ifs
  · exact List.cons_ne_nil _ _
  · exact List.cons_ne_nil _ _
  · exact lowerChar_ne_nil c

theorem lowercaseChars_eq_nil_iff {cs : List Char} : lowercaseChars cs = [] ↔ cs = [] := by
  cases cs with
  | nil => exact iff_of_true rfl rfl
  | cons c cs =>
      have happend : lowercaseChars (c :: cs) = lowerAt [] c cs ++ lowerAfter [c] cs := rfl
      rw [happend, List.append_eq_nil_iff]
      simp [lowerAt_ne_nil]

end Text

namespace PersonName

theorem squeeze_eq_nil_iff {c : Char} {cs : List Char} : squeeze c cs = [] ↔ cs = [] := by
  cases cs with
  | nil => exact iff_of_true rfl rfl
  | cons a cs =>
      rw [squeeze]
      split
      · simp
      · split_ifs <;> simp

theorem closeHyphens_eq_nil_iff {cs : List Char} : closeHyphens cs = [] ↔ cs = [] := by
  unfold closeHyphens
  split <;> simp

theorem family_ne_empty {name : String} (h : Text.isBlank name = false) : family name ≠ "" := by
  rw [family, Ne, String.ofList_eq_empty_iff, familyChars, closeHyphens_eq_nil_iff, squeeze_eq_nil_iff,
    squeeze_eq_nil_iff]
  exact Text.trimChars_ne_nil h

theorem first_ne_empty {name : String} (h : Text.isBlank name = false) : first name ≠ "" := by
  rw [first, Ne, String.ofList_eq_empty_iff, firstChars, Text.lowercaseChars_eq_nil_iff,
    squeeze_eq_nil_iff]
  exact Text.trimChars_ne_nil h

/-! ### Words -/

theorem not_mem_of_mem_splitOn {c : Char} {cs word : List Char} (h : word ∈ cs.splitOn c) :
    c ∉ word := by
  induction cs generalizing word with
  | nil =>
      rw [List.splitOn_nil, List.mem_singleton] at h
      rw [h]
      exact List.not_mem_nil
  | cons a cs ih =>
      rw [List.splitOn_cons_eq_if_modifyHead] at h
      split_ifs at h with ha
      · rcases List.mem_cons.mp h with rfl | h
        · exact List.not_mem_nil
        · exact ih h
      · cases hsplit : cs.splitOn c with
        | nil =>
            rw [hsplit] at h
            cases h
        | cons first rest =>
            rw [hsplit] at h ih
            rw [List.modifyHead_cons] at h
            rcases List.mem_cons.mp h with rfl | h
            · have hne : c ≠ a := fun hc => ha (by simp [hc])
              exact List.not_mem_cons_of_ne_of_not_mem hne (ih List.mem_cons_self)
            · exact ih (List.mem_cons_of_mem _ h)

theorem mem_words {text word : String} (h : word ∈ words text) : word ≠ "" ∧ ' ' ∉ word.toList := by
  obtain ⟨chars, hchars, rfl⟩ := List.mem_map.mp h
  obtain ⟨hmem, hsome⟩ := List.mem_filter.mp hchars
  rw [String.toList_ofList, Ne, String.ofList_eq_empty_iff]
  exact ⟨by simpa using hsome, not_mem_of_mem_splitOn hmem⟩

end PersonName

end Lookalike
