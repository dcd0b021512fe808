import Mathlib.Data.List.Basic
import Lookalike.Attribute
import Lookalike.Config.Validation

/-! # Words of a vocabulary

A word counts by its canonical spelling: small letters without blanks around them.  Two places read
words, the check that a word is known and the parser that turns it into what it stands for; they agree
because both go by that spelling.

Main statements: `Text.trim_lowerAscii`, that blanks and letters are dealt with in either order;
`isKnownWord_iff`, that a word is known exactly if its canonical spelling is listed;
`Treatment.parse_eq_ok_iff` and `FieldKind.parse_eq_ok_iff`, that a word stands for what is spelled
so. -/

namespace Lookalike
namespace Text

/-! ### Blanks at the ends -/

section DropEnd

variable {α : Type} {p : α → Bool}

theorem dropEnd_cons_of_neg {a : α} (h : p a = false) (as : List α) :
    dropEnd p (a :: as) = a :: dropEnd p as := by
  rw [dropEnd, dropEnd, List.reverse_cons, List.dropWhile_append]
  split
  · rename_i hempty
    rw [List.isEmpty_iff.mp hempty]
    simp [h]
  · simp

theorem dropWhile_of_head? {as : List α} (h : ∀ a ∈ as.head?, p a = false) :
    as.dropWhile p = as := by
  cases as with
  | nil => rfl
  | cons a as =>
      have ha : p a = false := h a rfl
      simp [ha]

theorem dropWhile_dropWhile (as : List α) : (as.dropWhile p).dropWhile p = as.dropWhile p := by
  induction as with
  | nil => rfl
  | cons a as ih =>
      cases ha : p a with
      | false => simp [ha]
      | true => simpa [ha] using ih

theorem dropEnd_dropEnd (as : List α) : dropEnd p (dropEnd p as) = dropEnd p as := by
  rw [dropEnd, dropEnd, List.reverse_reverse, dropWhile_dropWhile]

/-- Nothing more can be dropped from the front once the end has been cleared too. -/
theorem dropWhile_dropEnd_dropWhile (as : List α) :
    (dropEnd p (as.dropWhile p)).dropWhile p = dropEnd p (as.dropWhile p) := by
  induction as with
  | nil => rfl
  | cons a as ih =>
      cases ha : p a with
      | false => simp [ha, dropEnd_cons_of_neg ha]
      | true => simpa [ha] using ih

theorem dropEnd_map {β : Type} {q : β → Bool} {f : α → β} (h : ∀ a, q (f a) = p a) (as : List α) :
    dropEnd q (as.map f) = (dropEnd p as).map f := by
  have hcomp : q ∘ f = p := funext h
  rw [dropEnd, dropEnd, ← List.map_reverse, List.dropWhile_map, hcomp, List.map_reverse]

end DropEnd

theorem trimChars_trimChars (cs : List Char) : trimChars (trimChars cs) = trimChars cs := by
  rw [trimChars, trimChars, dropWhile_dropEnd_dropWhile, dropEnd_dropEnd]

theorem trim_trim (s : String) : trim (trim s) = trim s := by
  have h := trimChars_trimChars s.toList
  rw [← toList_trim, ← toList_trim] at h
  exact String.ext h

theorem trimChars_eq_self {cs : List Char} (hfirst : ∀ c ∈ cs.head?, isSpace c = false)
    (hlast : ∀ c ∈ cs.getLast?, isSpace c = false) : trimChars cs = cs := by
  have hend : ∀ c ∈ cs.reverse.head?, isSpace c = false := by
    rwa [List.head?_reverse]
  rw [trimChars, dropWhile_of_head? hfirst, dropEnd, dropWhile_of_head? hend, List.reverse_reverse]

theorem trim_eq_self {s : String} (hfirst : ∀ c ∈ s.toList.head?, isSpace c = false)
    (hlast : ∀ c ∈ s.toList.getLast?, isSpace c = false) : trim s = s := by
  rw [trim, trimChars_eq_self hfirst hlast, String.ofList_toList]

/-! ### Small letters -/

theorem toNat_toLower (c : Char) :
    c.toLower.toNat = if 65 ≤ c.toNat ∧ c.toNat ≤ 90 then c.toNat + 32 else c.toNat := by
  have hrange : (c.val ≥ 'A'.val ∧ c.val ≤ 'Z'.val) ↔ 65 ≤ c.toNat ∧ c.toNat ≤ 90 := by
    simp only [ge_iff_le, UInt32.le_iff_toNat_le]
    rfl
  unfold Char.toLower
  by_cases h : 65 ≤ c.toNat ∧ c.toNat ≤ 90
  · have hsum : (c.val + ('a'.val - 'A'.val)).toNat = (c.toNat + 32) % 2 ^ 32 :=
      UInt32.toNat_add _ _
    rw [dif_pos (hrange.mpr h), if_pos h, Char.toNat, hsum]
    omega
  · rw [dif_neg (mt hrange.mp h), if_neg h]

theorem toLower_toLower (c : Char) : c.toLower.toLower = c.toLower := by
  have honce := toNat_toLower c
  have htwice := toNat_toLower c.toLower
  apply Char.ext
  apply UInt32.toNat.inj
  change c.toLower.toLower.toNat = c.toLower.toNat
  split_ifs at honce htwice <;> omega

theorem isSpace_of_letter {c : Char} (hlow : 65 ≤ c.toNat) (hhigh : c.toNat ≤ 122) :
    isSpace c = false := by
  simp only [isSpace, Bool.or_eq_false_iff, Bool.and_eq_false_iff, decide_eq_false_iff_not,
    beq_eq_false_iff_ne]
  omega

theorem isSpace_toLower (c : Char) : isSpace c.toLower = isSpace c := by
  have h := toNat_toLower c
  split_ifs at h with hupper
  · have hsmall : isSpace c.toLower = false := isSpace_of_letter (by omega) (by omega)
    have hcapital : isSpace c = false := isSpace_of_letter (by omega) (by omega)
    rw [hsmall, hcapital]
  · simp only [isSpace, h]

theorem toList_lowerAscii (s : String) : (lowerAscii s).toList = s.toList.map Char.toLower := by
  simp [lowerAscii]

theorem lowerAscii_lowerAscii (s : String) : lowerAscii (lowerAscii s) = lowerAscii s := by
  apply String.ext
  rw [toList_lowerAscii, toList_lowerAscii, List.map_map]
  exact List.map_congr_left fun c _ => toLower_toLower c

theorem trim_lowerAscii (s : String) : trim (lowerAscii s) = lowerAscii (trim s) := by
  have hcomp : isSpace ∘ Char.toLower = isSpace := funext isSpace_toLower
  apply String.ext
  rw [toList_lowerAscii, toList_trim, toList_trim, toList_lowerAscii, trimChars, trimChars,
    List.dropWhile_map, hcomp]
  exact dropEnd_map isSpace_toLower _

/-- A text that differs from one without blanks in the case of letters only has none around it. -/
theorem trim_eq_self_of_lowerAscii {s word : String} (h : lowerAscii s = word)
    (hword : ∀ c ∈ word.toList, isSpace c = false) : trim s = s := by
  have hspace : ∀ c ∈ s.toList, isSpace c = false := by
    intro c hc
    rw [← isSpace_toLower]
    apply hword
    rw [← h, toList_lowerAscii]
    exact List.mem_map_of_mem hc
  exact trim_eq_self (fun c hc => hspace c (List.mem_of_mem_head? hc))
    (fun c hc => hspace c (List.mem_of_mem_getLast? hc))

theorem canonicalWord_canonicalWord (s : String) :
    canonicalWord (canonicalWord s) = canonicalWord s := by
  rw [canonicalWord, canonicalWord, trim_lowerAscii, trim_trim, lowerAscii_lowerAscii]

theorem sameWord_iff {a b : String} : sameWord a b = true ↔ lowerAscii a = lowerAscii b := by
  rw [sameWord, beq_iff_eq]

/-- A word and its canonical spelling differ at most in blanks and in the case of letters. -/
theorem sameWord_trim_iff {word known : String} (h : lowerAscii known = known) :
    sameWord (trim word) known = true ↔ canonicalWord word = known := by
  rw [sameWord_iff, h, canonicalWord]

end Text

/-! ### Known words -/

theorem isKnownWord_iff {known : List String} (h : ∀ k ∈ known, Text.lowerAscii k = k)
    {word : String} : isKnownWord known word = true ↔ Text.canonicalWord word ∈ known := by
  rw [isKnownWord, List.any_eq_true]
  constructor
  · rintro ⟨k, hk, hsame⟩
    rw [Text.sameWord_iff, h k hk] at hsame
    rwa [Text.canonicalWord, ← hsame]
  · intro hmem
    refine ⟨_, hmem, ?_⟩
    rw [Text.sameWord_iff, h _ hmem, Text.canonicalWord]

theorem isKnownWord_canonicalWord {known : List String} (h : ∀ k ∈ known, Text.lowerAscii k = k)
    (word : String) : isKnownWord known (Text.canonicalWord word) = isKnownWord known word := by
  rw [Bool.eq_iff_iff, isKnownWord_iff h, isKnownWord_iff h, Text.canonicalWord_canonicalWord]

theorem lowerAscii_treatmentWords : ∀ k ∈ treatmentWords, Text.lowerAscii k = k := by decide

theorem lowerAscii_fieldKindWords : ∀ k ∈ fieldKindWords, Text.lowerAscii k = k := by decide

theorem lowerAscii_failureModeWords : ∀ k ∈ failureModeWords, Text.lowerAscii k = k := by decide

namespace Treatment

theorem parse_eq_ok_iff {raw : String} {t : Treatment} :
    parse raw = .ok t ↔ t.word = Text.canonicalWord raw := by
  unfold parse
  generalize Text.canonicalWord raw = word
  split
  case h_5 hstrict happroximated hdifferent habsent =>
    cases t
    · simpa using fun h => hstrict h.symm
    · simpa using fun h => happroximated h.symm
    · simpa using fun h => hdifferent h.symm
    · simpa using fun h => habsent h.symm
  all_goals cases t <;> decide

theorem exists_parse_iff {raw : String} :
    (∃ t, parse raw = .ok t) ↔ isKnownWord treatmentWords raw = true := by
  simp only [parse_eq_ok_iff, isKnownWord_iff lowerAscii_treatmentWords]
  generalize Text.canonicalWord raw = spelling
  constructor
  · rintro ⟨t, rfl⟩
    cases t <;> decide
  · intro h
    simp only [treatmentWords, List.mem_cons, List.not_mem_nil, or_false] at h
    rcases h with rfl | rfl | rfl | rfl
    · exact ⟨strict, rfl⟩
    · exact ⟨approximated, rfl⟩
    · exact ⟨different, rfl⟩
    · exact ⟨absent, rfl⟩

end Treatment

namespace FieldKind

theorem parse_eq_ok_iff {raw : String} {kind : FieldKind} :
    parse raw = .ok kind ↔ kind.word = Text.canonicalWord raw := by
  unfold parse
  generalize Text.canonicalWord raw = word
  split
  case h_4 hplain hfamily hfirst =>
    cases kind
    · simpa using fun h => hplain h.symm
    · simpa using fun h => hfamily h.symm
    · simpa using fun h => hfirst h.symm
  all_goals cases kind <;> decide

theorem exists_parse_iff {raw : String} :
    (∃ kind, parse raw = .ok kind) ↔ isKnownWord fieldKindWords raw = true := by
  simp only [parse_eq_ok_iff, isKnownWord_iff lowerAscii_fieldKindWords]
  generalize Text.canonicalWord raw = spelling
  constructor
  · rintro ⟨kind, rfl⟩
    cases kind <;> decide
  · intro h
    simp only [fieldKindWords, List.mem_cons, List.not_mem_nil, or_false] at h
    rcases h with rfl | rfl | rfl
    · exact ⟨plain, rfl⟩
    · exact ⟨familyName, rfl⟩
    · exact ⟨firstName, rfl⟩

end FieldKind

end Lookalike
