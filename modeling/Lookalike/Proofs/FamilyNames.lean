import Lookalike.Proofs.NormalNames
import Mathlib.Data.List.Chain

/-! # Hyphens and spaces of family names

The normal form of a family name evens out runs first and closes hyphens last.  Runs of spaces are gone
for good, since closing hyphens only takes spaces away.  Runs of hyphens are not: hyphens with nothing
but spaces between them are drawn together, so the normal form has hyphens side by side exactly if the
name has such hyphens, and exactly then it is not its own normal form.  What is left to do is one more
pass over the runs of hyphens, so the second normal form is final.

Main statement: `family_normal_iff`. -/

namespace Lookalike

/-! ### Ends of a text without blanks around it -/

namespace Text

theorem not_isSpace_head?_trimChars (cs : List Char) :
    ∀ c ∈ (trimChars cs).head?, isSpace c = false := by
  intro c hc
  have hdropped : (trimChars cs).dropWhile isSpace = trimChars cs := dropWhile_dropEnd_dropWhile cs
  have hfirst := List.head?_dropWhile_not isSpace (trimChars cs)
  rw [hdropped, hc] at hfirst
  exact hfirst

theorem not_isSpace_getLast?_trimChars (cs : List Char) :
    ∀ c ∈ (trimChars cs).getLast?, isSpace c = false := by
  intro c hc
  have hfirst := List.head?_dropWhile_not isSpace (cs.dropWhile isSpace).reverse
  rw [trimChars, dropEnd, List.getLast?_reverse] at hc
  rw [hc] at hfirst
  exact hfirst

end Text

namespace PersonName

/-! ### Neighbours -/

section Apart

variable {a b c : Char} {cs : List Char}

/-- No `a` stands directly before a `b`. -/
def Apart (a b : Char) (cs : List Char) : Prop := cs.IsChain fun x y => ¬(x = a ∧ y = b)

instance (a b : Char) (cs : List Char) : Decidable (Apart a b cs) :=
  inferInstanceAs (Decidable (cs.IsChain _))

theorem apart_nil : Apart a b [] := List.IsChain.nil

theorem apart_cons {x : Char} :
    Apart a b (x :: cs) ↔ (x = a → cs.head? ≠ some b) ∧ Apart a b cs := by
  rw [Apart, Apart, List.isChain_cons]
  refine and_congr_left fun _ => ?_
  cases cs with
  | nil => simp
  | cons y cs => simp

/-! ### Runs -/

theorem head?_squeeze (c : Char) (cs : List Char) : (squeeze c cs).head? = cs.head? := by
  cases cs with
  | nil => rfl
  | cons a cs =>
      rw [squeeze]
      split
      · rfl
      · rename_i b rest hrest
        split_ifs with h
        · rw [List.head?_cons, List.head?_cons, h.1, h.2]
        · rfl

/-- A character is dropped when it starts a run that goes on behind it. -/
theorem squeeze_cons (c x : Char) (cs : List Char) :
    squeeze c (x :: cs) = if x = c ∧ cs.head? = some c then squeeze c cs else x :: squeeze c cs := by
  rw [← head?_squeeze c cs, squeeze]
  cases squeeze c cs with
  | nil => simp
  | cons y rest => simp

theorem getLast?_squeeze (c : Char) (cs : List Char) : (squeeze c cs).getLast? = cs.getLast? := by
  induction cs with
  | nil => rfl
  | cons x cs ih =>
      rw [squeeze_cons]
      split_ifs with h
      · cases cs with
        | nil => cases h.2
        | cons y cs => rw [ih, List.getLast?_cons_cons]
      · rw [List.getLast?_cons, List.getLast?_cons, ih]

theorem apart_squeeze (c : Char) (cs : List Char) : Apart c c (squeeze c cs) := by
  induction cs with
  | nil => exact apart_nil
  | cons x cs ih =>
      rw [squeeze_cons]
      split_ifs with h
      · exact ih
      · rw [apart_cons, head?_squeeze]
        exact ⟨fun hx hhead => h ⟨hx, hhead⟩, ih⟩

theorem Apart.squeeze (h : Apart a b cs) (c : Char) : Apart a b (squeeze c cs) := by
  induction cs with
  | nil => exact apart_nil
  | cons x cs ih =>
      obtain ⟨hhead, hrest⟩ := apart_cons.mp h
      rw [squeeze_cons]
      split_ifs
      · exact ih hrest
      · rw [apart_cons, head?_squeeze]
        exact ⟨hhead, ih hrest⟩

theorem Apart.squeeze_eq_self (h : Apart c c cs) : PersonName.squeeze c cs = cs := by
  induction cs with
  | nil => rfl
  | cons x cs ih =>
      obtain ⟨hhead, hrest⟩ := apart_cons.mp h
      rw [squeeze_cons, if_neg fun hrun => hhead hrun.1 hrun.2, ih hrest]

end Apart

/-! ### Closed hyphens -/

section Close

variable {cs : List Char}

theorem closeHyphens_cons {c : Char} (hbefore : c = ' ' → cs.head? ≠ some '-')
    (hafter : c = '-' → cs.head? ≠ some ' ') : closeHyphens (c :: cs) = c :: closeHyphens cs := by
  rw [closeHyphens]
  · rintro rest rfl rfl
    exact hbefore rfl rfl
  · rintro rest rfl rfl
    exact hbefore rfl rfl
  · rintro rest rfl rfl
    exact hafter rfl rfl

theorem closeHyphens_after (cs : List Char) :
    closeHyphens ('-' :: ' ' :: cs) = '-' :: closeHyphens cs := by
  rw [closeHyphens]

theorem closeHyphens_before (cs : List Char) :
    closeHyphens (' ' :: '-' :: cs) = closeHyphens ('-' :: cs) := by
  by_cases hspace : cs.head? = some ' '
  · obtain ⟨rest, rfl⟩ := List.head?_eq_some_iff.mp hspace
    rw [closeHyphens_after, closeHyphens]
  · rw [closeHyphens_cons (by simp) fun _ => hspace, closeHyphens]
    rintro rest rfl
    exact hspace rfl

/-- Closing hyphens drops the space before one, drops the space after one, and keeps all else. -/
theorem closeHyphens_induction {P : List Char → Prop} (nil : P [])
    (before : ∀ cs, P ('-' :: cs) → P (' ' :: '-' :: cs))
    (after : ∀ cs, P cs → P ('-' :: ' ' :: cs))
    (other : ∀ c cs, (c = ' ' → cs.head? ≠ some '-') → (c = '-' → cs.head? ≠ some ' ') → P cs →
      P (c :: cs)) : ∀ cs, P cs
  | [] => nil
  | c :: cs => by
      by_cases hbefore : c = ' ' ∧ cs.head? = some '-'
      · obtain ⟨rest, rfl⟩ := List.head?_eq_some_iff.mp hbefore.2
        rw [hbefore.1]
        exact before rest (closeHyphens_induction nil before after other _)
      · by_cases hafter : c = '-' ∧ cs.head? = some ' '
        · obtain ⟨rest, rfl⟩ := List.head?_eq_some_iff.mp hafter.2
          rw [hafter.1]
          exact after rest (closeHyphens_induction nil before after other _)
        · exact other c cs (fun hc hhead => hbefore ⟨hc, hhead⟩) (fun hc hhead => hafter ⟨hc, hhead⟩)
            (closeHyphens_induction nil before after other _)
termination_by cs => cs.length

theorem head?_closeHyphens (h : cs.head? ≠ some ' ') : (closeHyphens cs).head? = cs.head? := by
  induction cs using closeHyphens_induction with
  | nil => rfl
  | before cs ih => exact absurd rfl h
  | after cs ih => rw [closeHyphens_after, List.head?_cons, List.head?_cons]
  | other c cs hbefore hafter ih =>
      rw [closeHyphens_cons hbefore hafter, List.head?_cons, List.head?_cons]

theorem getLast?_closeHyphens (h : cs.getLast? ≠ some ' ') :
    (closeHyphens cs).getLast? = cs.getLast? := by
  induction cs using closeHyphens_induction with
  | nil => rfl
  | before cs ih =>
      rw [List.getLast?_cons_cons] at h ⊢
      rw [closeHyphens_before, ih h]
  | after cs ih =>
      cases cs with
      | nil => exact absurd rfl h
      | cons x cs =>
          rw [List.getLast?_cons_cons, List.getLast?_cons_cons] at h ⊢
          rw [closeHyphens_after, List.getLast?_cons, ih h, List.getLast?_cons]
          rfl
  | other c cs hbefore hafter ih =>
      cases cs with
      | nil => rw [closeHyphens_cons hbefore hafter, closeHyphens]
      | cons x cs =>
          rw [List.getLast?_cons_cons] at h
          rw [closeHyphens_cons hbefore hafter, List.getLast?_cons, List.getLast?_cons, ih h]

theorem closeHyphens_eq_self (hbefore : Apart ' ' '-' cs) (hafter : Apart '-' ' ' cs) :
    closeHyphens cs = cs := by
  induction cs with
  | nil => rfl
  | cons c cs ih =>
      obtain ⟨hb, hbrest⟩ := apart_cons.mp hbefore
      obtain ⟨ha, harest⟩ := apart_cons.mp hafter
      rw [closeHyphens_cons hb ha, ih hbrest harest]

/-- Where no spaces stand side by side, none are left beside hyphens or side by side. -/
theorem apart_closeHyphens (h : Apart ' ' ' ' cs) :
    Apart ' ' ' ' (closeHyphens cs) ∧ Apart ' ' '-' (closeHyphens cs) ∧
      Apart '-' ' ' (closeHyphens cs) := by
  induction cs using closeHyphens_induction with
  | nil => exact ⟨apart_nil, apart_nil, apart_nil⟩
  | before cs ih =>
      rw [closeHyphens_before]
      exact ih (apart_cons.mp h).2
  | after cs ih =>
      obtain ⟨hspace, hrest⟩ := apart_cons.mp (apart_cons.mp h).2
      obtain ⟨hspaces, hbefore, hafter⟩ := ih hrest
      have hhead : (closeHyphens cs).head? ≠ some ' ' := by
        rw [head?_closeHyphens (hspace rfl)]
        exact hspace rfl
      rw [closeHyphens_after]
      exact ⟨apart_cons.mpr ⟨by simp, hspaces⟩, apart_cons.mpr ⟨by simp, hbefore⟩,
        apart_cons.mpr ⟨fun _ => hhead, hafter⟩⟩
  | other c cs hbefore hafter ih =>
      obtain ⟨hspace, hrest⟩ := apart_cons.mp h
      obtain ⟨ihspaces, ihbefore, ihafter⟩ := ih hrest
      rw [closeHyphens_cons hbefore hafter]
      refine ⟨apart_cons.mpr ⟨fun hc => ?_, ihspaces⟩, apart_cons.mpr ⟨fun hc => ?_, ihbefore⟩,
        apart_cons.mpr ⟨fun hc => ?_, ihafter⟩⟩
      · rw [head?_closeHyphens (hspace hc)]
        exact hspace hc
      · rw [head?_closeHyphens (hspace hc)]
        exact hbefore hc
      · rw [head?_closeHyphens (hafter hc)]
        exact hafter hc

end Close

/-! ### Hyphens with spaces between them -/

section Spaced

variable {cs : List Char}

/-- A text starts with spaces, at least one, and goes on with a hyphen. -/
def HyphenBehindSpaces (cs : List Char) : Prop :=
  ∃ n after, cs = List.replicate (n + 1) ' ' ++ '-' :: after

/-- Two hyphens have spaces between them, at least one, and nothing else. -/
def HasSpacedHyphens (cs : List Char) : Prop :=
  ∃ before n after, cs = before ++ '-' :: (List.replicate (n + 1) ' ' ++ '-' :: after)

theorem HyphenBehindSpaces.head? (h : HyphenBehindSpaces cs) : cs.head? = some ' ' := by
  obtain ⟨n, after, rfl⟩ := h
  rfl

theorem hyphenBehindSpaces_cons {c : Char} :
    HyphenBehindSpaces (c :: cs) ↔ c = ' ' ∧ (cs.head? = some '-' ∨ HyphenBehindSpaces cs) := by
  constructor
  · rintro ⟨n, after, h⟩
    obtain ⟨hc, hcs⟩ := List.cons.inj h
    refine ⟨hc, ?_⟩
    cases n with
    | zero => exact Or.inl (by rw [hcs]; rfl)
    | succ n => exact Or.inr ⟨n, after, hcs⟩
  · rintro ⟨rfl, h | ⟨n, after, rfl⟩⟩
    · obtain ⟨after, rfl⟩ := List.head?_eq_some_iff.mp h
      exact ⟨0, after, rfl⟩
    · exact ⟨n + 1, after, rfl⟩

theorem not_hasSpacedHyphens_nil : ¬ HasSpacedHyphens [] := by
  rintro ⟨before, n, after, h⟩
  simp at h

theorem hasSpacedHyphens_cons {c : Char} :
    HasSpacedHyphens (c :: cs) ↔ c = '-' ∧ HyphenBehindSpaces cs ∨ HasSpacedHyphens cs := by
  constructor
  · rintro ⟨before, n, after, h⟩
    cases before with
    | nil =>
        obtain ⟨hc, hcs⟩ := List.cons.inj h
        exact Or.inl ⟨hc, n, after, hcs⟩
    | cons b before =>
        obtain ⟨-, hcs⟩ := List.cons.inj h
        exact Or.inr ⟨before, n, after, hcs⟩
  · rintro (⟨rfl, n, after, rfl⟩ | ⟨before, n, after, rfl⟩)
    · exact ⟨[], n, after, rfl⟩
    · exact ⟨c :: before, n, after, rfl⟩

theorem hyphenBehindSpaces_squeeze (c : Char) (cs : List Char) :
    HyphenBehindSpaces (squeeze c cs) ↔ HyphenBehindSpaces cs := by
  induction cs with
  | nil => rfl
  | cons x cs ih =>
      rw [squeeze_cons]
      split_ifs with hrun
      · obtain ⟨rfl, hhead⟩ := hrun
        rw [ih, hyphenBehindSpaces_cons]
        constructor
        · intro h
          rw [h.head?, Option.some.injEq] at hhead
          exact ⟨hhead.symm, Or.inr h⟩
        · rintro ⟨rfl, h | h⟩
          · rw [hhead] at h
            cases h
          · exact h
      · rw [hyphenBehindSpaces_cons, hyphenBehindSpaces_cons, head?_squeeze, ih]

/-- Evening out runs leaves hyphens with spaces between them, and makes none. -/
theorem hasSpacedHyphens_squeeze (c : Char) (cs : List Char) :
    HasSpacedHyphens (squeeze c cs) ↔ HasSpacedHyphens cs := by
  induction cs with
  | nil => rfl
  | cons x cs ih =>
      rw [squeeze_cons]
      split_ifs with hrun
      · rw [ih, hasSpacedHyphens_cons]
        refine (or_iff_right ?_).symm
        rintro ⟨hx, h⟩
        have hhead := h.head?
        rw [hrun.2, ← hrun.1, hx] at hhead
        cases hhead
      · rw [hasSpacedHyphens_cons, hasSpacedHyphens_cons, hyphenBehindSpaces_squeeze, ih]

theorem hasSpacedHyphens_reverse : HasSpacedHyphens cs.reverse ↔ HasSpacedHyphens cs := by
  suffices h : ∀ ds : List Char, HasSpacedHyphens ds → HasSpacedHyphens ds.reverse from
    ⟨fun hrev => by simpa using h _ hrev, h cs⟩
  rintro ds ⟨before, n, after, rfl⟩
  exact ⟨after.reverse, n, before.reverse, by simp⟩

theorem hasSpacedHyphens_dropWhile (cs : List Char) :
    HasSpacedHyphens (cs.dropWhile Text.isSpace) ↔ HasSpacedHyphens cs := by
  induction cs with
  | nil => rfl
  | cons c cs ih =>
      rw [List.dropWhile_cons]
      split_ifs with hblank
      · rw [ih, hasSpacedHyphens_cons]
        refine (or_iff_right ?_).symm
        rintro ⟨rfl, -⟩
        cases hblank
      · rfl

/-- A hyphen is no blank, so trimming a text leaves hyphens with spaces between them. -/
theorem hasSpacedHyphens_trimChars (cs : List Char) :
    HasSpacedHyphens (Text.trimChars cs) ↔ HasSpacedHyphens cs := by
  rw [Text.trimChars, Text.dropEnd, hasSpacedHyphens_reverse, hasSpacedHyphens_dropWhile,
    hasSpacedHyphens_reverse, hasSpacedHyphens_dropWhile]

/-- Where neither spaces nor hyphens stand side by side, closing the hyphens draws some of them together
exactly if they have spaces between them. -/
theorem apart_hyphens_closeHyphens (hspaces : Apart ' ' ' ' cs) (hhyphens : Apart '-' '-' cs) :
    Apart '-' '-' (closeHyphens cs) ↔ ¬ HasSpacedHyphens cs := by
  induction cs using closeHyphens_induction with
  | nil => exact iff_of_true apart_nil not_hasSpacedHyphens_nil
  | before cs ih =>
      rw [closeHyphens_before, hasSpacedHyphens_cons, ih (apart_cons.mp hspaces).2 (apart_cons.mp hhyphens).2]
      simp
  | after cs ih =>
      obtain ⟨hspace, hspaces⟩ := apart_cons.mp (apart_cons.mp hspaces).2
      have hhyphens := (apart_cons.mp (apart_cons.mp hhyphens).2).2
      have hnone : ¬ HyphenBehindSpaces cs := fun h => hspace rfl h.head?
      rw [closeHyphens_after, apart_cons, head?_closeHyphens (hspace rfl), ih hspaces hhyphens,
        hasSpacedHyphens_cons, hyphenBehindSpaces_cons, hasSpacedHyphens_cons]
      simp [hnone]
  | other c cs hbefore hafter ih =>
      obtain ⟨hhyphen, hhyphens⟩ := apart_cons.mp hhyphens
      have hspaces := (apart_cons.mp hspaces).2
      have hnone : ¬(c = '-' ∧ HyphenBehindSpaces cs) := fun h => hafter h.1 h.2.head?
      have hhead : c = '-' → (closeHyphens cs).head? ≠ some '-' := by
        intro hc
        rw [head?_closeHyphens (hafter hc)]
        exact hhyphen hc
      rw [closeHyphens_cons hbefore hafter, apart_cons, and_iff_right hhead, ih hspaces hhyphens,
        hasSpacedHyphens_cons, or_iff_right hnone]

end Spaced

/-! ### Family names -/

/-- What a name comes to before its hyphens are closed: no blanks around it and no runs. -/
def evened (cs : List Char) : List Char := squeeze ' ' (squeeze '-' (Text.trimChars cs))

theorem familyChars_eq (cs : List Char) : familyChars cs = closeHyphens (evened cs) := rfl

theorem apart_spaces_evened (cs : List Char) : Apart ' ' ' ' (evened cs) := apart_squeeze ' ' _

theorem apart_hyphens_evened (cs : List Char) : Apart '-' '-' (evened cs) :=
  (apart_squeeze '-' _).squeeze ' '

theorem head?_evened (cs : List Char) : (evened cs).head? = (Text.trimChars cs).head? := by
  rw [evened, head?_squeeze, head?_squeeze]

theorem getLast?_evened (cs : List Char) :
    (evened cs).getLast? = (Text.trimChars cs).getLast? := by
  rw [evened, getLast?_squeeze, getLast?_squeeze]

theorem trimChars_familyChars (cs : List Char) : Text.trimChars (familyChars cs) = familyChars cs := by
  have hfirst := Text.not_isSpace_head?_trimChars cs
  have hlast := Text.not_isSpace_getLast?_trimChars cs
  rw [← head?_evened] at hfirst
  rw [← getLast?_evened] at hlast
  have hhead : (evened cs).head? ≠ some ' ' := fun h => by cases hfirst ' ' h
  have hend : (evened cs).getLast? ≠ some ' ' := fun h => by cases hlast ' ' h
  rw [familyChars_eq]
  refine Text.trimChars_eq_self ?_ ?_
  · rwa [head?_closeHyphens hhead]
  · rwa [getLast?_closeHyphens hend]

/-- The normal form of a normal form differs in the runs of hyphens only. -/
theorem familyChars_familyChars (cs : List Char) :
    familyChars (familyChars cs) = squeeze '-' (familyChars cs) := by
  obtain ⟨hspaces, hbefore, hafter⟩ := apart_closeHyphens (apart_spaces_evened cs)
  rw [← familyChars_eq] at hspaces hbefore hafter
  rw [familyChars_eq (familyChars cs), evened, trimChars_familyChars,
    (hspaces.squeeze '-').squeeze_eq_self,
    closeHyphens_eq_self (hbefore.squeeze '-') (hafter.squeeze '-')]

theorem apart_hyphens_familyChars (cs : List Char) :
    Apart '-' '-' (familyChars cs) ↔ ¬ HasSpacedHyphens cs := by
  rw [familyChars_eq, apart_hyphens_closeHyphens (apart_spaces_evened cs) (apart_hyphens_evened cs),
    evened, hasSpacedHyphens_squeeze, hasSpacedHyphens_squeeze, hasSpacedHyphens_trimChars]

theorem familyChars_familyChars_eq_self_iff (cs : List Char) :
    familyChars (familyChars cs) = familyChars cs ↔ ¬ HasSpacedHyphens cs := by
  rw [familyChars_familyChars, ← apart_hyphens_familyChars]
  refine ⟨fun h => ?_, Apart.squeeze_eq_self⟩
  rw [← h]
  exact apart_squeeze '-' _

theorem apart_hyphens_twice (cs : List Char) : Apart '-' '-' (familyChars (familyChars cs)) := by
  rw [familyChars_familyChars]
  exact apart_squeeze '-' _

/-- The second normal form is final. -/
theorem familyChars_twice (cs : List Char) :
    familyChars (familyChars (familyChars cs)) = familyChars (familyChars cs) := by
  rw [familyChars_familyChars (familyChars cs), (apart_hyphens_twice cs).squeeze_eq_self]

theorem toList_family (name : String) : (family name).toList = familyChars name.toList := by
  simp [family]

/-- The normal form of a family name has no hyphens side by side, and is its own normal form, exactly if
the name has no hyphens with nothing but spaces between them.  The normal form of the normal form has
none in any case, and is its own. -/
theorem family_normal_iff (name : String) :
    (Apart '-' '-' (family name).toList ↔ ¬ HasSpacedHyphens name.toList) ∧
    (family (family name) = family name ↔ ¬ HasSpacedHyphens name.toList) ∧
    Apart '-' '-' (family (family name)).toList ∧
    family (family (family name)) = family (family name) := by
  refine ⟨?_, ?_, ?_, ?_⟩
  · rw [toList_family, apart_hyphens_familyChars]
  · rw [← familyChars_familyChars_eq_self_iff, ← String.toList_inj]
    simp only [toList_family]
  · simp only [toList_family]
    exact apart_hyphens_twice _
  · rw [← String.toList_inj]
    simp only [toList_family]
    exact familyChars_twice _

/-- Two hyphens with a space between them are drawn together, and a second pass makes them one. -/
theorem family_not_normal :
    family "Martin - - Durand" = "Martin--Durand" ∧
    ¬ Apart '-' '-' (family "Martin - - Durand").toList ∧
    family (family "Martin - - Durand") ≠ family "Martin - - Durand" := by
  refine ⟨?_, ?_, ?_⟩ <;> decide

end PersonName
end Lookalike
