import Lookalike.Proofs.FamilyNames

/-! # Separators of family names

Spaces and hyphens separate the letters of a family name; every other character counts as a letter.
The normal form has the letters of the trimmed name in order, and what it has between two of them is
told by what the name has between them alone: the three passes go through a letter without looking past
it, so a text cut at a letter is normalized in two parts.

Main statement: `family_closes`. -/

namespace Lookalike.PersonName

/-! ### Letters -/

/-- Spaces and hyphens. -/
def isSeparator (c : Char) : Bool := c == ' ' || c == '-'

/-- The characters of a text that are no separators, in order. -/
def letters (cs : List Char) : List Char := cs.filter fun c => !isSeparator c

/-- Two letters of a text that have separators between them and nothing else. -/
structure Between (cs before : List Char) (x : Char) (gap : List Char) (y : Char)
    (after : List Char) : Prop where
  text : cs = before ++ x :: (gap ++ y :: after)
  left : isSeparator x = false
  right : isSeparator y = false
  gap : ∀ c ∈ gap, isSeparator c = true

/-- What comes of the separators between two letters: nothing of nothing, one space of spaces, and of
any others one hyphen for each run of hyphens among them. -/
structure ClosesTo (gap out : List Char) : Prop where
  adjacent : gap = [] → out = []
  spaced : gap ≠ [] → (∀ c ∈ gap, c = ' ') → out = [' ']
  hyphenated : '-' ∈ gap → out ≠ [] ∧ out = List.replicate (wordChars gap).length '-'

section Letters

variable {c x : Char} {cs : List Char}

theorem isSeparator_iff : isSeparator c = true ↔ c = ' ' ∨ c = '-' := by
  simp [isSeparator]

theorem isSeparator_eq_false_iff : isSeparator c = false ↔ c ≠ ' ' ∧ c ≠ '-' := by
  simp [isSeparator]

theorem letters_cons (c : Char) (cs : List Char) :
    letters (c :: cs) = if isSeparator c = true then letters cs else c :: letters cs := by
  cases h : isSeparator c <;> simp [letters, h]

theorem letters_cons_of_separator (h : isSeparator c = true) : letters (c :: cs) = letters cs := by
  rw [letters_cons, if_pos h]

theorem letters_eq_nil_iff : letters cs = [] ↔ ∀ c ∈ cs, isSeparator c = true := by
  simp [letters]

theorem head?_append_cons_ne {b : Char} (hcs : cs.head? ≠ some b) (hx : x ≠ b) (after : List Char) :
    (cs ++ x :: after).head? ≠ some b := by
  cases cs with
  | nil => simpa using hx
  | cons a cs => simpa using hcs

end Letters

/-! ### Passes -/

section Passes

variable {c x : Char}

/-- Evening out runs of a character does not look past another one. -/
theorem squeeze_append_cons (h : x ≠ c) (before after : List Char) :
    squeeze c (before ++ x :: after) = squeeze c before ++ x :: squeeze c after := by
  induction before with
  | nil =>
      rw [List.nil_append, squeeze_cons, if_neg fun hrun => h hrun.1]
      rfl
  | cons b before ih =>
      rw [List.cons_append, squeeze_cons, squeeze_cons, ih]
      cases before with
      | nil => simp [h]
      | cons d before =>
          rw [List.cons_append, List.head?_cons, List.head?_cons]
          split_ifs <;> rfl

theorem closeHyphens_append_cons (h : isSeparator x = false) (before after : List Char) :
    closeHyphens (before ++ x :: after) = closeHyphens before ++ x :: closeHyphens after := by
  obtain ⟨hspace, hhyphen⟩ := isSeparator_eq_false_iff.mp h
  induction before using closeHyphens_induction with
  | nil =>
      rw [List.nil_append, closeHyphens_cons (fun hx => absurd hx hspace) fun hx => absurd hx hhyphen]
      rfl
  | before before ih =>
      rw [List.cons_append, List.cons_append, closeHyphens_before, closeHyphens_before]
      exact ih
  | after before ih =>
      rw [List.cons_append, List.cons_append, closeHyphens_after, closeHyphens_after, ih,
        List.cons_append]
  | other c before hbefore hafter ih =>
      rw [List.cons_append,
        closeHyphens_cons (fun hc => head?_append_cons_ne (hbefore hc) hhyphen after)
          fun hc => head?_append_cons_ne (hafter hc) hspace after,
        closeHyphens_cons hbefore hafter, ih, List.cons_append]

theorem letters_squeeze (h : isSeparator c = true) (cs : List Char) :
    letters (squeeze c cs) = letters cs := by
  induction cs with
  | nil => rfl
  | cons x cs ih =>
      rw [squeeze_cons]
      split_ifs with hrun
      · rw [ih, hrun.1, letters_cons_of_separator h]
      · rw [letters_cons, letters_cons, ih]

theorem letters_closeHyphens (cs : List Char) : letters (closeHyphens cs) = letters cs := by
  induction cs using closeHyphens_induction with
  | nil => rfl
  | before cs ih => rw [closeHyphens_before, ih, letters_cons_of_separator (c := ' ') rfl]
  | after cs ih =>
      rw [closeHyphens_after, letters_cons_of_separator rfl, letters_cons_of_separator rfl,
        letters_cons_of_separator rfl, ih]
  | other c cs hbefore hafter ih =>
      rw [closeHyphens_cons hbefore hafter, letters_cons, letters_cons, ih]

theorem count_hyphen_closeHyphens (cs : List Char) :
    (closeHyphens cs).count '-' = cs.count '-' := by
  induction cs using closeHyphens_induction with
  | nil => rfl
  | before cs ih =>
      have hspace : ' ' ≠ '-' := by decide
      rw [closeHyphens_before, ih, List.count_cons_of_ne hspace]
  | after cs ih =>
      have hspace : ' ' ≠ '-' := by decide
      rw [closeHyphens_after, List.count_cons_self, List.count_cons_self,
        List.count_cons_of_ne hspace, ih]
  | other c cs hbefore hafter ih =>
      rw [closeHyphens_cons hbefore hafter, List.count_cons, List.count_cons, ih]

theorem count_squeeze_of_ne {a : Char} (h : c ≠ a) (cs : List Char) :
    (squeeze c cs).count a = cs.count a := by
  induction cs with
  | nil => rfl
  | cons x cs ih =>
      rw [squeeze_cons]
      split_ifs with hrun
      · rw [ih, hrun.1, List.count_cons_of_ne h]
      · rw [List.count_cons, List.count_cons, ih]

end Passes

/-! ### Runs of hyphens -/

section Runs

variable {cs : List Char}

theorem wordChars_cons_space (cs : List Char) : wordChars (' ' :: cs) = wordChars cs := by
  simp [wordChars, List.splitOn_cons_eq_if_modifyHead]

/-- A hyphen starts a run unless it goes on one. -/
theorem length_wordChars_cons_hyphen (h : ∀ c ∈ cs, isSeparator c = true) :
    (wordChars ('-' :: cs)).length =
      (wordChars cs).length + if cs.head? = some '-' then 0 else 1 := by
  have hhyphen : ('-' == ' ') = false := rfl
  cases cs with
  | nil => rfl
  | cons c cs =>
      rcases isSeparator_iff.mp (h c List.mem_cons_self) with rfl | rfl
      · simp [wordChars, List.splitOn_cons_eq_if_modifyHead, hhyphen]
      · obtain ⟨first, rest, hsplit⟩ := List.exists_cons_of_ne_nil (List.splitOn_ne_nil ' ' cs)
        simp [wordChars, List.splitOn_cons_eq_if_modifyHead, hhyphen, hsplit]

/-- As many hyphens stay as there are runs of them between spaces. -/
theorem count_hyphen_squeeze (h : ∀ c ∈ cs, isSeparator c = true) :
    (squeeze '-' cs).count '-' = (wordChars cs).length := by
  have hspace : ' ' ≠ '-' := by decide
  induction cs with
  | nil => rfl
  | cons c cs ih =>
      obtain ⟨hc, hrest⟩ := List.forall_mem_cons.mp h
      rcases isSeparator_iff.mp hc with rfl | rfl
      · rw [squeeze_cons, if_neg fun hrun => absurd hrun.1 hspace, List.count_cons_of_ne hspace,
          ih hrest, wordChars_cons_space]
      · rw [squeeze_cons, length_wordChars_cons_hyphen hrest, ← ih hrest]
        split_ifs with hrun hhead hhead
        · rfl
        · exact absurd hrun.2 hhead
        · exact absurd ⟨rfl, hhead⟩ hrun
        · rw [List.count_cons_self]

/-- Separators with no space beside a hyphen are hyphens only as soon as one of them is. -/
theorem eq_hyphen_of_apart (hbefore : Apart ' ' '-' cs) (hafter : Apart '-' ' ' cs)
    (h : ∀ c ∈ cs, isSeparator c = true) (hsome : '-' ∈ cs) : ∀ c ∈ cs, c = '-' := by
  induction cs with
  | nil => exact absurd hsome List.not_mem_nil
  | cons c cs ih =>
      obtain ⟨hc, hrest⟩ := List.forall_mem_cons.mp h
      obtain ⟨hb, hbefore⟩ := apart_cons.mp hbefore
      obtain ⟨ha, hafter⟩ := apart_cons.mp hafter
      have ih := ih hbefore hafter hrest
      cases cs with
      | nil => simpa [eq_comm] using hsome
      | cons d cs =>
          rcases isSeparator_iff.mp hc with rfl | rfl
          · have hd : d = '-' := ih (by simpa using hsome) d List.mem_cons_self
            exact absurd (congrArg some hd) (hb rfl)
          · have hd : d = '-' :=
              (isSeparator_iff.mp (hrest d List.mem_cons_self)).resolve_left fun hd =>
                ha rfl (congrArg some hd)
            exact List.forall_mem_cons.mpr ⟨rfl, ih (hd ▸ List.mem_cons_self)⟩

theorem mem_squeeze {a c : Char} : a ∈ squeeze c cs ↔ a ∈ cs := by
  induction cs with
  | nil => rfl
  | cons x cs ih =>
      rw [squeeze_cons]
      split_ifs with hrun
      · have hnext : x ∈ cs := List.mem_of_mem_head? (hrun.1 ▸ hrun.2)
        rw [ih, List.mem_cons, or_iff_right_of_imp]
        rintro rfl
        exact hnext
      · rw [List.mem_cons, List.mem_cons, ih]

theorem squeeze_of_not_mem {c : Char} (h : c ∉ cs) : squeeze c cs = cs := by
  induction cs with
  | nil => rfl
  | cons x cs ih =>
      obtain ⟨hx, hrest⟩ := not_or.mp (mt List.mem_cons.mpr h)
      rw [squeeze_cons, if_neg fun hrun => hx hrun.1.symm, ih hrest]

theorem squeeze_replicate (c : Char) (n : ℕ) : squeeze c (List.replicate (n + 1) c) = [c] := by
  induction n with
  | zero => rfl
  | succ n ih =>
      rw [List.replicate_succ, squeeze_cons, if_pos ⟨rfl, rfl⟩, ih]

end Runs

/-! ### Texts cut at letters -/

section Closing

variable {x : Char} {cs : List Char}

/-- All passes over a text without blanks around it. -/
def closed (cs : List Char) : List Char := closeHyphens (squeeze ' ' (squeeze '-' cs))

theorem familyChars_eq_closed (cs : List Char) : familyChars cs = closed (Text.trimChars cs) := rfl

theorem letters_closed (cs : List Char) : letters (closed cs) = letters cs := by
  rw [closed, letters_closeHyphens, letters_squeeze rfl, letters_squeeze rfl]

theorem apart_closed (cs : List Char) :
    Apart ' ' ' ' (closed cs) ∧ Apart ' ' '-' (closed cs) ∧ Apart '-' ' ' (closed cs) :=
  apart_closeHyphens (apart_squeeze ' ' _)

theorem closed_append_cons (h : isSeparator x = false) (before after : List Char) :
    closed (before ++ x :: after) = closed before ++ x :: closed after := by
  obtain ⟨hspace, hhyphen⟩ := isSeparator_eq_false_iff.mp h
  rw [closed, squeeze_append_cons hhyphen, squeeze_append_cons hspace, closeHyphens_append_cons h]
  rfl

theorem count_hyphen_closed (h : ∀ c ∈ cs, isSeparator c = true) :
    (closed cs).count '-' = (wordChars cs).length := by
  have hspace : ' ' ≠ '-' := by decide
  rw [closed, count_hyphen_closeHyphens, count_squeeze_of_ne hspace, count_hyphen_squeeze h]

/-- The separators between two letters close to what the passes make of them alone. -/
theorem closesTo_closed {gap : List Char} (h : ∀ c ∈ gap, isSeparator c = true) :
    ClosesTo gap (closed gap) where
  adjacent := by
    rintro rfl
    rfl
  spaced := by
    intro hne hspaces
    have hhyphen : '-' ∉ gap := fun hmem => absurd (hspaces '-' hmem) (by decide)
    obtain ⟨n, hn⟩ := Nat.exists_eq_succ_of_ne_zero (mt List.length_eq_zero_iff.mp hne)
    have hgap := List.eq_replicate_of_mem hspaces
    rw [hn] at hgap
    rw [closed, squeeze_of_not_mem hhyphen, hgap, squeeze_replicate]
    rfl
  hyphenated := by
    intro hmem
    obtain ⟨-, hbefore, hafter⟩ := apart_closed gap
    have hseparators : ∀ c ∈ closed gap, isSeparator c = true := by
      rw [← letters_eq_nil_iff, letters_closed, letters_eq_nil_iff]
      exact h
    have hsome : '-' ∈ closed gap := by
      have hspace : ' ' ≠ '-' := by decide
      rw [← List.count_pos_iff, closed, count_hyphen_closeHyphens, count_squeeze_of_ne hspace,
        List.count_pos_iff, mem_squeeze]
      exact hmem
    have hall : ∀ c ∈ closed gap, c = '-' := eq_hyphen_of_apart hbefore hafter hseparators hsome
    have hlength : (closed gap).length = (wordChars gap).length := by
      rw [← count_hyphen_closed h, eq_comm, List.count_eq_length]
      exact fun c hc => (hall c hc).symm
    refine ⟨List.ne_nil_of_mem hsome, ?_⟩
    rw [← hlength]
    exact List.eq_replicate_of_mem hall

/-- Two letters with separators between them still have no letter between them afterwards. -/
theorem Between.closed {before gap after : List Char} {x y : Char}
    (h : Between cs before x gap y after) :
    Between (closed cs) (closed before) x (closed gap) y (closed after) where
  text := by
    rw [h.text, closed_append_cons h.left, closed_append_cons h.right]
  left := h.left
  right := h.right
  gap := by
    rw [← letters_eq_nil_iff, letters_closed, letters_eq_nil_iff]
    exact h.gap

end Closing

/-! ### Family names -/

/-- The normal form of a family name differs from the trimmed name in the separators only.  It has no
blanks around it, no spaces side by side and none beside a hyphen; it has the letters of the trimmed name
in order; and any two letters that follow each other in the trimmed name follow each other in the normal
form, with the separators between them closed. -/
theorem family_closes (name : String) :
    (∀ c ∈ (family name).toList.head?, Text.isSpace c = false) ∧
    (∀ c ∈ (family name).toList.getLast?, Text.isSpace c = false) ∧
    Apart ' ' ' ' (family name).toList ∧
    Apart ' ' '-' (family name).toList ∧
    Apart '-' ' ' (family name).toList ∧
    letters (family name).toList = letters (Text.trimChars name.toList) ∧
    ∀ before x gap y after, Between (Text.trimChars name.toList) before x gap y after →
      ∃ before' gap' after', Between (family name).toList before' x gap' y after' ∧
        letters before' = letters before ∧ letters after' = letters after ∧ ClosesTo gap gap' := by
  obtain ⟨hspaces, hbefore, hafter⟩ := apart_closed (Text.trimChars name.toList)
  rw [toList_family, familyChars_eq_closed]
  refine ⟨?first, ?last, hspaces, hbefore, hafter, letters_closed _, ?between⟩
  case first =>
    rw [← familyChars_eq_closed, ← trimChars_familyChars]
    exact Text.not_isSpace_head?_trimChars _
  case last =>
    rw [← familyChars_eq_closed, ← trimChars_familyChars]
    exact Text.not_isSpace_getLast?_trimChars _
  case between =>
    intro before x gap y after h
    exact ⟨closed before, closed gap, closed after, h.closed, letters_closed before,
      letters_closed after, closesTo_closed h.gap⟩

/-- Three runs of hyphens with spaces around them become three hyphens. -/
theorem family_closes_annMarie :
    Between (Text.trimChars " Ann -- - -Marie".toList) "An".toList 'n' " -- - -".toList 'M'
      "arie".toList ∧
    ∃ before' gap' after', Between (family " Ann -- - -Marie").toList before' 'n' gap' 'M' after' ∧
      letters before' = letters "An".toList ∧ letters after' = letters "arie".toList ∧
      ClosesTo " -- - -".toList gap' := by
  have h : Between (Text.trimChars " Ann -- - -Marie".toList) "An".toList 'n' " -- - -".toList 'M'
      "arie".toList := ⟨by decide, rfl, rfl, letters_eq_nil_iff.mp rfl⟩
  obtain ⟨-, -, -, -, -, -, hbetween⟩ := family_closes " Ann -- - -Marie"
  exact ⟨h, hbetween _ _ _ _ _ h⟩

end Lookalike.PersonName
