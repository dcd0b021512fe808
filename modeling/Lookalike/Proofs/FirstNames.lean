import Lookalike.Proofs.Separators
import Lookalike.Synthesis

/-! # Words of first names

Small letters know nothing beyond a space: what a capital sigma becomes is told by cased characters in
its own word, and no character becomes a space.  So a text may be cut at its spaces before it is written
small (`lowercaseChars_intercalate`).  A text without spaces at its ends has single spaces between its
words once runs are evened out (`squeeze_eq_intercalate`), so the normal form of a first name is its
words, each written small by itself, with single spaces between them.

Main statement: `first_keeps_words`. -/

namespace Lookalike

/-! ### Small letters between spaces -/

namespace Text

section Small

variable {c : Char} {cs : List Char}

theorem small_ne_space {run : CaseRun} (hrun : run ∈ smallLetters) {n : Nat}
    (hn : run.holds n = true) : run.small n ≠ 32 := by
  have htable : ∀ r ∈ smallLetters,
      ¬((r.first : Int) ≤ 32 - r.shift ∧ 32 - r.shift ≤ (r.last : Int)) := by
    decide +kernel
  have hnone := htable run hrun
  simp only [CaseRun.holds, Bool.and_eq_true, decide_eq_true_eq] at hn
  unfold CaseRun.small
  omega

theorem ofNat_ne_space {n : Nat} (h : n ≠ 32) : Char.ofNat n ≠ ' ' := by
  by_cases hvalid : n.isValidChar
  · have hnumber : (Char.ofNat n).toNat = n := by
      unfold Char.ofNat
      rw [dif_pos hvalid]
      rfl
    intro hspace
    rw [hspace] at hnumber
    exact h hnumber.symm
  · unfold Char.ofNat
    rw [dif_neg hvalid]
    decide

theorem space_mem_lowerChar (h : ' ' ∈ lowerChar c) : c = ' ' := by
  unfold lowerChar at h
  split_ifs at h with hascii hdotted
  · have hlower := toNat_toLower c
    rw [← List.mem_singleton.mp h] at hlower
    have hspace : (' ' : Char).toNat = 32 := rfl
    rw [← Char.toNat_inj, hspace]
    split_ifs at hlower <;> omega
  · simp at h
  · split at h
    case h_1 run hrun =>
      have hholds : run.holds c.toNat = true := by
        simpa using List.find?_some hrun
      have hsmall := small_ne_space (List.mem_of_find?_eq_some hrun) hholds
      exact absurd (List.mem_singleton.mp h).symm (ofNat_ne_space hsmall)
    case h_2 => exact (List.mem_singleton.mp h).symm

theorem space_mem_lowerAt {before after : List Char} (h : ' ' ∈ lowerAt before c after) :
    c = ' ' := by
  unfold lowerAt at h
  split_ifs at h
  · simp at h
  · simp at h
  · exact space_mem_lowerChar h

theorem space_mem_lowerAfter {before : List Char} (h : ' ' ∈ lowerAfter before cs) : ' ' ∈ cs := by
  induction cs generalizing before with
  | nil => exact h
  | cons c cs ih =>
      rw [lowerAfter] at h
      rcases List.mem_append.mp h with h | h
      · simp [space_mem_lowerAt h]
      · exact List.mem_cons_of_mem c (ih h)

/-- Looking for a cased character ends at a space. -/
theorem startsCased_append_space (cs rest : List Char) :
    startsCased (cs ++ ' ' :: rest) = startsCased cs := by
  induction cs with
  | nil => simp [startsCased, not_isCaseIgnorable_space, not_isCased_space]
  | cons c cs ih =>
      unfold startsCased at ih ⊢
      cases hc : isCaseIgnorable c with
      | true => simpa [hc] using ih
      | false => simp [hc]

/-- What stands behind a space is of no account for what stands before it. -/
theorem lowerAt_append_space (before : List Char) (c : Char) (cs rest : List Char) :
    lowerAt before c (cs ++ ' ' :: rest) = lowerAt before c cs := by
  unfold lowerAt
  rw [startsCased_append_space]

/-- What stands before a space is of no account for what stands behind it. -/
theorem lowerAfter_append_space (before rest cs : List Char) :
    lowerAfter (before ++ ' ' :: rest) cs = lowerAfter before cs := by
  induction cs generalizing before with
  | nil => rfl
  | cons c cs ih =>
      have hat : lowerAt (before ++ ' ' :: rest) c cs = lowerAt before c cs := by
        unfold lowerAt
        rw [startsCased_append_space]
      have hrest : lowerAfter (c :: (before ++ ' ' :: rest)) cs = lowerAfter (c :: before) cs :=
        ih (c :: before)
      rw [lowerAfter, lowerAfter, hat, hrest]

theorem lowercaseChars_append_space (cs rest : List Char) :
    lowercaseChars (cs ++ ' ' :: rest) = lowercaseChars cs ++ ' ' :: lowercaseChars rest := by
  suffices h : ∀ before : List Char, lowerAfter before (cs ++ ' ' :: rest) =
      lowerAfter before cs ++ ' ' :: lowerAfter [] rest from h []
  induction cs with
  | nil =>
      intro before
      have hspace : lowerAt before ' ' rest = [' '] := by
        have hsigma : ' ' ≠ '\u03A3' := by decide
        rw [lowerAt, if_neg hsigma, lowerChar_space]
      have hrest : lowerAfter (' ' :: before) rest = lowerAfter [] rest :=
        lowerAfter_append_space [] before rest
      show lowerAt before ' ' rest ++ lowerAfter (' ' :: before) rest = ' ' :: lowerAfter [] rest
      rw [hspace, hrest, List.singleton_append]
  | cons c cs ih =>
      intro before
      rw [List.cons_append, lowerAfter, lowerAt_append_space, ih, lowerAfter, List.append_assoc]

theorem lowercaseChars_intercalate (ws : List (List Char)) :
    lowercaseChars ([' '].intercalate ws) = [' '].intercalate (ws.map lowercaseChars) := by
  induction ws with
  | nil => rfl
  | cons w ws ih =>
      cases ws with
      | nil => simp
      | cons v ws =>
          have hcut : [' '].intercalate (w :: v :: ws) = w ++ ' ' :: [' '].intercalate (v :: ws) := by
            simp
          rw [hcut, lowercaseChars_append_space, ih]
          simp

end Small

end Text

namespace PersonName

/-! ### Texts cut at spaces -/

section Cut

variable {cs w : List Char}

/-- A text holds no space, or it is such a text, a space and the rest. -/
theorem spaces_induction {P : List Char → Prop} (word : ∀ w, ' ' ∉ w → P w)
    (space : ∀ w rest, ' ' ∉ w → P rest → P (w ++ ' ' :: rest)) (cs : List Char) : P cs := by
  by_cases h : ' ' ∈ cs
  · obtain ⟨w, rest, hcs, hw⟩ := List.eq_append_cons_of_mem h
    have hshort : rest.length < cs.length := by
      rw [hcs, List.length_append, List.length_cons]
      omega
    rw [hcs]
    exact space w rest hw (spaces_induction word space rest)
  · exact word cs h
termination_by cs.length

theorem wordChars_append_space (cs rest : List Char) :
    wordChars (cs ++ ' ' :: rest) = wordChars cs ++ wordChars rest := by
  have hsplit : (cs ++ ' ' :: rest).splitOn ' ' = cs.splitOn ' ' ++ rest.splitOn ' ' :=
    List.splitOnP_append_cons cs rest (beq_self_eq_true ' ')
  unfold wordChars
  rw [hsplit, List.filter_append]

theorem wordChars_of_not_mem (h : ' ' ∉ w) (hne : w ≠ []) : wordChars w = [w] := by
  unfold wordChars
  rw [List.splitOn_eq_singleton h]
  simp [hne]

/-- Words with single spaces between them are found again. -/
theorem wordChars_intercalate {ws : List (List Char)} (hne : ∀ w ∈ ws, w ≠ [])
    (hspace : ∀ w ∈ ws, ' ' ∉ w) : wordChars ([' '].intercalate ws) = ws := by
  cases ws with
  | nil => rfl
  | cons w ws =>
      unfold wordChars
      rw [List.splitOn_intercalate ' ' hspace (List.cons_ne_nil w ws), List.filter_eq_self]
      intro v hv
      simpa using hne v hv

theorem squeeze_append_of_not_mem {c : Char} (h : c ∉ w) (cs : List Char) :
    squeeze c (w ++ cs) = w ++ squeeze c cs := by
  induction w with
  | nil => rfl
  | cons x w ih =>
      obtain ⟨hx, hw⟩ := not_or.mp (mt List.mem_cons.mpr h)
      rw [List.cons_append, squeeze_cons, if_neg fun hrun => hx hrun.1.symm, ih hw, List.cons_append]

theorem ne_nil_of_getLast?_append {rest : List Char}
    (h : (cs ++ ' ' :: rest).getLast? ≠ some ' ') : rest ≠ [] := by
  rintro rfl
  simp at h

theorem wordChars_ne_nil (hlast : cs.getLast? ≠ some ' ') (hne : cs ≠ []) : wordChars cs ≠ [] := by
  induction cs using spaces_induction with
  | word w hw =>
      rw [wordChars_of_not_mem hw hne]
      exact List.cons_ne_nil w []
  | space w rest hw ih =>
      have hrest := ne_nil_of_getLast?_append hlast
      have hend : rest.getLast? ≠ some ' ' := by
        obtain ⟨c, rest, rfl⟩ := List.exists_cons_of_ne_nil hrest
        simpa using hlast
      rw [wordChars_append_space]
      exact List.append_ne_nil_of_right_ne_nil _ (ih hend hrest)

/-- Behind a space, a text that does not end with one is evened out to its words with single spaces
between them. -/
theorem squeeze_cons_space (hlast : cs.getLast? ≠ some ' ') (hne : cs ≠ []) :
    squeeze ' ' (' ' :: cs) = ' ' :: [' '].intercalate (wordChars cs) := by
  induction cs using spaces_induction with
  | word w hw =>
      have hhead : w.head? ≠ some ' ' := fun h => hw (List.mem_of_mem_head? h)
      rw [squeeze_cons, if_neg fun hrun => hhead hrun.2, squeeze_of_not_mem hw,
        wordChars_of_not_mem hw hne, List.intercalate_singleton]
  | space w rest hw ih =>
      have hrest := ne_nil_of_getLast?_append hlast
      have hend : rest.getLast? ≠ some ' ' := by
        obtain ⟨c, rest, rfl⟩ := List.exists_cons_of_ne_nil hrest
        simpa using hlast
      have ih := ih hend hrest
      cases w with
      | nil =>
          rw [List.nil_append, squeeze_cons, if_pos ⟨rfl, rfl⟩, ih, wordChars_cons_space]
      | cons c w =>
          have hc : c ≠ ' ' := fun hc => hw (hc ▸ List.mem_cons_self)
          have hwords : wordChars (c :: w ++ ' ' :: rest) = (c :: w) :: wordChars rest := by
            rw [wordChars_append_space, wordChars_of_not_mem hw (List.cons_ne_nil c w),
              List.singleton_append]
          rw [squeeze_cons, if_neg fun hrun => hc (Option.some.inj hrun.2),
            squeeze_append_of_not_mem hw, ih, hwords,
            List.intercalate_cons_of_ne_nil (wordChars_ne_nil hend hrest), List.append_assoc,
            List.singleton_append]

/-- A text without spaces at its ends is evened out to its words with single spaces between them. -/
theorem squeeze_eq_intercalate (hfirst : cs.head? ≠ some ' ') (hlast : cs.getLast? ≠ some ' ') :
    squeeze ' ' cs = [' '].intercalate (wordChars cs) := by
  by_cases hne : cs = []
  · rw [hne]
    rfl
  · have hspace := squeeze_cons_space hlast hne
    rw [squeeze_cons, if_neg fun hrun => hfirst hrun.2] at hspace
    exact List.tail_eq_of_cons_eq hspace

end Cut

/-! ### First names -/

/-- The pieces of a name between spaces, of which the empty ones and the blanks around the name are left
out. -/
def pieces (name : String) : List (List Char) :=
  ((Text.trim name).toList.splitOn ' ').filter fun piece => decide (piece ≠ [])

section First

theorem wordChars_trimChars (name : String) : wordChars (Text.trimChars name.toList) = pieces name := by
  unfold wordChars pieces
  rw [Text.toList_trim]
  apply List.filter_congr
  intro piece _
  cases piece <;> rfl

theorem firstChars_eq (name : String) :
    firstChars name.toList = [' '].intercalate ((pieces name).map Text.lowercaseChars) := by
  have hfirst : (Text.trimChars name.toList).head? ≠ some ' ' := by
    intro h
    have := Text.not_isSpace_head?_trimChars name.toList ' ' h
    simp [Text.isSpace] at this
  have hlast : (Text.trimChars name.toList).getLast? ≠ some ' ' := by
    intro h
    have := Text.not_isSpace_getLast?_trimChars name.toList ' ' h
    simp [Text.isSpace] at this
  unfold firstChars
  rw [squeeze_eq_intercalate hfirst hlast, wordChars_trimChars, Text.lowercaseChars_intercalate]

theorem mem_pieces {name : String} {piece : List Char} (h : piece ∈ pieces name) :
    piece ≠ [] ∧ ' ' ∉ piece := by
  obtain ⟨hmem, hne⟩ := List.mem_filter.mp h
  exact ⟨by simpa using hne, not_mem_of_mem_splitOn hmem⟩

theorem wordChars_firstChars (name : String) :
    wordChars (firstChars name.toList) = (pieces name).map Text.lowercaseChars := by
  rw [firstChars_eq]
  apply wordChars_intercalate
  · intro word hword
    obtain ⟨piece, hpiece, rfl⟩ := List.mem_map.mp hword
    exact mt Text.lowercaseChars_eq_nil_iff.mp (mem_pieces hpiece).1
  · intro word hword
    obtain ⟨piece, hpiece, rfl⟩ := List.mem_map.mp hword
    exact fun hspace => (mem_pieces hpiece).2 (Text.space_mem_lowerAfter hspace)

theorem words_first (name : String) :
    words (first name) = (pieces name).map fun piece => Text.lowercase (String.ofList piece) := by
  unfold words first
  rw [String.toList_ofList, wordChars_firstChars, List.map_map]
  apply List.map_congr_left
  intro piece _
  rw [Function.comp_apply, Text.lowercase, String.toList_ofList]

theorem intercalate_words_first (name : String) : " ".intercalate (words (first name)) = first name := by
  have hlists : (words (first name)).map String.toList = (pieces name).map Text.lowercaseChars := by
    unfold words first
    rw [String.toList_ofList, wordChars_firstChars]
    simp
  have hspace : " ".toList = [' '] := rfl
  apply String.ext
  rw [String.toList_intercalate, hlists, hspace, ← firstChars_eq]
  unfold first
  rw [String.toList_ofList]

end First

end PersonName

/-! ### Near matches of first names -/

/-- A clause is that of the one field, or the alternative of the clauses of any other number of fields, in
their order. -/
inductive JoinsFields (clauseOf : String → Clause) : List String → Clause → Prop
  | one (field : String) : JoinsFields clauseOf [field] (clauseOf field)
  | several {fields : List String} (h : fields.length ≠ 1) :
      JoinsFields clauseOf fields (.anyOf (fields.map clauseOf))

/-- A clause matches a value nearly in one field, or over any other number of them together. -/
inductive MatchesNearly (value : String) (fuzziness : UInt8) : List String → Clause → Prop
  | one (field : String) : MatchesNearly value fuzziness [field] (.fuzzyMatch field value fuzziness)
  | several {fields : List String} (h : fields.length ≠ 1) :
      MatchesNearly value fuzziness fields (.multiFieldMatch fields value (.fuzzy fuzziness))

namespace SynthesisOptions

variable (options : SynthesisOptions) {a : ObservedAttribute}

theorem matchesNearly_matching (fields : List String) (value : String) (fuzziness : UInt8) :
    MatchesNearly value fuzziness fields (.matching fields value (.fuzzy fuzziness)) := by
  match fields with
  | [] => exact .several (by simp)
  | [field] => exact .one field
  | field :: other :: rest => exact .several (by simp)

theorem nearFirstName_of_lt (h : (PersonName.words (PersonName.first a.value)).length < 2) :
    options.nearFirstName a =
      .matching a.outputKeys (PersonName.first a.value) (.fuzzy options.fuzziness) := by
  unfold nearFirstName
  dsimp only
  rw [if_pos h]
  rfl

theorem joinsFields_nearFirstName
    (h : 2 ≤ (PersonName.words (PersonName.first a.value)).length) :
    JoinsFields (fun field => .proximityMatch field (PersonName.words (PersonName.first a.value))
        (.ofNat ((PersonName.words (PersonName.first a.value)).length - 1)) options.fuzziness)
      a.outputKeys (options.nearFirstName a) := by
  unfold nearFirstName
  dsimp only
  rw [if_neg (Nat.not_lt.mpr h)]
  match a.outputKeys with
  | [] => exact .several (by simp)
  | [field] => exact .one field
  | field :: other :: rest => exact .several (by simp)

end SynthesisOptions

/-- The words of a first name in normal form are the pieces of the name between spaces, each written small
by itself, and with single spaces between them they are the normal form again.  A near match of the name
asks for these words in their order, in one span for each field, if there are several, and for the normal
form nearly otherwise. -/
theorem first_keeps_words (name : String) :
    " ".intercalate (PersonName.words (PersonName.first name)) = PersonName.first name ∧
    PersonName.words (PersonName.first name) =
      (PersonName.pieces name).map (fun piece => Text.lowercase (String.ofList piece)) ∧
    ∀ (options : SynthesisOptions) (w : WorkingAttribute), w.observed.value = name →
      w.observed.kind = .firstName → w.treatment = .approximated →
      (PersonName.words (PersonName.first name)).length < UInt32.size →
      (2 ≤ (PersonName.pieces name).length →
        ∃ slop : UInt32, slop.toNat = (PersonName.pieces name).length - 1 ∧
          JoinsFields (fun field => .proximityMatch field
              (PersonName.words (PersonName.first name)) slop options.fuzziness)
            w.observed.outputKeys (options.attributeClause w)) ∧
      ((PersonName.pieces name).length < 2 →
        MatchesNearly (PersonName.first name) options.fuzziness w.observed.outputKeys
          (options.attributeClause w)) := by
  refine ⟨PersonName.intercalate_words_first name, PersonName.words_first name, ?_⟩
  intro options w hname hkind htreatment hfits
  subst hname
  have hlength : (PersonName.words (PersonName.first w.observed.value)).length =
      (PersonName.pieces w.observed.value).length := by
    rw [PersonName.words_first, List.length_map]
  have hclause : options.attributeClause w = options.nearFirstName w.observed := by
    simp [SynthesisOptions.attributeClause, SynthesisOptions.firstNameClause, hkind, htreatment]
  rw [hclause, ← hlength]
  constructor
  · intro hseveral
    refine ⟨.ofNat ((PersonName.words (PersonName.first w.observed.value)).length - 1), ?_,
      options.joinsFields_nearFirstName hseveral⟩
    exact UInt32.toNat_ofNat_of_lt' (lt_of_le_of_lt (Nat.sub_le _ 1) hfits)
  · intro hfew
    rw [options.nearFirstName_of_lt hfew]
    exact SynthesisOptions.matchesNearly_matching _ _ _

/-- Two Greek names in one field and another, each with the sigma of its last letter. -/
def nikosSofos : WorkingAttribute :=
  ⟨⟨"givenNames", "\tΝΙΚΟΣ  ΣΟΦΟΣ ", .strict, ["firstName", "usageName"], .firstName⟩, .approximated⟩

theorem first_keeps_words_nikosSofos :
    nikosSofos.observed.kind = .firstName ∧ nikosSofos.treatment = .approximated ∧
    PersonName.words (PersonName.first nikosSofos.observed.value) = ["νικος", "σοφος"] ∧
    ∃ slop : UInt32, slop.toNat = 1 ∧
      JoinsFields (fun field => .proximityMatch field ["νικος", "σοφος"] slop 1)
        ["firstName", "usageName"]
        ((SynthesisOptions.ofMatching {}).attributeClause nikosSofos) := by
  have hwords : PersonName.words (PersonName.first nikosSofos.observed.value) =
      ["νικος", "σοφος"] := by decide +kernel
  have hpieces : (PersonName.pieces nikosSofos.observed.value).length = 2 := by decide +kernel
  obtain ⟨-, -, hclause⟩ := first_keeps_words nikosSofos.observed.value
  obtain ⟨hspan, -⟩ := hclause (.ofMatching {}) nikosSofos rfl rfl rfl (by rw [hwords]; decide)
  obtain ⟨slop, hslop, hjoins⟩ := hspan (by rw [hpieces])
  rw [hpieces] at hslop
  rw [hwords] at hjoins
  exact ⟨rfl, rfl, hwords, slop, hslop, hjoins⟩

end Lookalike
