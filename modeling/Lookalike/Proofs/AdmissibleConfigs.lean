import Mathlib.Data.List.TakeWhile
import Lookalike.Proofs.ValidConfig
import Lookalike.Proofs.Vocabulary

/-! # Configurations that may be used

`Admissible` says of the parts of a configuration what may be written in them, in terms of their texts
and numbers and without reference to a check: a text that must not be blank holds something other than
white space, and a word is one of the listed ones in letters of either case, with white space around it
(`Text.Spells`).

Main statement: `Config.validate_accepts_iff`. -/

namespace Lookalike

/-! ### Texts -/

namespace Text

/-- A text holds something other than white space. -/
def Says (s : String) : Prop := ∃ c ∈ s.toList, isSpace c = false

/-- Two characters are the same up to the case of the letters `A` to `Z`. -/
def SameLetter (a b : Char) : Prop := a.toLower = b.toLower

/-- A text is a word in letters of either case, with or without white space around it. -/
def Spells (s word : String) : Prop :=
  ∃ before core after : List Char, s.toList = before ++ core ++ after ∧
    (∀ c ∈ before, isSpace c = true) ∧ (∀ c ∈ after, isSpace c = true) ∧
    List.Forall₂ SameLetter core word.toList

theorem not_isBlank_iff {s : String} : isBlank s = false ↔ Says s := by
  unfold isBlank Says
  rw [List.all_eq_false]
  simp

theorem forall₂_sameLetter_iff {as bs : List Char} :
    List.Forall₂ SameLetter as bs ↔ as.map Char.toLower = bs.map Char.toLower := by
  rw [← List.forall₂_eq_eq_eq, List.forall₂_map_left_iff, List.forall₂_map_right_iff]
  rfl

/-- What is trimmed away is white space before and after the rest. -/
theorem exists_trimChars (cs : List Char) :
    ∃ before after, cs = before ++ trimChars cs ++ after ∧
      (∀ c ∈ before, isSpace c = true) ∧ ∀ c ∈ after, isSpace c = true := by
  have hfront : cs.takeWhile isSpace ++ cs.dropWhile isSpace = cs :=
    List.takeWhile_append_dropWhile
  have hend : trimChars cs ++ ((cs.dropWhile isSpace).reverse.takeWhile isSpace).reverse =
      cs.dropWhile isSpace := by
    unfold trimChars dropEnd
    rw [← List.reverse_append, List.takeWhile_append_dropWhile, List.reverse_reverse]
  refine ⟨cs.takeWhile isSpace, ((cs.dropWhile isSpace).reverse.takeWhile isSpace).reverse,
    ?_, ?_, ?_⟩
  · rw [List.append_assoc, hend, hfront]
  · exact fun c hc => List.mem_takeWhile_imp hc
  · exact fun c hc => List.mem_takeWhile_imp (List.mem_reverse.mp hc)

/-- White space around a text without any at its ends is trimmed away. -/
theorem trimChars_append {before core after : List Char} (hbefore : ∀ c ∈ before, isSpace c = true)
    (hafter : ∀ c ∈ after, isSpace c = true) (hcore : ∀ c ∈ core, isSpace c = false) :
    trimChars (before ++ core ++ after) = core := by
  have hreverse : ∀ c ∈ after.reverse, isSpace c = true :=
    fun c hc => hafter c (List.mem_reverse.mp hc)
  have hlast : ∀ c ∈ core.reverse.head?, isSpace c = false :=
    fun c hc => hcore c (List.mem_reverse.mp (List.mem_of_mem_head? hc))
  unfold trimChars dropEnd
  rw [List.append_assoc, List.dropWhile_append_of_pos hbefore]
  cases core with
  | nil =>
      rw [List.nil_append, List.dropWhile_eq_nil_iff.mpr hafter]
      rfl
  | cons c core =>
      have hfirst : ∀ d ∈ (c :: core ++ after).head?, isSpace d = false := by
        simpa using hcore c List.mem_cons_self
      rw [dropWhile_of_head? hfirst, List.reverse_append,
        List.dropWhile_append_of_pos hreverse, dropWhile_of_head? hlast, List.reverse_reverse]

/-- A text spells a word that holds no white space exactly if, trimmed, it is the same word. -/
theorem sameWord_trim_iff_spells {s word : String} (hword : ∀ c ∈ word.toList, isSpace c = false) :
    sameWord word (trim s) = true ↔ Spells s word := by
  have hlower : sameWord word (trim s) = true ↔
      (trimChars s.toList).map Char.toLower = word.toList.map Char.toLower := by
    rw [sameWord_iff, ← String.toList_inj, toList_lowerAscii, toList_lowerAscii, toList_trim, eq_comm]
  rw [hlower]
  constructor
  · intro h
    obtain ⟨before, after, hs, hbefore, hafter⟩ := exists_trimChars s.toList
    exact ⟨before, trimChars s.toList, after, hs, hbefore, hafter, forall₂_sameLetter_iff.mpr h⟩
  · rintro ⟨before, core, after, hs, hbefore, hafter, hsame⟩
    have hsame := forall₂_sameLetter_iff.mp hsame
    have hcore : ∀ c ∈ core, isSpace c = false := by
      intro c hc
      have hmem : c.toLower ∈ word.toList.map Char.toLower := hsame ▸ List.mem_map_of_mem hc
      obtain ⟨d, hd, hletter⟩ := List.mem_map.mp hmem
      rw [← isSpace_toLower, ← hletter, isSpace_toLower]
      exact hword d hd
    rw [hs, trimChars_append hbefore hafter hcore]
    exact hsame

end Text

/-! ### What may be written -/

/-- A text is one of some words, up to white space around it and the case of letters. -/
def IsAmong (words : List String) (s : String) : Prop := ∃ word ∈ words, Text.Spells s word

/-- Settings of an engine that can be addressed. -/
structure EngineSettings.Admissible (s : EngineSettings) : Prop where
  url : Text.Says s.url
  index : Text.Says s.index
  connectTimeout : 0 < s.connectTimeoutMs
  timeout : 0 < s.timeoutMs
  headers : ∀ header ∈ s.defaultHeaders, ∃ text, header.2 = .string text

/-- Settings by which matching can run. -/
structure Matching.Admissible (m : Matching) : Prop where
  pageSize : 0 < m.pageSize
  maxParallelRules : 0 < m.maxParallelRules
  failureMode : IsAmong ["strict", "lenient"] m.failureMode
  identityKeyField : Text.Says m.identityKeyField
  connectionIdField : Text.Says m.connectionIdField
  loginField : Text.Says m.loginField

/-- An attribute that identities may have. -/
structure AttributeConfig.Admissible (a : AttributeConfig) : Prop where
  key : Text.Says a.key
  some_outputKey : a.outputKeys ≠ []
  outputKeys : ∀ field ∈ a.outputKeys, Text.Says field
  kind : IsAmong ["plain", "family_name", "first_name"] a.kind
  defaultTreatment : IsAmong ["strict", "approximated", "different", "absent"] a.defaultTreatment

/-- An attribute that a rule may name; a treatment need not be given. -/
structure RuleAttributeConfig.Admissible (a : RuleAttributeConfig) : Prop where
  key : Text.Says a.key
  treatment : ∀ word, a.treatment = some word →
    IsAmong ["strict", "approximated", "different", "absent"] word

/-- A treatment group that a rule may have. -/
structure TreatmentGroupConfig.Admissible (g : TreatmentGroupConfig) : Prop where
  name : Text.Says g.name
  some_attribute : g.attributes ≠ []
  attributes : ∀ a ∈ g.attributes, a.Admissible

/-- A rule that may be configured. -/
structure RuleConfig.Admissible (r : RuleConfig) : Prop where
  code : Text.Says r.code
  distinct : r.checkedAttributes.Pairwise fun a b => a.key ≠ b.key
  checkedAttributes : ∀ a ∈ r.checkedAttributes, a.Admissible
  equal_le_filled : r.nbEqualAttributes ≤ r.nbFilledAttributes
  filled_le_checked : r.nbFilledAttributes ≤ r.checkedAttributes.length
  treatmentGroups : ∀ g ∈ r.treatmentGroups, g.Admissible

/-- A configuration that may be used. -/
structure Config.Admissible (c : Config) : Prop where
  backend : c.backend.Admissible
  matching : c.matching.Admissible
  attributes : ∀ a ∈ c.attributes, a.Admissible
  attributes_distinct : c.attributes.Pairwise fun a b => a.key ≠ b.key
  rules : ∀ r ∈ c.rules, r.Admissible
  rules_distinct : c.rules.Pairwise fun r q => r.code ≠ q.code

/-! ### What the checks accept -/

theorem isKnownWord_iff_isAmong {known : List String}
    (hknown : ∀ word ∈ known, (word.toList.any Text.isSpace) = false) {s : String} :
    isKnownWord known s = true ↔ IsAmong known s := by
  have hletters (word : String) (hword : word ∈ known) : ∀ c ∈ word.toList, Text.isSpace c = false :=
    fun c hc => by simpa using List.any_eq_false.mp (hknown word hword) c hc
  unfold isKnownWord IsAmong
  rw [List.any_eq_true]
  constructor
  · rintro ⟨word, hword, hsame⟩
    exact ⟨word, hword, (Text.sameWord_trim_iff_spells (hletters word hword)).mp hsame⟩
  · rintro ⟨word, hword, hspells⟩
    exact ⟨word, hword, (Text.sameWord_trim_iff_spells (hletters word hword)).mpr hspells⟩

theorem isKnownWord_treatment_iff {s : String} : isKnownWord treatmentWords s = true ↔
    IsAmong ["strict", "approximated", "different", "absent"] s :=
  isKnownWord_iff_isAmong (by decide)

theorem isKnownWord_kind_iff {s : String} : isKnownWord fieldKindWords s = true ↔
    IsAmong ["plain", "family_name", "first_name"] s :=
  isKnownWord_iff_isAmong (by decide)

theorem isKnownWord_mode_iff {s : String} : isKnownWord failureModeWords s = true ↔
    IsAmong ["strict", "lenient"] s :=
  isKnownWord_iff_isAmong (by decide)

theorem EngineSettings.validate_eq_ok_iff {s : EngineSettings} :
    s.validate = .ok () ↔ s.Admissible := by
  have hheaders : (s.defaultHeaders.all fun header => header.2.string?.isSome) = true ↔
      ∀ header ∈ s.defaultHeaders, ∃ text, header.2 = .string text := by
    simp [Option.isSome_iff_exists, Json.string?_eq_some_iff]
  simp only [EngineSettings.validate, check_bind_eq_ok_iff, demandText_eq_ok_iff, demand_eq_ok_iff,
    Text.not_isBlank_iff, bne_iff_ne, hheaders, ← UInt64.pos_iff_ne_zero]
  constructor
  · rintro ⟨hurl, hindex, hconnect, htimeout, hheaders⟩
    exact ⟨hurl, hindex, hconnect, htimeout, hheaders⟩
  · rintro ⟨hurl, hindex, hconnect, htimeout, hheaders⟩
    exact ⟨hurl, hindex, hconnect, htimeout, hheaders⟩

theorem Matching.validate_eq_ok_iff {m : Matching} : m.validate = .ok () ↔ m.Admissible := by
  simp only [Matching.validate, check_bind_eq_ok_iff, demandText_eq_ok_iff, demand_eq_ok_iff,
    demandWord_eq_ok_iff, Text.not_isBlank_iff, bne_iff_ne, isKnownWord_mode_iff,
    ← UInt32.pos_iff_ne_zero, ← UInt64.pos_iff_ne_zero]
  constructor
  · rintro ⟨hpage, hparallel, hmode, hidentity, hconnection, hlogin⟩
    exact ⟨hpage, hparallel, hmode, hidentity, hconnection, hlogin⟩
  · rintro ⟨hpage, hparallel, hmode, hidentity, hconnection, hlogin⟩
    exact ⟨hpage, hparallel, hmode, hidentity, hconnection, hlogin⟩

theorem AttributeConfig.valid_iff {a : AttributeConfig} : a.Valid ↔ a.Admissible := by
  constructor
  · rintro ⟨hkey, hsome, hfields, hkind, htreatment⟩
    exact ⟨Text.not_isBlank_iff.mp hkey, hsome,
      fun field hfield => Text.not_isBlank_iff.mp (hfields field hfield),
      isKnownWord_kind_iff.mp hkind, isKnownWord_treatment_iff.mp htreatment⟩
  · rintro ⟨hkey, hsome, hfields, hkind, htreatment⟩
    exact ⟨Text.not_isBlank_iff.mpr hkey, hsome,
      fun field hfield => Text.not_isBlank_iff.mpr (hfields field hfield),
      isKnownWord_kind_iff.mpr hkind, isKnownWord_treatment_iff.mpr htreatment⟩

theorem RuleAttributeConfig.valid_iff {a : RuleAttributeConfig} : a.Valid ↔ a.Admissible := by
  constructor
  · rintro ⟨hkey, htreatment⟩
    exact ⟨Text.not_isBlank_iff.mp hkey,
      fun word hword => isKnownWord_treatment_iff.mp (htreatment word hword)⟩
  · rintro ⟨hkey, htreatment⟩
    exact ⟨Text.not_isBlank_iff.mpr hkey,
      fun word hword => isKnownWord_treatment_iff.mpr (htreatment word hword)⟩

theorem TreatmentGroupConfig.valid_iff {g : TreatmentGroupConfig} : g.Valid ↔ g.Admissible := by
  constructor
  · rintro ⟨hname, hsome, hattributes⟩
    exact ⟨Text.not_isBlank_iff.mp hname, hsome,
      fun a ha => RuleAttributeConfig.valid_iff.mp (hattributes a ha)⟩
  · rintro ⟨hname, hsome, hattributes⟩
    exact ⟨Text.not_isBlank_iff.mpr hname, hsome,
      fun a ha => RuleAttributeConfig.valid_iff.mpr (hattributes a ha)⟩

theorem nodup_map_iff_pairwise_ne {α : Type} {key : α → String} {xs : List α} :
    (xs.map key).Nodup ↔ xs.Pairwise fun x y => key x ≠ key y := by
  rw [List.nodup_iff_pairwise_ne, List.pairwise_map]

theorem RuleConfig.valid_iff {r : RuleConfig} :
    Text.isBlank r.code = false ∧ r.Valid ↔ r.Admissible := by
  constructor
  · rintro ⟨hcode, hdistinct, hchecked, hfilled, hequal, hgroups⟩
    exact ⟨Text.not_isBlank_iff.mp hcode, nodup_map_iff_pairwise_ne.mp hdistinct,
      fun a ha => RuleAttributeConfig.valid_iff.mp (hchecked a ha), hequal, hfilled,
      fun g hg => TreatmentGroupConfig.valid_iff.mp (hgroups g hg)⟩
  · rintro ⟨hcode, hdistinct, hchecked, hequal, hfilled, hgroups⟩
    exact ⟨Text.not_isBlank_iff.mpr hcode, nodup_map_iff_pairwise_ne.mpr hdistinct,
      fun a ha => RuleAttributeConfig.valid_iff.mpr (hchecked a ha), hfilled, hequal,
      fun g hg => TreatmentGroupConfig.valid_iff.mpr (hgroups g hg)⟩

/-- Exactly the admissible configurations are accepted. -/
theorem Config.validate_accepts_iff (c : Config) : c.validate = .ok () ↔ c.Admissible := by
  rw [Config.validate_eq_ok_iff, EngineSettings.validate_eq_ok_iff, Matching.validate_eq_ok_iff,
    allFresh_empty, allFresh_empty, nodup_map_iff_pairwise_ne, nodup_map_iff_pairwise_ne]
  simp only [AttributeConfig.valid_iff, RuleConfig.valid_iff]
  constructor
  · rintro ⟨hbackend, hmatching, ⟨hattributes, hkeys⟩, hrules, hcodes⟩
    exact ⟨hbackend, hmatching, hattributes, hkeys, hrules, hcodes⟩
  · rintro ⟨hbackend, hmatching, hattributes, hkeys, hrules, hcodes⟩
    exact ⟨hbackend, hmatching, ⟨hattributes, hkeys⟩, hrules, hcodes⟩

end Lookalike
