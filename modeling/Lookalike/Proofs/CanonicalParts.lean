import Lookalike.Config.Load
import Lookalike.Proofs.CanonicalConfig
import Lookalike.Proofs.Wiring

/-! # What a canonical configuration stands for

Loading a file writes the words of its configuration canonically before they are checked; setting up a
service from a configuration that was not loaded skips that step.  Neither the check nor the parsers of
words, attributes and rules notice: each goes by the canonical spelling, and that is a fixed point.

Main statement: `Config.normalize_transparent`. -/

namespace Lookalike

/-! ### Canonical forms are canonical -/

theorem RuleAttributeConfig.normalize_normalize (a : RuleAttributeConfig) :
    a.normalize.normalize = a.normalize := by
  obtain ⟨key, treatment⟩ := a
  cases treatment with
  | none => rfl
  | some word => simp only [normalize, Option.map_some, Text.canonicalWord_canonicalWord]

theorem TreatmentGroupConfig.normalize_normalize (g : TreatmentGroupConfig) :
    g.normalize.normalize = g.normalize := by
  simp only [normalize, List.map_map, Function.comp_def, RuleAttributeConfig.normalize_normalize]

theorem RuleConfig.normalize_normalize (r : RuleConfig) : r.normalize.normalize = r.normalize := by
  simp only [normalize, List.map_map, Function.comp_def, RuleAttributeConfig.normalize_normalize,
    TreatmentGroupConfig.normalize_normalize]

theorem AttributeConfig.normalize_normalize (a : AttributeConfig) :
    a.normalize.normalize = a.normalize := by
  simp only [normalize, Text.canonicalWord_canonicalWord]

theorem EngineSettings.normalize_normalize (s : EngineSettings) :
    s.normalize.normalize = s.normalize := by
  simp only [normalize, Option.filter_filter, Bool.and_self]

theorem Matching.normalize_normalize (m : Matching) : m.normalize.normalize = m.normalize := by
  simp only [normalize, Text.canonicalWord_canonicalWord]

theorem Config.normalize_normalize (c : Config) : c.normalize.normalize = c.normalize := by
  simp only [normalize, List.map_map, Function.comp_def, EngineSettings.normalize_normalize,
    Matching.normalize_normalize, AttributeConfig.normalize_normalize,
    RuleConfig.normalize_normalize]

/-! ### Words that stand for themselves -/

/-- An attribute that a rule names has one of the words for its treatment, as it is listed. -/
def RuleAttributeConfig.Canonical (a : RuleAttributeConfig) : Prop :=
  ∀ word ∈ a.treatment, word ∈ treatmentWords

/-- Every word of a configuration is one of those that are listed for it, letter by letter, and a key
for the search engine is not blank. -/
structure Config.Canonical (c : Config) : Prop where
  failureMode : c.matching.failureMode ∈ failureModeWords
  kinds : ∀ a ∈ c.attributes, a.kind ∈ fieldKindWords
  defaultTreatments : ∀ a ∈ c.attributes, a.defaultTreatment ∈ treatmentWords
  checkedAttributes : ∀ r ∈ c.rules, ∀ a ∈ r.checkedAttributes, a.Canonical
  treatmentGroups : ∀ r ∈ c.rules, ∀ g ∈ r.treatmentGroups, ∀ a ∈ g.attributes, a.Canonical
  apiKey : ∀ key ∈ c.backend.apiKey, Text.isBlank key = false

theorem RuleAttributeConfig.Valid.canonical {a : RuleAttributeConfig} (h : a.Valid) :
    a.normalize.Canonical := by
  intro word hword
  obtain ⟨raw, hraw, rfl⟩ := Option.mem_map.mp hword
  exact (isKnownWord_iff lowerAscii_treatmentWords).mp (h.treatment raw hraw)

theorem Matching.failureMode_normalize {m : Matching} (h : m.validate = .ok ()) :
    m.normalize.failureMode ∈ failureModeWords := by
  simp only [validate, check_bind_eq_ok_iff, demandWord_eq_ok_iff] at h
  exact (isKnownWord_iff lowerAscii_failureModeWords).mp h.2.2.1

theorem EngineSettings.apiKey_normalize (s : EngineSettings) :
    ∀ key ∈ s.normalize.apiKey, Text.isBlank key = false := by
  intro key hkey
  have hkept := (Option.filter_eq_some_iff.mp hkey).2
  rwa [Bool.not_eq_true'] at hkept

theorem Config.canonical_normalize {c : Config} (h : c.validate = .ok ()) :
    c.normalize.Canonical := by
  obtain ⟨-, hmatching, hattributes, hrules⟩ := validate_eq_ok_iff.mp h
  obtain ⟨hattributes, -⟩ := allFresh_empty.mp hattributes
  obtain ⟨hrules, -⟩ := allFresh_empty.mp hrules
  have hforall : ∀ r ∈ c.normalize.rules, ∃ raw : RuleConfig, raw.Valid ∧ raw.normalize = r := by
    intro r hr
    obtain ⟨raw, hraw, rfl⟩ := List.mem_map.mp hr
    exact ⟨raw, (hrules raw hraw).2, rfl⟩
  refine ⟨Matching.failureMode_normalize hmatching, ?kinds, ?defaultTreatments, ?checked, ?groups,
    c.backend.apiKey_normalize⟩
  case kinds =>
    intro a ha
    obtain ⟨raw, hraw, rfl⟩ := List.mem_map.mp ha
    exact (isKnownWord_iff lowerAscii_fieldKindWords).mp (hattributes raw hraw).kind
  case defaultTreatments =>
    intro a ha
    obtain ⟨raw, hraw, rfl⟩ := List.mem_map.mp ha
    exact (isKnownWord_iff lowerAscii_treatmentWords).mp (hattributes raw hraw).defaultTreatment
  case checked =>
    intro r hr a ha
    obtain ⟨raw, hvalid, rfl⟩ := hforall r hr
    obtain ⟨b, hb, rfl⟩ := List.mem_map.mp ha
    exact (hvalid.checkedAttributes b hb).canonical
  case groups =>
    intro r hr g hg a ha
    obtain ⟨raw, hvalid, rfl⟩ := hforall r hr
    obtain ⟨group, hgroup, rfl⟩ := List.mem_map.mp hg
    obtain ⟨b, hb, rfl⟩ := List.mem_map.mp ha
    exact ((hvalid.treatmentGroups group hgroup).attributes b hb).canonical

/-! ### Parsers of canonical forms -/

theorem Treatment.parse_canonicalWord {word : String} (h : isKnownWord treatmentWords word = true) :
    parse (Text.canonicalWord word) = parse word := by
  obtain ⟨t, ht⟩ := exists_parse_iff.mpr h
  rw [ht, parse_eq_ok_iff, Text.canonicalWord_canonicalWord]
  exact parse_eq_ok_iff.mp ht

theorem FieldKind.parse_canonicalWord {word : String} (h : isKnownWord fieldKindWords word = true) :
    parse (Text.canonicalWord word) = parse word := by
  obtain ⟨kind, hkind⟩ := exists_parse_iff.mpr h
  rw [hkind, parse_eq_ok_iff, Text.canonicalWord_canonicalWord]
  exact parse_eq_ok_iff.mp hkind

theorem mapM_map_of_forall {α β γ ε : Type} {f : β → Except ε γ} {g : α → Except ε γ} {h : α → β}
    {xs : List α} (heq : ∀ x ∈ xs, f (h x) = g x) : (xs.map h).mapM f = xs.mapM g := by
  induction xs with
  | nil => rfl
  | cons x xs ih =>
      obtain ⟨hx, hxs⟩ := List.forall_mem_cons.mp heq
      rw [List.map_cons, List.mapM_cons, List.mapM_cons, hx, ih hxs]

theorem Rule.keyOfConfig_normalize {a : RuleAttributeConfig} (h : a.Valid) :
    keyOfConfig a.normalize = keyOfConfig a := by
  obtain ⟨key, treatment⟩ := a
  cases treatment with
  | none => rfl
  | some word =>
      simp only [keyOfConfig, RuleAttributeConfig.normalize, Option.map_some,
        Treatment.parse_canonicalWord (h.treatment word rfl)]

theorem Rule.groupOfConfig_normalize {g : TreatmentGroupConfig} (h : g.Valid) :
    groupOfConfig g.normalize = groupOfConfig g := by
  have hmembers : (g.attributes.map (·.normalize)).mapM keyOfConfig = g.attributes.mapM keyOfConfig :=
    mapM_map_of_forall fun a ha => keyOfConfig_normalize (h.attributes a ha)
  simp only [groupOfConfig, TreatmentGroupConfig.normalize, hmembers]

/-- A valid rule and its canonical form are the same rule. -/
theorem Rule.ofConfig_normalize {c : RuleConfig} (h : c.Valid) : ofConfig c.normalize = ofConfig c := by
  have hchecked : c.normalize.checkedAttributes.mapM keyOfConfig =
      c.checkedAttributes.mapM keyOfConfig :=
    mapM_map_of_forall fun a ha => keyOfConfig_normalize (h.checkedAttributes a ha)
  have hgroups : c.normalize.treatmentGroups.mapM groupOfConfig =
      c.treatmentGroups.mapM groupOfConfig :=
    mapM_map_of_forall fun g hg => groupOfConfig_normalize (h.treatmentGroups g hg)
  rw [ofConfig, ofConfig, RuleConfig.validate_normalize, hchecked, hgroups]
  rfl

theorem CatalogTable.entryOfConfig_normalize {a : AttributeConfig} (h : a.Valid) :
    entryOfConfig a.normalize = entryOfConfig a := by
  simp only [entryOfConfig, AttributeConfig.normalize, FieldKind.parse_canonicalWord h.kind,
    Treatment.parse_canonicalWord h.defaultTreatment]

/-- Valid attributes and their canonical forms make the same catalog. -/
theorem CatalogTable.ofConfig_normalize {attributes : List AttributeConfig}
    (h : ∀ a ∈ attributes, a.Valid) :
    ofConfig (attributes.map (·.normalize)) = ofConfig attributes := by
  rw [ofConfig, ofConfig, List.foldlM_map]
  generalize empty = start
  induction attributes generalizing start with
  | nil => rw [List.foldlM_nil, List.foldlM_nil]
  | cons a attributes ih =>
      obtain ⟨ha, hrest⟩ := List.forall_mem_cons.mp h
      have hkey : a.normalize.key = a.key := by rw [AttributeConfig.normalize]
      simp only [List.foldlM_cons, entryOfConfig_normalize ha, hkey, ih hrest]

/-! ### Whole configurations -/

/-- Two configurations make one catalog and the same rules. -/
def Config.SameParts (c d : Config) : Prop :=
  ∃ table rules,
    CatalogTable.ofConfig c.attributes = .ok table ∧ CatalogTable.ofConfig d.attributes = .ok table ∧
    c.rules.mapM Rule.ofConfig = .ok rules ∧ d.rules.mapM Rule.ofConfig = .ok rules

theorem Config.sameParts_normalize {c : Config} (h : c.validate = .ok ()) :
    c.SameParts c.normalize := by
  obtain ⟨-, -, hattributes, hrules⟩ := validate_eq_ok_iff.mp h
  obtain ⟨hattributes, hkeys⟩ := allFresh_empty.mp hattributes
  obtain ⟨hrules, -⟩ := allFresh_empty.mp hrules
  obtain ⟨table, htable, -⟩ := CatalogTable.exists_ofConfig hattributes hkeys
  obtain ⟨rules, hbuilt, -⟩ := exists_mapM_of_forall fun r hr => Rule.exists_ofConfig (hrules r hr).2
  have hsameRules : c.normalize.rules.mapM Rule.ofConfig = c.rules.mapM Rule.ofConfig :=
    mapM_map_of_forall fun r hr => Rule.ofConfig_normalize (hrules r hr).2
  refine ⟨table, rules, htable, ?_, hbuilt, hsameRules.trans hbuilt⟩
  exact (CatalogTable.ofConfig_normalize hattributes).trans htable

/-- Loading a document refuses the configuration that it says with the fault that the check finds in
it as it is written, and gives its canonical form otherwise. -/
theorem Config.load_of_parse {document : String} {c : Config} (h : parse document = .ok c) :
    load (some document) = c.validate.map fun _ => c.normalize := by
  simp only [load, h]
  cases hvalidate : c.validate with
  | error fault =>
      simp only [bind, Except.bind, validate_normalize, hvalidate]
      rfl
  | ok _ =>
      simp only [bind, Except.bind, validate_normalize, hvalidate]
      rfl

/-- The canonical form of a configuration is checked like the configuration itself, has itself as
canonical form, and is what loading a document gives if the check accepts what the document says.  If it
is valid, all its words are canonical and it makes the catalog and the rules of the configuration. -/
theorem Config.normalize_transparent (c : Config) :
    c.normalize.validate = c.validate ∧ c.normalize.normalize = c.normalize ∧
    (∀ document, parse document = .ok c →
      load (some document) = c.validate.map fun _ => c.normalize) ∧
    (c.validate = .ok () → c.normalize.Canonical ∧ c.SameParts c.normalize) :=
  ⟨c.validate_normalize, c.normalize_normalize, fun _ => load_of_parse,
    fun h => ⟨canonical_normalize h, sameParts_normalize h⟩⟩

/-- A configuration whose words are spelled in many ways. -/
def manySpellings : Config where
  service := {}
  backend := { url := "http://127.0.0.1:9200", index := "identities", apiKey := some " \t" }
  matching := { failureMode := " LENIENT\n" }
  attributes := [
    { key := "familyName", outputKeys := ["familyName"], kind := "Family_Name ",
      defaultTreatment := "STRICT" },
    { key := "firstName", outputKeys := ["firstName"], kind := " first_name",
      defaultTreatment := " Approximated" }]
  rules := [
    { code := "R1", priority := 1, nbFilledAttributes := 1, nbEqualAttributes := 1
      checkedAttributes := [{ key := "familyName", treatment := some "\tStrict" },
        { key := "firstName" }]
      treatmentGroups := [
        { name := "first", attributes := [{ key := "firstName", treatment := some "ABSENT " }] }] }]

/-- Its canonical form is canonical and makes its catalog and its rules. -/
theorem Config.normalize_transparent_manySpellings :
    manySpellings.validate = .ok () ∧ manySpellings.normalize.Canonical ∧
      manySpellings.SameParts manySpellings.normalize ∧
      manySpellings.normalize.matching.failureMode = "lenient" := by
  have hvalid : manySpellings.validate = .ok () := by decide
  obtain ⟨-, -, -, haccepted⟩ := normalize_transparent manySpellings
  obtain ⟨hcanonical, hparts⟩ := haccepted hvalid
  exact ⟨hvalid, hcanonical, hparts, by decide⟩

end Lookalike
