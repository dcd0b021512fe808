import Lookalike.Config.Normal
import Lookalike.Proofs.Vocabulary

/-! # Checking a canonical configuration

Writing the words of a configuration canonically changes neither which of them are known nor anything
that the fault of a check names: keys, codes and settings stay.  So the check does the same on a
configuration and on its canonical form, part by part.

Main statement: `Config.validate_normalize`. -/

namespace Lookalike

theorem checkEach_map {α β : Type} {check : β → Except ConfigError Unit}
    {check' : α → Except ConfigError Unit} {f : α → β} (h : ∀ a, check (f a) = check' a)
    (xs : List α) : checkEach check (xs.map f) = checkEach check' xs := by
  induction xs with
  | nil => rfl
  | cons x xs ih => rw [List.map_cons, checkEach, checkEach, h, ih]

theorem demandWord_canonicalWord {known : List String} (h : ∀ k ∈ known, Text.lowerAscii k = k)
    (setting value : String) :
    demandWord setting known (Text.canonicalWord value) = demandWord setting known value := by
  rw [demandWord, demandWord, isKnownWord_canonicalWord h]

theorem EngineSettings.validate_normalize (s : EngineSettings) : s.normalize.validate = s.validate :=
  rfl

theorem Matching.validate_normalize (m : Matching) : m.normalize.validate = m.validate := by
  have hmode := demandWord_canonicalWord lowerAscii_failureModeWords "matching.failure_mode"
    m.failureMode
  simp only [Matching.validate, Matching.normalize, hmode]

/-! ### Attributes -/

theorem AttributeConfig.validate_normalize (seen : List String) (a : AttributeConfig) :
    a.normalize.validate seen = a.validate seen := by
  simp only [AttributeConfig.validate, AttributeConfig.normalize,
    demandWord_canonicalWord lowerAscii_fieldKindWords,
    demandWord_canonicalWord lowerAscii_treatmentWords]

theorem validateAttributes_normalize (seen : List String) (attributes : List AttributeConfig) :
    validateAttributes seen (attributes.map (·.normalize)) = validateAttributes seen attributes := by
  induction attributes generalizing seen with
  | nil => rfl
  | cons a rest ih =>
      have hkey : a.normalize.key = a.key := by rw [AttributeConfig.normalize]
      simp only [List.map_cons, validateAttributes, AttributeConfig.validate_normalize, hkey, ih]

/-! ### Rules -/

theorem RuleAttributeConfig.validate_normalize (path : String) (a : RuleAttributeConfig) :
    a.normalize.validate path = a.validate path := by
  obtain ⟨key, treatment⟩ := a
  cases treatment with
  | none => rfl
  | some word =>
      simp only [RuleAttributeConfig.validate, RuleAttributeConfig.normalize, Option.map_some,
        demandWord_canonicalWord lowerAscii_treatmentWords]

theorem validateChecked_normalize (code : String) (seen : List String)
    (attributes : List RuleAttributeConfig) :
    validateChecked code seen (attributes.map (·.normalize)) =
      validateChecked code seen attributes := by
  induction attributes generalizing seen with
  | nil => rfl
  | cons a rest ih =>
      have hkey : a.normalize.key = a.key := rfl
      simp only [List.map_cons, validateChecked, RuleAttributeConfig.validate_normalize, hkey, ih]

theorem TreatmentGroupConfig.validate_normalize (code : String) (g : TreatmentGroupConfig) :
    g.normalize.validate code = g.validate code := by
  simp only [TreatmentGroupConfig.validate, TreatmentGroupConfig.normalize, List.isEmpty_map,
    checkEach_map (RuleAttributeConfig.validate_normalize _)]

theorem RuleConfig.validate_normalize (r : RuleConfig) : r.normalize.validate = r.validate := by
  have hgroups := checkEach_map (TreatmentGroupConfig.validate_normalize r.code) r.treatmentGroups
  simp only [RuleConfig.validate, RuleConfig.normalize, validateChecked_normalize, List.length_map,
    hgroups]
  rfl

theorem validateRules_normalize (seen : List String) (rules : List RuleConfig) :
    validateRules seen (rules.map (·.normalize)) = validateRules seen rules := by
  induction rules generalizing seen with
  | nil => rfl
  | cons r rest ih =>
      have hcode : r.normalize.code = r.code := rfl
      simp only [List.map_cons, validateRules, RuleConfig.validate_normalize, hcode, ih]

/-- The check gives a configuration and its canonical form the same answer, with the same fault. -/
theorem Config.validate_normalize (c : Config) : c.normalize.validate = c.validate := by
  simp only [Config.validate, Config.normalize, EngineSettings.validate_normalize,
    Matching.validate_normalize, validateAttributes_normalize, validateRules_normalize]

end Lookalike
