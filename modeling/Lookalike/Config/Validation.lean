import Lookalike.Config.Basic
import Lookalike.Text.Word

/-! # Valid configurations

`Config.validate` accepts the configurations that can be run and gives the first fault of any
other: the search engine's settings come first, then those of matching, the attributes and the
rules, each in the order in which it is listed. -/

namespace Lookalike

/-- Why a configuration cannot be used. -/
inductive ConfigError where
  | unreadable
  | malformed
  | duplicateKey (table key : String)
  | blank (setting : String)
  | notPositive (setting : String)
  | headerNotText
  | unknownWord (setting : String) (known : List String)
  | noOutputField (key : String)
  | repeatedAttribute (code key : String)
  | tooManyFilled (code : String)
  | tooManyEqual (code : String)
deriving DecidableEq

/-- The choices of a list in words: two are joined by "or", more by commas and a last "or". -/
def choiceText : List String → String
  | [] => ""
  | [a] => a
  | [a, b] => a ++ " or " ++ b
  | a :: b :: rest => a ++ ", " ++ enumerate b rest
where
  /-- The choices after the first comma. -/
  enumerate (b : String) : List String → String
    | [] => "or " ++ b
    | c :: rest => b ++ ", " ++ enumerate c rest

namespace ConfigError

def message : ConfigError → String
  | unreadable => "Failed to read the configuration."
  | malformed => "Failed to parse the configuration."
  | duplicateKey table key => table ++ " declares '" ++ key ++ "' more than once."
  | blank setting => setting ++ " must be non-empty."
  | notPositive setting => setting ++ " must be greater than zero."
  | headerNotText => "backend.default_headers values must be strings."
  | unknownWord setting known => setting ++ " must be one of " ++ choiceText known ++ "."
  | noOutputField key =>
      "attributes." ++ key ++ ".output_keys must list at least one non-empty field."
  | repeatedAttribute code key =>
      "rules." ++ code ++ ".checked_attributes lists '" ++ key ++ "' more than once."
  | tooManyFilled code =>
      "rules." ++ code ++
        ".nb_filled_attributes must not exceed the number of checked attributes."
  | tooManyEqual code =>
      "rules." ++ code ++ ".nb_equal_attributes must not exceed nb_filled_attributes."

end ConfigError

/-- Goes on when a condition holds and stops with the fault otherwise. -/
def demand (condition : Bool) (fault : ConfigError) : Except ConfigError Unit :=
  if condition then .ok () else .error fault

/-- Runs a check on every member of a list and stops at the first fault. -/
def checkEach {α : Type} (check : α → Except ConfigError Unit) : List α → Except ConfigError Unit
  | [] => .ok ()
  | a :: rest => do
      check a
      checkEach check rest

/-- Whether a word is one of the known ones, up to blanks around it and the case of letters. -/
def isKnownWord (known : List String) (word : String) : Bool :=
  known.any fun k => Text.sameWord k (Text.trim word)

/-- A setting that may not be blank. -/
def demandText (setting value : String) : Except ConfigError Unit :=
  demand (!Text.isBlank value) (.blank setting)

/-- A setting that must be one of the known words. -/
def demandWord (setting : String) (known : List String) (value : String) :
    Except ConfigError Unit :=
  demand (isKnownWord known value) (.unknownWord setting known)

def EngineSettings.validate (s : EngineSettings) : Except ConfigError Unit := do
  demandText "backend.url" s.url
  demandText "backend.index" s.index
  demand (s.connectTimeoutMs != 0) (.notPositive "backend.connect_timeout_ms")
  demand (s.timeoutMs != 0) (.notPositive "backend.timeout_ms")
  demand (s.defaultHeaders.all fun h => h.2.string?.isSome) .headerNotText

def Matching.validate (m : Matching) : Except ConfigError Unit := do
  demand (m.pageSize != 0) (.notPositive "matching.page_size")
  demand (m.maxParallelRules != 0) (.notPositive "matching.max_parallel_rules")
  demandWord "matching.failure_mode" failureModeWords m.failureMode
  demandText "matching.identity_key_field" m.identityKeyField
  demandText "matching.connection_id_field" m.connectionIdField
  demandText "matching.login_field" m.loginField

/-- One attribute, whose key is not among those seen before. -/
def AttributeConfig.validate (seen : List String) (a : AttributeConfig) :
    Except ConfigError Unit := do
  demandText "attributes.key" a.key
  demand (!seen.contains a.key) (.duplicateKey "attributes" a.key)
  demand (!a.outputKeys.isEmpty && !a.outputKeys.any Text.isBlank) (.noOutputField a.key)
  demandWord ("attributes." ++ a.key ++ ".kind") fieldKindWords a.kind
  demandWord ("attributes." ++ a.key ++ ".default_treatment") treatmentWords a.defaultTreatment

/-- Attributes in order, given the keys seen before. -/
def validateAttributes (seen : List String) : List AttributeConfig → Except ConfigError Unit
  | [] => .ok ()
  | a :: rest => do
      a.validate seen
      validateAttributes (a.key :: seen) rest

/-- An attribute that a rule names below a path. -/
def RuleAttributeConfig.validate (path : String) (a : RuleAttributeConfig) :
    Except ConfigError Unit := do
  demandText (path ++ ".key") a.key
  match a.treatment with
  | none => .ok ()
  | some treatment =>
      demandWord (path ++ "." ++ a.key ++ ".treatment") treatmentWords treatment

/-- The checked attributes of a rule in order, given the keys seen before. -/
def validateChecked (code : String) (seen : List String) :
    List RuleAttributeConfig → Except ConfigError Unit
  | [] => .ok ()
  | a :: rest => do
      demand (!seen.contains a.key) (.repeatedAttribute code a.key)
      a.validate ("rules." ++ code ++ ".checked_attributes")
      validateChecked code (a.key :: seen) rest

def TreatmentGroupConfig.validate (code : String) (g : TreatmentGroupConfig) :
    Except ConfigError Unit := do
  demandText ("rules." ++ code ++ ".treatment_groups.name") g.name
  let path := "rules." ++ code ++ ".treatment_groups." ++ g.name
  demand (!g.attributes.isEmpty) (.blank (path ++ ".attributes"))
  checkEach (·.validate path) g.attributes

def RuleConfig.validate (r : RuleConfig) : Except ConfigError Unit := do
  validateChecked r.code [] r.checkedAttributes
  demand (decide (r.nbFilledAttributes ≤ r.checkedAttributes.length)) (.tooManyFilled r.code)
  demand (decide (r.nbEqualAttributes ≤ r.nbFilledAttributes)) (.tooManyEqual r.code)
  checkEach (·.validate r.code) r.treatmentGroups

/-- Rules in order, given the codes seen before. -/
def validateRules (seen : List String) : List RuleConfig → Except ConfigError Unit
  | [] => .ok ()
  | r :: rest => do
      demandText "rules.code" r.code
      demand (!seen.contains r.code) (.duplicateKey "rules" r.code)
      r.validate
      validateRules (r.code :: seen) rest

/-- The first fault of a configuration, if it has one. -/
def Config.validate (c : Config) : Except ConfigError Unit := do
  c.backend.validate
  c.matching.validate
  validateAttributes [] c.attributes
  validateRules [] c.rules

end Lookalike
