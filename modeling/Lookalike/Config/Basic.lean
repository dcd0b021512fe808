import Lookalike.Json.Basic

/-! # Configuration

The settings of a deployment: where the search engine listens, how matching runs, the attributes
that identities have and the rules that compare them.  Words such as treatments and field kinds are
kept as they were written; `Config.validate` says which are known. -/

namespace Lookalike

/-- Settings of the process itself. -/
structure LogSettings where
  logLevel : String := "info"
deriving DecidableEq

/-- Where the search engine listens and how it is addressed. -/
structure EngineSettings where
  url : String
  index : String
  apiKey : Option String := none
  connectTimeoutMs : UInt64 := 2000
  timeoutMs : UInt64 := 10000
  defaultHeaders : List (String × Json) := []

/-- How matching runs; a cap of zero results means none. -/
structure Matching where
  pageSize : UInt32 := 100
  maxResults : UInt32 := 0
  maxParallelRules : UInt64 := 1
  failureMode : String := "strict"
  fuzziness : UInt8 := 1
  identityKeyField : String := "identity_key"
  connectionIdField : String := "connection_id"
  loginField : String := "login"
deriving DecidableEq

/-- One attribute of identities: the stored fields it stands for and how it compares. -/
structure AttributeConfig where
  key : String
  outputKeys : List String
  kind : String := "plain"
  defaultTreatment : String := "strict"
deriving DecidableEq

/-- An attribute that a rule names; without a treatment of its own it takes the default one. -/
structure RuleAttributeConfig where
  key : String
  treatment : Option String := none
deriving DecidableEq

/-- A named group of attributes that a rule treats together. -/
structure TreatmentGroupConfig where
  name : String
  attributes : List RuleAttributeConfig
deriving DecidableEq

/-- A rule as it is configured. -/
structure RuleConfig where
  code : String
  priority : Int
  nbFilledAttributes : Nat
  nbEqualAttributes : Nat
  nbMissingAttributes : Nat := 0
  connected : Bool := false
  checkedAttributes : List RuleAttributeConfig
  treatmentGroups : List TreatmentGroupConfig := []
deriving DecidableEq

/-- All settings of a deployment. -/
structure Config where
  service : LogSettings
  backend : EngineSettings
  matching : Matching := {}
  attributes : List AttributeConfig := []
  rules : List RuleConfig := []

def treatmentWords : List String := ["strict", "approximated", "different", "absent"]

def fieldKindWords : List String := ["plain", "family_name", "first_name"]

def failureModeWords : List String := ["strict", "lenient"]

end Lookalike
