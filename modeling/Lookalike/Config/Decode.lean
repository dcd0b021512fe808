import Lookalike.Config.Basic
import Lookalike.Json.Record

/-! # Configurations in JSON

A configuration is read from a JSON value and written as one.  Every setting with a default may be
left out; no setting may be `null` but the key for the search engine and the treatment of an
attribute that a rule names. -/

namespace Lookalike

/-! ### Reading -/

mutual

/-- A value kept as it stands: integers fit 64 bits, and a double that is not finite is `null`. -/
def storedValue? : Json → Option Json
  | .integer n => if -0x8000000000000000 ≤ n ∧ n < UInt64.size then some (.integer n) else none
  | .float x => some (if x.isFinite then .float x else .null)
  | .array items => (storedItems? items).map .array
  | .object members => (storedMembers? members).map .object
  | .null => some .null
  | .boolean b => some (.boolean b)
  | .string s => some (.string s)

/-- Values kept as they stand. -/
def storedItems? : List Json → Option (List Json)
  | [] => some []
  | v :: vs => do
      let v ← storedValue? v
      let vs ← storedItems? vs
      pure (v :: vs)

def storedMembers? : List (String × Json) → Option (List (String × Json))
  | [] => some []
  | m :: ms => do
      let m ← storedMember? m
      let ms ← storedMembers? ms
      pure (m :: ms)

def storedMember? : String × Json → Option (String × Json)
  | (name, v) => (storedValue? v).map fun v => (name, v)

end

def LogSettings.ofJson? (surplus : Surplus) (v : Json) : Option LogSettings := do
  let r ← Record.ofJson? surplus 1 v
  let logLevel ← r.withDefault 0 "log_level" "info" Json.string?
  pure { logLevel }

def EngineSettings.ofJson? (surplus : Surplus) (v : Json) : Option EngineSettings := do
  let r ← Record.ofJson? surplus 6 v
  let url ← r.required 0 "url" Json.string?
  let index ← r.required 1 "index" Json.string?
  let apiKey ← r.optional 2 "api_key" Json.string?
  let connectTimeoutMs ← r.withDefault 3 "connect_timeout_ms" 2000 Json.word?
  let timeoutMs ← r.withDefault 4 "timeout_ms" 10000 Json.word?
  let defaultHeaders ← r.withDefault 5 "default_headers" [] (Json.entries? storedValue?)
  pure { url, index, apiKey, connectTimeoutMs, timeoutMs, defaultHeaders }

def Matching.ofJson? (surplus : Surplus) (v : Json) : Option Matching := do
  let r ← Record.ofJson? surplus 8 v
  let d : Matching := {}
  let pageSize ← r.withDefault 0 "page_size" d.pageSize Json.word32?
  let maxResults ← r.withDefault 1 "max_results" d.maxResults Json.word32?
  let maxParallelRules ← r.withDefault 2 "max_parallel_rules" d.maxParallelRules Json.word?
  let failureMode ← r.withDefault 3 "failure_mode" d.failureMode Json.string?
  let fuzziness ← r.withDefault 4 "fuzziness" d.fuzziness Json.byte?
  let identityKeyField ← r.withDefault 5 "identity_key_field" d.identityKeyField Json.string?
  let connectionIdField ← r.withDefault 6 "connection_id_field" d.connectionIdField Json.string?
  let loginField ← r.withDefault 7 "login_field" d.loginField Json.string?
  pure { pageSize, maxResults, maxParallelRules, failureMode, fuzziness, identityKeyField,
         connectionIdField, loginField }

def AttributeConfig.ofJson? (surplus : Surplus) (v : Json) : Option AttributeConfig := do
  let r ← Record.ofJson? surplus 4 v
  let key ← r.required 0 "key" Json.string?
  let outputKeys ← r.required 1 "output_keys" (Json.list? Json.string?)
  let kind ← r.withDefault 2 "kind" "plain" Json.string?
  let defaultTreatment ← r.withDefault 3 "default_treatment" "strict" Json.string?
  pure { key, outputKeys, kind, defaultTreatment }

def RuleAttributeConfig.ofJson? (surplus : Surplus) (v : Json) : Option RuleAttributeConfig := do
  let r ← Record.ofJson? surplus 2 v
  let key ← r.required 0 "key" Json.string?
  let treatment ← r.optional 1 "treatment" Json.string?
  pure { key, treatment }

def TreatmentGroupConfig.ofJson? (surplus : Surplus) (v : Json) :
    Option TreatmentGroupConfig := do
  let r ← Record.ofJson? surplus 2 v
  let name ← r.required 0 "name" Json.string?
  let attributes ← r.required 1 "attributes" (Json.list? (RuleAttributeConfig.ofJson? surplus))
  pure { name, attributes }

def RuleConfig.ofJson? (surplus : Surplus) (v : Json) : Option RuleConfig := do
  let r ← Record.ofJson? surplus 8 v
  let code ← r.required 0 "code" Json.string?
  let priority ← r.required 1 "priority" Json.signed32?
  let nbFilledAttributes ← r.required 2 "nb_filled_attributes" (Json.natBelow? UInt32.size)
  let nbEqualAttributes ← r.required 3 "nb_equal_attributes" (Json.natBelow? UInt32.size)
  let nbMissingAttributes ← r.withDefault 4 "nb_missing_attributes" 0 (Json.natBelow? UInt32.size)
  let connected ← r.withDefault 5 "connected" false Json.bool?
  let checkedAttributes ←
    r.required 6 "checked_attributes" (Json.list? (RuleAttributeConfig.ofJson? surplus))
  let treatmentGroups ←
    r.withDefault 7 "treatment_groups" [] (Json.list? (TreatmentGroupConfig.ofJson? surplus))
  pure { code, priority, nbFilledAttributes, nbEqualAttributes, nbMissingAttributes, connected,
         checkedAttributes, treatmentGroups }

def Config.ofJson? (surplus : Surplus) (v : Json) : Option Config := do
  let r ← Record.ofJson? surplus 5 v
  let service ← r.required 0 "service" (LogSettings.ofJson? surplus)
  let backend ← r.required 1 "backend" (EngineSettings.ofJson? surplus)
  let matching ← r.withDefault 2 "matching" {} (Matching.ofJson? surplus)
  let attributes ←
    r.withDefault 3 "attributes" [] (Json.list? (AttributeConfig.ofJson? surplus))
  let rules ← r.withDefault 4 "rules" [] (Json.list? (RuleConfig.ofJson? surplus))
  pure { service, backend, matching, attributes, rules }

/-! ### Writing -/

def RuleAttributeConfig.toJson (a : RuleAttributeConfig) : Json :=
  .obj [("key", .string a.key), ("treatment", Json.nullable .string a.treatment)]

def TreatmentGroupConfig.toJson (g : TreatmentGroupConfig) : Json :=
  .obj [("name", .string g.name), ("attributes", .array (g.attributes.map (·.toJson)))]

def RuleConfig.toJson (r : RuleConfig) : Json :=
  .obj [
    ("code", .string r.code),
    ("priority", .integer r.priority),
    ("nb_filled_attributes", .nat r.nbFilledAttributes),
    ("nb_equal_attributes", .nat r.nbEqualAttributes),
    ("nb_missing_attributes", .nat r.nbMissingAttributes),
    ("connected", .boolean r.connected),
    ("checked_attributes", .array (r.checkedAttributes.map (·.toJson))),
    ("treatment_groups", .array (r.treatmentGroups.map (·.toJson)))]

def AttributeConfig.toJson (a : AttributeConfig) : Json :=
  .obj [
    ("key", .string a.key),
    ("output_keys", .strings a.outputKeys),
    ("kind", .string a.kind),
    ("default_treatment", .string a.defaultTreatment)]

def Matching.toJson (m : Matching) : Json :=
  .obj [
    ("page_size", .nat m.pageSize.toNat),
    ("max_results", .nat m.maxResults.toNat),
    ("max_parallel_rules", .nat m.maxParallelRules.toNat),
    ("failure_mode", .string m.failureMode),
    ("fuzziness", .nat m.fuzziness.toNat),
    ("identity_key_field", .string m.identityKeyField),
    ("connection_id_field", .string m.connectionIdField),
    ("login_field", .string m.loginField)]

def EngineSettings.toJson (s : EngineSettings) : Json :=
  .obj [
    ("url", .string s.url),
    ("index", .string s.index),
    ("api_key", Json.nullable .string s.apiKey),
    ("connect_timeout_ms", .nat s.connectTimeoutMs.toNat),
    ("timeout_ms", .nat s.timeoutMs.toNat),
    ("default_headers", .obj s.defaultHeaders)]

def Config.toJson (c : Config) : Json :=
  .obj [
    ("service", .obj [("log_level", .string c.service.logLevel)]),
    ("backend", c.backend.toJson),
    ("matching", c.matching.toJson),
    ("attributes", .array (c.attributes.map (·.toJson))),
    ("rules", .array (c.rules.map (·.toJson)))]

end Lookalike
