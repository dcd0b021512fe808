import Lookalike.Config.Validation
import Lookalike.Engine.Client
import Lookalike.Generation
import Lookalike.Paging
import Lookalike.Registry
import Lookalike.Report
import Lookalike.Survivors

/-! # Duplicate detection

A service finds the identities that may be the same as a given one.  A sweep evaluates rules by
priority, equal ones in the order given, and reports each; a failing rule ends a strict sweep and is
recorded by a lenient one.  Besides there are the search by one rule, the searches by all supplied
attributes, and the look-up of an identity by its key. -/

namespace Lookalike

/-- What a failing rule does to a sweep. -/
inductive FailureMode where
  | strict
  | lenient
deriving DecidableEq

/-- The mode that a configuration names; any word but "lenient" is strict. -/
def FailureMode.ofMatching (m : Matching) : FailureMode :=
  if Text.sameWord m.failureMode "lenient" then .lenient else .strict

/-! ### Requests -/

/-- A sweep of rules over the values of one identity. -/
structure SweepRequest where
  values : List (String × String)
  baseIdentityKey : String
  attributesFilter : List String := []

/-- A search by one rule; a cap of zero results stands for the configured one. -/
structure RuleSearchRequest where
  ruleCode : String
  values : List (String × String)
  baseIdentityKey : Option String := none
  maxResults : UInt32 := 0
  connectedOnly : Bool := false
  attributesFilter : List String := []

/-- A search by all supplied attributes. -/
structure AttributeSearchRequest where
  values : List (String × String)
  baseIdentityKey : Option String := none
  maxResults : UInt32 := 0
  connectedOnly : Bool := false
  attributesFilter : List String := []

def SweepRequest.ofJson? (v : Json) : Option SweepRequest := do
  let r ← Record.ofJson? .refused 3 v
  let values ← r.required 0 "values" (Json.entries? Json.string?)
  let baseIdentityKey ← r.required 1 "base_identity_key" Json.string?
  let attributesFilter ← r.withDefault 2 "attributes_filter" [] (Json.list? Json.string?)
  pure { values, baseIdentityKey, attributesFilter }

def RuleSearchRequest.ofJson? (v : Json) : Option RuleSearchRequest := do
  let r ← Record.ofJson? .refused 6 v
  let ruleCode ← r.required 0 "rule_code" Json.string?
  let values ← r.required 1 "values" (Json.entries? Json.string?)
  let baseIdentityKey ← r.withDefault 2 "base_identity_key" none (Json.orNull? Json.string?)
  let maxResults ← r.withDefault 3 "max_results" 0 Json.word32?
  let connectedOnly ← r.withDefault 4 "connected_only" false Json.bool?
  let attributesFilter ← r.withDefault 5 "attributes_filter" [] (Json.list? Json.string?)
  pure { ruleCode, values, baseIdentityKey, maxResults, connectedOnly, attributesFilter }

def AttributeSearchRequest.ofJson? (v : Json) : Option AttributeSearchRequest := do
  let r ← Record.ofJson? .refused 5 v
  let values ← r.required 0 "values" (Json.entries? Json.string?)
  let baseIdentityKey ← r.withDefault 1 "base_identity_key" none (Json.orNull? Json.string?)
  let maxResults ← r.withDefault 2 "max_results" 0 Json.word32?
  let connectedOnly ← r.withDefault 3 "connected_only" false Json.bool?
  let attributesFilter ← r.withDefault 4 "attributes_filter" [] (Json.list? Json.string?)
  pure { values, baseIdentityKey, maxResults, connectedOnly, attributesFilter }

/-! ### Services -/

/-- What finds duplicates. -/
structure DuplicateService (σ : Type) where
  matching : Matching
  failureMode : FailureMode
  options : SynthesisOptions
  catalog : AttributeCatalog
  backend : SearchBackend σ
  identityState : IdentityState σ
  registry : RuleRegistry

namespace DuplicateService

variable {σ : Type}

/-- The service of some settings and parties. -/
def ofParts (matching : Matching) (catalog : AttributeCatalog) (registry : RuleRegistry)
    (backend : SearchBackend σ) (identityState : IdentityState σ) : DuplicateService σ where
  matching := matching
  failureMode := .ofMatching matching
  options := .ofMatching matching
  catalog := catalog
  backend := backend
  identityState := identityState
  registry := registry

/-- The service of a valid configuration with given parties. -/
def ofConfigWith (c : Config) (backend : SearchBackend σ) (identityState : IdentityState σ) :
    Step σ (DuplicateService σ) := do
  Step.ofExcept ConfigError.toService c.validate
  let table ← Step.ofExcept RuleError.toService (CatalogTable.ofConfig c.attributes)
  let rules ← Step.ofExcept id (ConfiguredRules.ofConfig c.rules)
  let registry ← RuleRegistry.load (rules.repository σ)
  pure (ofParts c.matching table.catalog registry backend identityState)

/-- The service of a valid configuration that asks the search engine over a transport and in which
nothing is excluded or merged. -/
def ofConfig (c : Config) (transport : Transport σ) : Step σ (DuplicateService σ) := do
  Step.ofExcept ConfigError.toService c.validate
  let client ← Step.ofExcept (fun e : ClientError => e.toBackend.toService)
    (SearchClient.ofSettings c.backend c.matching.identityKeyField)
  ofConfigWith c (client.backend transport) (.empty σ)

variable (s : DuplicateService σ)

def observe (values : List (String × String)) : Observation := .ofValues s.catalog values

/-- The cap of a request, or else the configured one. -/
def cap (requested : UInt32) : UInt32 :=
  if 0 < requested then requested else s.matching.maxResults

/-- Runs searches and drops what does not survive. -/
def run (ds : List Descriptor) (base ruleCode : Option String) (maxResults : UInt32) :
    Step σ ResultSet := do
  let results ← s.backend.execute ds s.matching.pageSize (s.cap maxResults)
  results.survivors s.identityState base ruleCode

/-- The matches of a rule; one that cannot apply has none. -/
def evaluateRule (rule : Rule) (o : Observation) (base : Option String) (context : RequestContext)
    (maxResults : UInt32) : Step σ ResultSet :=
  if rule.canApply o then do
    let ds ← Step.ofExcept RuleError.toService (rule.generate s.catalog s.options o context)
    s.run ds base (some rule.code) maxResults
  else pure .empty

/-! ### Sweeps -/

/-- Whether a rule is evaluated no later than another. -/
def sweepLe (a b : Rule) : Bool := decide (a.priority ≤ b.priority)

/-- Evaluates rules in order. -/
def sweep (o : Observation) (base : String) (context : RequestContext) :
    List Rule → Step σ (List RuleReport)
  | [] => pure []
  | rule :: rules => do
      let outcome ← ExceptT.mk do
        match ← (s.evaluateRule rule o (some base) context 0).run, s.failureMode with
        | .ok results, _ => pure (.ok (RuleOutcome.found results))
        | .error e, .strict => pure (.error e)
        | .error e, .lenient => pure (.ok (RuleOutcome.failed e.message))
      let rest ← sweep o base context rules
      pure (⟨rule.code, rule.priority, outcome⟩ :: rest)

/-- Evaluates rules by priority. -/
def findDuplicates (request : SweepRequest) (rules : List Rule) : Step σ DuplicateReport := do
  let reports ← s.sweep (s.observe request.values) request.baseIdentityKey
    { sourceFields := request.attributesFilter } (rules.mergeSort sweepLe)
  pure ⟨reports⟩

/-- Evaluates every rule of the registry. -/
def findAllDuplicates (request : SweepRequest) : Step σ DuplicateReport :=
  s.findDuplicates request s.registry.snapshot.rules

/-! ### Single searches -/

/-- The matches of the rule with a code, in which blanks around it do not count. -/
def findRuleDuplicates (request : RuleSearchRequest) : Step σ ResultSet := do
  let rule ← Step.ofExcept id (s.registry.get (Text.trim request.ruleCode))
  s.evaluateRule rule (s.observe request.values) request.baseIdentityKey
    { connected := request.connectedOnly, sourceFields := request.attributesFilter }
    request.maxResults

/-- Runs the search of a request that needs at least one value. -/
def searchAttributes (request : AttributeSearchRequest) (query : QueryRequest) :
    Step σ ResultSet := do
  let ds ← Step.ofExcept RuleError.toService (query.build s.catalog s.options
    { connected := request.connectedOnly, sourceFields := request.attributesFilter })
  if ds.isEmpty then throw (.invalidRequest .noAttributeValue)
  s.run ds request.baseIdentityKey none request.maxResults

/-- The identities that match every supplied attribute. -/
def searchBasic (request : AttributeSearchRequest) : Step σ ResultSet :=
  s.searchAttributes request (.basic (s.observe request.values))

/-- The identities whose names are near; other attributes only raise the score. -/
def searchNear (request : AttributeSearchRequest) : Step σ ResultSet :=
  s.searchAttributes request (.near (s.observe request.values))

/-- The identity with a key, in which blanks around it do not count. -/
def getIdentity (identityKey : String) : Step σ (Option ScoredHit) := do
  let key := Text.trim identityKey
  if key.isEmpty then throw (.invalidRequest .blankIdentityKey)
  let ds ← Step.ofExcept RuleError.toService
    ((QueryRequest.byIdentityKey key).build s.catalog s.options {})
  let results ← s.backend.execute ds 1 1
  pure (results.get? key)

end DuplicateService

end Lookalike
