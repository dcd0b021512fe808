import Lookalike.Rule
import Lookalike.ServiceError

/-! # Rule registries

A repository is a source of rules that may change or fail at any time.  A registry keeps a snapshot
of it: all rules by priority, then by code.  A refresh takes a whole new snapshot, or keeps the old
one when the repository fails at any point; a snapshot itself never changes. -/

namespace Lookalike

/-- All rules at one time, by priority, then by code. -/
structure RuleSnapshot where
  rules : List Rule

namespace RuleSnapshot

/-- Whether a rule is listed no later than another. -/
def ruleLe (a b : Rule) : Bool :=
  decide (a.priority < b.priority) ||
    (decide (a.priority = b.priority) && decide (a.code ≤ b.code))

/-- The snapshot of some rules; equal ones keep their order. -/
def ofRules (rules : List Rule) : RuleSnapshot := ⟨rules.mergeSort ruleLe⟩

def empty : RuleSnapshot := ⟨[]⟩

/-- The first rule with a code. -/
def get? (s : RuleSnapshot) (code : String) : Option Rule := s.rules.find? (·.code == code)

def codes (s : RuleSnapshot) : List String := s.rules.map (·.code)

def size (s : RuleSnapshot) : Nat := s.rules.length

end RuleSnapshot

/-! ### Repositories -/

/-- A source of rules. -/
structure RuleRepository (σ : Type) where
  get : String → Step σ Rule
  listCodes : Step σ (List String)

/-- The configured rules by code. -/
structure ConfiguredRules where
  byCode : KeyMap Rule

namespace ConfiguredRules

/-- The rules of a list; of several with one code the last counts. -/
def ofRules (rules : List Rule) : ConfiguredRules := ⟨.ofList (rules.map fun r => (r.code, r))⟩

/-- Adds a configured rule whose code must be new. -/
def add (rules : KeyMap Rule) (c : RuleConfig) : Except ServiceError (KeyMap Rule) := do
  let rule ← (Rule.ofConfig c).mapError RuleError.toService
  if rules.contains rule.code then .error (.invalidRule (.declaredTwice c.code))
  else pure (rules.insert rule.code rule)

/-- The configured rules, which must be valid and have distinct codes. -/
def ofConfig (rules : List RuleConfig) : Except ServiceError ConfiguredRules := do
  let byCode ← rules.foldlM add ∅
  pure ⟨byCode⟩

/-- The rules as a source, which never changes and fails only for an unknown code. -/
def repository (r : ConfiguredRules) (σ : Type) : RuleRepository σ where
  get code :=
    match r.byCode.get? code with
    | some rule => pure rule
    | none => throw (.ruleNotFound code)
  listCodes := pure (RuleSnapshot.ofRules r.byCode.values).codes

end ConfiguredRules

/-! ### Registries -/

/-- A snapshot of a repository. -/
structure RuleRegistry where
  snapshot : RuleSnapshot

namespace RuleRegistry

variable {σ : Type}

def empty : RuleRegistry := ⟨.empty⟩

/-- The rules of some codes. -/
def fetch (repository : RuleRepository σ) : List String → Step σ (List Rule)
  | [] => pure []
  | code :: codes => do
      let rule ← repository.get code
      let rules ← fetch repository codes
      pure (rule :: rules)

/-- A new snapshot of a repository. -/
def take (repository : RuleRepository σ) : Step σ RuleSnapshot := do
  let codes ← repository.listCodes
  let rules ← fetch repository codes
  pure (.ofRules rules)

/-- Takes a new snapshot, or keeps the old one on a failure; also the number of rules. -/
def refresh (registry : RuleRegistry) (repository : RuleRepository σ) :
    StateM σ (Except ServiceError Nat × RuleRegistry) := do
  match ← (take repository).run with
  | .ok snapshot => pure (.ok snapshot.size, ⟨snapshot⟩)
  | .error e => pure (.error e, registry)

/-- The registry of a repository that can be read. -/
def load (repository : RuleRepository σ) : Step σ RuleRegistry := do
  let snapshot ← take repository
  pure ⟨snapshot⟩

/-- The rule with a code, if the snapshot has one. -/
def get? (registry : RuleRegistry) (code : String) : Option Rule := registry.snapshot.get? code

def get (registry : RuleRegistry) (code : String) : Except ServiceError Rule :=
  match registry.get? code with
  | some rule => .ok rule
  | none => .error (.ruleNotFound code)

end RuleRegistry

end Lookalike
