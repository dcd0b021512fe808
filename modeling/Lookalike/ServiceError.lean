import Lookalike.Attribute
import Lookalike.Backend
import Lookalike.Config.Validation

/-! # Errors of matching

`ServiceError` says why matching did not give a result; its text starts with the kind of failure.
The failures of the other layers become such errors by `RuleError.toService`,
`ConfigError.toService`, `StateError.toService` and `BackendError.toService`. -/

namespace Lookalike

/-- What is wrong with a request. -/
inductive RequestFault where
  | zeroPageSize
  | blankIdentityKey
  | noAttributeValue
  | unusable (e : RuleError)
deriving DecidableEq

def RequestFault.message : RequestFault → String
  | zeroPageSize => "page_size must be greater than zero."
  | blankIdentityKey => "identity_key must not be empty."
  | noAttributeValue => "At least one attribute value is required."
  | unusable e => e.message

/-- What is wrong with a rule. -/
inductive RuleFault where
  | rejected (e : RuleError)
  | declaredTwice (code : String)
deriving DecidableEq

def RuleFault.message : RuleFault → String
  | rejected e => e.message
  | declaredTwice code => "Rule code " ++ code ++ " is declared twice."

/-- How the answer to a batch does not fit it. -/
inductive MergeFault where
  | noResponses
  | countMismatch (responses descriptors : Nat)
deriving DecidableEq

def MergeFault.message : MergeFault → String
  | noResponses => "Search backend returned no responses for the batch."
  | countMismatch responses descriptors =>
      "Search backend returned " ++ Nat.repr responses ++ " responses for " ++
        Nat.repr descriptors ++ " descriptors."

/-- Why matching gave no result. -/
inductive ServiceError where
  | ruleNotFound (code : String)
  | invalidRequest (fault : RequestFault)
  | invalidConfig (fault : ConfigError)
  | invalidRule (fault : RuleFault)
  | backendUnavailable (source : BackendError)
  | backendTimeout (source : BackendError)
  | aggregation (fault : MergeFault)
  | identityState (reason : String)
deriving DecidableEq

def ServiceError.message : ServiceError → String
  | ruleNotFound code => "Rule " ++ code ++ " not found."
  | invalidRequest fault => "Invalid request: " ++ fault.message
  | invalidConfig fault => "Invalid configuration: " ++ fault.message
  | invalidRule fault => "Invalid rule: " ++ fault.message
  | backendUnavailable source => "Search backend unavailable: " ++ source.message
  | backendTimeout source => "Search backend timed out: " ++ source.message
  | aggregation fault => "Aggregation failed: " ++ fault.message
  | identityState reason => "Identity state error: " ++ reason

/-- Only a timeout is told apart from the other failures of a backend. -/
def BackendError.toService (e : BackendError) : ServiceError :=
  match e.kind with
  | .timeout => .backendTimeout e
  | _ => .backendUnavailable e

/-- A refused rule is an invalid rule, any other fault one of the request. -/
def RuleError.toService (e : RuleError) : ServiceError :=
  match e with
  | .invalidRule _ _ => .invalidRule (.rejected e)
  | _ => .invalidRequest (.unusable e)

def ConfigError.toService (e : ConfigError) : ServiceError := .invalidConfig e

def StateError.toService (e : StateError) : ServiceError := .identityState e.message

/-! ### Computations that may fail -/

/-- A step of matching: it may change the world and may fail. -/
abbrev Step (σ : Type) (α : Type) : Type := ExceptT ServiceError (StateM σ) α

/-- A step from a question whose failures become errors of matching. -/
def Step.ask {σ ε α : Type} (toService : ε → ServiceError) (question : StateM σ (Except ε α)) :
    Step σ α :=
  ExceptT.mk (question >>= fun answer => pure (answer.mapError toService))

/-- A step that leaves the world alone. -/
def Step.ofExcept {σ ε α : Type} (toService : ε → ServiceError) (result : Except ε α) :
    Step σ α :=
  ExceptT.mk (pure (result.mapError toService))

theorem Step.ofExcept_ok {σ ε α : Type} (toService : ε → ServiceError) (a : α) :
    (Step.ofExcept toService (.ok a) : Step σ α) = pure a := rfl

theorem Step.ofExcept_error {σ ε α : Type} (toService : ε → ServiceError) (e : ε) :
    (Step.ofExcept toService (.error e) : Step σ α) = throw (toService e) := rfl

end Lookalike
