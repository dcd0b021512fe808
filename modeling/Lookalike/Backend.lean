import Lookalike.Descriptor
import Lookalike.ResultSet

/-! # Search engines and identity states

Matching talks to two parties.  A search backend answers a batch of searches for one window of their
hits; an identity state knows which candidates were excluded by hand and which were merged.  Both may
fail, and both may change the world, a value of type `σ`, by being asked. -/

namespace Lookalike

/-- Why an identity state has no answer. -/
structure StateError where
  message : String
deriving DecidableEq

def StateError.display (e : StateError) : String :=
  "Identity state lookup failed: " ++ e.message

/-- What kept a request from being answered over the network, in the words of the transport. -/
structure TransportError where
  failed ::
  message : String
  timedOut : Bool
deriving DecidableEq

/-- How a backend fails. -/
inductive BackendErrorKind where
  | unavailable
  | timeout
  | invalidResponse
deriving DecidableEq

def BackendErrorKind.display : BackendErrorKind → String
  | unavailable => "backend unavailable"
  | timeout => "backend timeout"
  | invalidResponse => "invalid backend response"

/-- What lies behind the failure of a backend. -/
inductive BackendCause where
  | state (e : StateError)
  | transport (e : TransportError)
  | notJson (reason : String)
  | headerName
  | headerValue
deriving DecidableEq

def BackendCause.display : BackendCause → String
  | state e => e.display
  | transport e => e.message
  | notJson reason => reason
  | headerName => "invalid HTTP header name"
  | headerValue => "failed to parse header value"

/-- The failure of a backend. -/
structure BackendError where
  kind : BackendErrorKind
  message : String
  cause : Option BackendCause := none
deriving DecidableEq

def BackendError.display (e : BackendError) : String := e.kind.display ++ ": " ++ e.message

/-- The hits that a batch asks for: how many to leave out and how many to give at most. -/
structure Window where
  offset : Nat
  size : Nat
deriving DecidableEq

/-- What answers searches: page `i` of an answer belongs to search `i` of the batch. -/
structure SearchBackend (σ : Type) where
  search : List Descriptor → Window → StateM σ (Except BackendError (List SearchPage))

/-- What knows of manual exclusions and of merged identities. -/
structure IdentityState (σ : Type) where
  isExcluded : String → String → StateM σ (Except StateError Bool)
  isMerged : String → StateM σ (Except StateError Bool)

/-- The state in which nothing is excluded or merged. -/
def IdentityState.empty (σ : Type) : IdentityState σ where
  isExcluded _ _ := pure (.ok false)
  isMerged _ := pure (.ok false)

/-! ### Stand-ins -/

/-- An identity state that is held in memory. -/
structure MemoryState where
  excluded : List (String × String) := []
  merged : List String := []
  failing : Bool := false

/-- The answers of a state in memory; one that fails does so at every look-up. -/
def MemoryState.identityState (m : MemoryState) (σ : Type) : IdentityState σ where
  isExcluded candidate base := pure <|
    if m.failing then .error ⟨"exclusion store offline"⟩
    else .ok (m.excluded.contains (candidate, base))
  isMerged candidate := pure <|
    if m.failing then .error ⟨"merge store offline"⟩ else .ok (m.merged.contains candidate)

/-- A backend with a fixed list of hits per marker and one for all other searches. -/
structure ScriptedBackend where
  byMarker : KeyMap (List (String × Binary64)) := ∅
  unmarked : List (String × Binary64) := []
  failOnCall : Option Nat := none
  dropResponses : Bool := false

namespace ScriptedBackend

def hitsOf (b : ScriptedBackend) (d : Descriptor) : List (String × Binary64) :=
  (d.label.bind b.byMarker.get?).getD b.unmarked

def greatest : List Binary64 → Option Binary64
  | [] => none
  | x :: xs => some (xs.foldl Binary64.max x)

/-- A window of the hits of a search. -/
def page (b : ScriptedBackend) (d : Descriptor) (w : Window) : SearchPage :=
  let hits := b.hitsOf d
  let cut := ((hits.drop w.offset).take w.size).map fun h =>
    { identityKey := h.1, score := h.2,
      document := .obj [("identity_key", .string h.1)] : ScoredHit }
  { total := UInt64.ofNat hits.length, maxScore := greatest (cut.map (·.score)), hits := cut }

/-- The answer to the call with a number, counted from zero. -/
def answer (b : ScriptedBackend) (call : Nat) (ds : List Descriptor) (w : Window) :
    Except BackendError (List SearchPage) :=
  if b.failOnCall = some call then
    .error { kind := .unavailable
             message := "Scripted failure on call " ++ Nat.repr call ++ "." }
  else if b.dropResponses then .ok []
  else .ok (ds.map fun d => b.page d w)

/-- The backend; the world is the list of calls so far, the latest first. -/
def backend (b : ScriptedBackend) : SearchBackend (List (List Descriptor × Window)) where
  search ds w := do
    let calls ← get
    set ((ds, w) :: calls)
    pure (b.answer calls.length ds w)

end ScriptedBackend

end Lookalike
