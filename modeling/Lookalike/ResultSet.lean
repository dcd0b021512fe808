import Lookalike.Json.Record

/-! # Search results

A page answers one search; a result set gathers the hits of many, one per identity.  When an identity
is found again the higher score is kept with its document, and the markers of both are.  `ranked`
lists the hits by falling score, then by key. -/

namespace Lookalike

/-- An identity that a search found. -/
structure ScoredHit where
  identityKey : String
  score : Binary64
  document : Json
  markers : KeySet := ∅
  ruleCode : Option String := none

/-- The answer to one search for one window of its hits. -/
structure SearchPage where
  total : UInt64
  maxScore : Option Binary64 := none
  hits : List ScoredHit := []

/-- The hits of many searches, one per identity. -/
structure ResultSet where
  hits : KeyMap ScoredHit := ∅
  maxScore : Binary64 := .zero
  markers : KeySet := ∅

namespace ScoredHit

instance : Inhabited ScoredHit := ⟨{ identityKey := "", score := .zero, document := .null }⟩

/-- The hit when its identity is found again. -/
def absorb (h other : ScoredHit) : ScoredHit :=
  let markers := h.markers.union other.markers
  if h.score.lt other.score then
    { h with score := other.score, document := other.document, markers }
  else { h with markers }

/-- Whether a hit is listed no later than another. -/
def rankLe (a b : ScoredHit) : Bool :=
  decide (b.score.rank < a.score.rank) ||
    (decide (a.score.rank = b.score.rank) && decide (a.identityKey ≤ b.identityKey))

end ScoredHit

namespace ResultSet

def empty : ResultSet := {}

instance : Inhabited ResultSet := ⟨empty⟩

def size (s : ResultSet) : Nat := s.hits.size

def contains (s : ResultSet) (key : String) : Bool := s.hits.contains key

def get? (s : ResultSet) (key : String) : Option ScoredHit := s.hits.get? key

def insert (s : ResultSet) (h : ScoredHit) : ResultSet :=
  { s with
    hits := s.hits.insert h.identityKey <|
      match s.hits.get? h.identityKey with
      | some found => found.absorb h
      | none => h }

/-- The hits by falling score, then by key. -/
def ranked (s : ResultSet) : List ScoredHit := s.hits.values.mergeSort ScoredHit.rankLe

end ResultSet

/-! ### Results in JSON -/

namespace ScoredHit

def ofJson? (v : Json) : Option ScoredHit := do
  let r ← Record.ofJson? .refused 5 v
  let identityKey ← r.required 0 "identity_key" Json.string?
  let score ← r.required 1 "score" Json.number?
  let document ← r.required 2 "document" some
  let markers ← r.withDefault 3 "matched_markers" [] (Json.list? Json.string?)
  let ruleCode ← r.withDefault 4 "rule_code" none (Json.orNull? Json.string?)
  pure { identityKey, score, document, markers := .ofList markers, ruleCode }

def toJson (h : ScoredHit) : Json :=
  .obj <| [
    ("identity_key", .string h.identityKey),
    ("score", .float h.score),
    ("document", h.document),
    ("matched_markers", .strings h.markers.toList)] ++
    match h.ruleCode with
    | none => []
    | some code => [("rule_code", .string code)]

end ScoredHit

namespace SearchPage

def ofJson? (v : Json) : Option SearchPage := do
  let r ← Record.ofJson? .refused 3 v
  let total ← r.required 0 "total" Json.word?
  let maxScore ← r.optional 1 "max_score" Json.number?
  let hits ← r.required 2 "hits" (Json.list? ScoredHit.ofJson?)
  pure { total, maxScore, hits }

def toJson (p : SearchPage) : Json :=
  .obj [
    ("total", .nat p.total.toNat),
    ("max_score", Json.nullable .float p.maxScore),
    ("hits", .array (p.hits.map (·.toJson)))]

end SearchPage

namespace ResultSet

/-- Reads a result set, in which each hit is filed under the key that is given. -/
def ofJson? (v : Json) : Option ResultSet := do
  let r ← Record.ofJson? .refused 3 v
  let hits ← r.required 0 "hits" (Json.entries? ScoredHit.ofJson?)
  let maxScore ← r.required 1 "max_score" Json.number?
  let markers ← r.required 2 "matched_markers" (Json.list? Json.string?)
  pure { hits := .ofList hits, maxScore, markers := .ofList markers }

def toJson (s : ResultSet) : Json :=
  .obj [
    ("hits", .obj (s.hits.toList.map fun e => (e.1, e.2.toJson))),
    ("max_score", .float s.maxScore),
    ("matched_markers", .strings s.markers.toList)]

end ResultSet

end Lookalike
