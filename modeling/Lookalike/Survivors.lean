import Lookalike.ServiceError

/-! # Hits that survive

Of the hits found for an identity, that identity itself, those excluded by hand and those already
merged are dropped.  The survivors carry the code of the rule that found them, and the markers and
the greatest score of the set are theirs alone.  Hits are looked up in the order of their keys, and
the first look-up that fails ends the work. -/

namespace Lookalike

variable {σ : Type}

/-- Whether the candidate with a key is dropped for a base identity. -/
def IdentityState.drops (state : IdentityState σ) (base : Option String) (key : String) :
    Step σ Bool := do
  match base with
  | none => Step.ask StateError.toService (state.isMerged key)
  | some base =>
      if key = base then pure true
      else do
        let excluded ← Step.ask StateError.toService (state.isExcluded key base)
        if excluded then pure true else Step.ask StateError.toService (state.isMerged key)

namespace ResultSet

def addSurvivor (s : ResultSet) (ruleCode : Option String) (h : ScoredHit) : ResultSet :=
  let h := { h with ruleCode }
  { s with
    maxScore := s.maxScore.max h.score
    markers := s.markers.union h.markers }.insert h

/-- Adds the survivors among some entries. -/
def addSurvivors (state : IdentityState σ) (base ruleCode : Option String) (s : ResultSet) :
    List (String × ScoredHit) → Step σ ResultSet
  | [] => pure s
  | (key, h) :: rest => do
      let dropped ← state.drops base key
      addSurvivors state base ruleCode (if dropped then s else s.addSurvivor ruleCode h) rest

/-- The survivors of a result set. -/
def survivors (results : ResultSet) (state : IdentityState σ) (base ruleCode : Option String) :
    Step σ ResultSet :=
  addSurvivors state base ruleCode .empty results.hits.toList

end ResultSet

end Lookalike
