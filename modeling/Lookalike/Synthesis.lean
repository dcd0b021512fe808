import Lookalike.Descriptor
import Lookalike.Observation
import Lookalike.PersonName

/-! # From attributes to clauses

Every attribute of a working set gives one clause by its kind and its treatment.  Plain values match
as they are; family names match as phrases, first names as phrases in normal form, and a near match
of either compares normal forms, that of a first name of several words as words in their order.
`synthesize` requires all clauses; `synthesizeNear` requires names only, each nearly, and lets
other attributes add to the score. -/

namespace Lookalike

/-- The settings of clauses. -/
structure SynthesisOptions where
  fuzziness : UInt8
  identityKeyField : String
  connectionIdField : String
  loginField : String
deriving DecidableEq

/-- An observed attribute with the treatment that it gets in one search. -/
structure WorkingAttribute where
  observed : ObservedAttribute
  treatment : Treatment
deriving DecidableEq

def WorkingAttribute.key (w : WorkingAttribute) : String := w.observed.key

/-- The clause by which an attribute adds to the score of a search near names, if any. -/
def WorkingAttribute.nearShould (w : WorkingAttribute) : Option Clause :=
  match w.treatment, w.observed.kind with
  | .absent, _ => none
  | _, .plain => some (.matching w.observed.outputKeys w.observed.value .exact)
  | _, _ => none

namespace SynthesisOptions

def ofMatching (m : Matching) : SynthesisOptions where
  fuzziness := m.fuzziness
  identityKeyField := m.identityKeyField
  connectionIdField := m.connectionIdField
  loginField := m.loginField

variable (o : SynthesisOptions)

/-- A near match. -/
def near : MatchMode := .fuzzy o.fuzziness

/-- A near match of a first name: several words keep their order, in one span per field. -/
def nearFirstName (a : ObservedAttribute) : Clause :=
  let value := PersonName.first a.value
  let terms := PersonName.words value
  if terms.length < 2 then .matching a.outputKeys value o.near
  else
    let slop := UInt32.ofNat (terms.length - 1)
    match a.outputKeys.map fun field => Clause.proximityMatch field terms slop o.fuzziness with
    | [span] => span
    | spans => .anyOf spans

def plainClause (a : ObservedAttribute) : Treatment → Clause
  | .approximated => .matching a.outputKeys a.value o.near
  | .different => .negatedMatch (.matching a.outputKeys a.value .exact)
  | _ => .matching a.outputKeys a.value .exact

def familyNameClause (a : ObservedAttribute) : Treatment → Clause
  | .approximated => .matching a.outputKeys (PersonName.family a.value) o.near
  | .different => .negatedMatch (.matching a.outputKeys a.value .phrase)
  | _ => .matching a.outputKeys a.value .phrase

def firstNameClause (a : ObservedAttribute) : Treatment → Clause
  | .approximated => o.nearFirstName a
  | .different => .negatedMatch (.matching a.outputKeys (PersonName.first a.value) .phrase)
  | _ => .matching a.outputKeys (PersonName.first a.value) .phrase

/-- The clause of an attribute. -/
def attributeClause (w : WorkingAttribute) : Clause :=
  if w.treatment = .absent then .fieldAbsent w.observed.outputKeys
  else
    match w.observed.kind with
    | .plain => o.plainClause w.observed w.treatment
    | .familyName => o.familyNameClause w.observed w.treatment
    | .firstName => o.firstNameClause w.observed w.treatment

/-- What a connected identity has: an identifier of its connection and a login. -/
def connectedClauses : List Clause :=
  [.fieldPresent o.connectionIdField, .fieldPresent o.loginField]

/-- The search that requires every attribute of a working set. -/
def synthesize (working : List WorkingAttribute) (connected : Bool) : Descriptor where
  must := working.map o.attributeClause ++ if connected then o.connectedClauses else []

/-- The clause that a search near names requires of an attribute, if any. -/
def nearMust (w : WorkingAttribute) : Option Clause :=
  match w.treatment, w.observed.kind with
  | .absent, _ => some (o.attributeClause w)
  | _, .firstName => some (o.nearFirstName w.observed)
  | _, .familyName =>
      some (.matching w.observed.outputKeys (PersonName.family w.observed.value) o.near)
  | _, .plain => none

/-- The search that requires names nearly and lets other attributes add to the score. -/
def synthesizeNear (working : List WorkingAttribute) (connected : Bool) : Descriptor where
  must := working.filterMap o.nearMust ++ if connected then o.connectedClauses else []
  should := working.filterMap (·.nearShould)

/-- The search for the identity with a key. -/
def identityKey (key : String) : Descriptor where
  must := [.exactMatch o.identityKeyField key]

end SynthesisOptions

end Lookalike
