import Lookalike.Observation
import Lookalike.Config.Validation

/-! # Rules

A rule names the attributes it checks, how many of them must be there, how many must agree and how
many must be missing, and groups of attributes that are treated in a way of their own.  It applies to
an observation that holds enough of the attributes it checks.  A configured rule is refused unless it
is valid. -/

namespace Lookalike

/-- A named group of attributes that a rule treats together. -/
structure TreatmentGroup where
  name : String
  attributes : List AttributeKey
deriving DecidableEq

/-- Whether one of some keys belongs to the group. -/
def TreatmentGroup.overlaps (g : TreatmentGroup) (keys : List String) : Bool :=
  keys.any fun key => g.attributes.any fun a => a.name == key

/-- A rule that compares identities. -/
structure Rule where
  code : String
  priority : Int := 0
  checkedAttributes : List AttributeKey := []
  nbFilledAttributes : Nat := 0
  nbEqualAttributes : Nat := 0
  nbMissingAttributes : Nat := 0
  connected : Bool := false
  treatmentGroups : List TreatmentGroup := []
deriving DecidableEq

namespace Rule

/-- The checked attributes that are observed, in the order of the rule. -/
def presentAttributes (r : Rule) (o : Observation) : List AttributeKey :=
  r.checkedAttributes.filter fun a => o.contains a.name

/-- Whether enough of the checked attributes are observed; a rule that checks none never applies. -/
def canApply (r : Rule) (o : Observation) : Bool :=
  !r.checkedAttributes.isEmpty &&
    decide (r.nbFilledAttributes ≤ (r.presentAttributes o).length)

def keyOfConfig (a : RuleAttributeConfig) : Except RuleError AttributeKey :=
  match a.treatment with
  | none => .ok { name := a.key }
  | some word => do pure { name := a.key, treatment := some (← Treatment.parse word) }

def groupOfConfig (g : TreatmentGroupConfig) : Except RuleError TreatmentGroup := do
  let attributes ← g.attributes.mapM keyOfConfig
  pure { name := g.name, attributes }

/-- The rule of a valid configured one. -/
def ofConfig (c : RuleConfig) : Except RuleError Rule := do
  c.validate.mapError fun fault => .invalidRule c.code fault.message
  let checkedAttributes ← c.checkedAttributes.mapM keyOfConfig
  let treatmentGroups ← c.treatmentGroups.mapM groupOfConfig
  pure {
    code := c.code
    priority := c.priority
    checkedAttributes
    nbFilledAttributes := c.nbFilledAttributes
    nbEqualAttributes := c.nbEqualAttributes
    nbMissingAttributes := c.nbMissingAttributes
    connected := c.connected
    treatmentGroups }

end Rule

end Lookalike
