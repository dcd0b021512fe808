import Lookalike.Combination
import Lookalike.Rule
import Lookalike.Synthesis

/-! # The searches of a request

A rule is searched for in as many ways as its counts allow: each selection of observed attributes
that must agree goes with each treatment group that shares no attribute with it, and with each
selection of the other observed attributes as missing.  `workingSets` lists these sets of attributes
in order, `generate` gives the search of each with its place in the list as marker.  A request that
is not about a rule has one search at most. -/

namespace Lookalike

/-- The settings of all searches of one request. -/
structure RequestContext where
  connected : Bool := false
  sourceFields : List String := []
deriving DecidableEq

/-- Gives a search the projection of a request. -/
def RequestContext.project (c : RequestContext) (d : Descriptor) : Descriptor :=
  { d with sourceFields := c.sourceFields }

namespace Rule

/-- An observed attribute with the treatment that a rule gives it, or else its own. -/
def workingAttribute? (o : Observation) (key : AttributeKey) : Option WorkingAttribute :=
  (o.get? key.name).map fun a => ⟨a, key.treatment.getD a.treatment⟩

/-- The observed attributes that a rule checks. -/
def presentWorking (r : Rule) (o : Observation) : List WorkingAttribute :=
  (r.presentAttributes o).filterMap (workingAttribute? o)

/-- A member of a group; one that is not observed can only be asserted absent. -/
def groupMember? (catalog : AttributeCatalog) (o : Observation) (key : AttributeKey) :
    Option WorkingAttribute :=
  match workingAttribute? o key with
  | some w => some w
  | none =>
      let a := ObservedAttribute.unobserved catalog key.name
      let treatment := key.treatment.getD a.treatment
      if treatment = .absent then some ⟨a, treatment⟩ else none

/-- The groups all of whose members can be used, with these. -/
def usableGroups (r : Rule) (catalog : AttributeCatalog) (o : Observation) :
    List (TreatmentGroup × List WorkingAttribute) :=
  r.treatmentGroups.filterMap fun g =>
    (g.attributes.mapM (groupMember? catalog o)).map fun members => (g, members)

/-- The attributes that must agree, with each group that shares none of them. -/
def withGroups (r : Rule) (groups : List (TreatmentGroup × List WorkingAttribute))
    (equal : List WorkingAttribute) : List (List WorkingAttribute) :=
  if r.treatmentGroups.isEmpty then [equal]
  else
    (groups.filter fun g => !g.1.overlaps (equal.map (·.key))).map fun g => equal ++ g.2

/-- The attributes of a list that a set does not hold, as missing ones. -/
def missingFrom (present working : List WorkingAttribute) : List WorkingAttribute :=
  (present.filter fun w => !(working.map (·.key)).contains w.key).map fun w =>
    ⟨w.observed, .absent⟩

/-- A set with each selection of the remaining attributes as missing ones: the set alone when none
must be missing, and none at all when too few remain. -/
def expandMissing (r : Rule) (present working : List WorkingAttribute) :
    Except RuleError (List (List WorkingAttribute)) :=
  if r.nbMissingAttributes = 0 then .ok [working]
  else
    let remaining := missingFrom present working
    if remaining.length < r.nbMissingAttributes then .ok []
    else do
      let selections ← chooseAll remaining r.nbMissingAttributes
      pure (selections.map (working ++ ·))

/-- The sets of attributes that a rule searches for, in order. -/
def workingSets (r : Rule) (catalog : AttributeCatalog) (o : Observation) :
    Except RuleError (List (List WorkingAttribute)) :=
  if r.canApply o then do
    let present := r.presentWorking o
    let equals ← chooseAll present r.nbEqualAttributes
    let sets ← (equals.flatMap (r.withGroups (r.usableGroups catalog o))).mapM
      (r.expandMissing present)
    pure (sets.flatten.filter fun set => !set.isEmpty)
  else pure []

/-- The searches of a rule for an observation. -/
def generate (r : Rule) (catalog : AttributeCatalog) (options : SynthesisOptions)
    (o : Observation) (context : RequestContext) : Except RuleError (List Descriptor) := do
  let sets ← r.workingSets catalog o
  pure (sets.zipIdx.map fun (set, variant) =>
    context.project
      { options.synthesize set (r.connected || context.connected) with
        marker := some ⟨r.code, variant⟩ })

end Rule

/-- What is searched for. -/
inductive QueryRequest where
  | basic (observation : Observation)
  | complex (rule : Rule) (observation : Observation)
  | near (observation : Observation)
  | byIdentityKey (identityKey : String)

/-- The attributes of an observation with their own treatments. -/
def Observation.working (o : Observation) : List WorkingAttribute :=
  o.attributes.map fun a => ⟨a, a.treatment⟩

namespace QueryRequest

/-- The searches of a request. -/
def build (request : QueryRequest) (catalog : AttributeCatalog) (options : SynthesisOptions)
    (context : RequestContext) : Except RuleError (List Descriptor) :=
  match request with
  | basic o =>
      if o.isEmpty then .ok []
      else .ok [context.project (options.synthesize o.working context.connected)]
  | complex rule o => rule.generate catalog options o context
  | near o =>
      if o.isEmpty then .ok []
      else .ok [context.project (options.synthesizeNear o.working context.connected)]
  | byIdentityKey key => .ok [context.project (options.identityKey key)]

end QueryRequest

/-! ### Facts -/

namespace Rule

/-- A set with each selection of the remaining attributes as missing ones. -/
def withMissing (r : Rule) (present working : List WorkingAttribute) :
    List (List WorkingAttribute) :=
  (combinations (missingFrom present working) r.nbMissingAttributes).map (working ++ ·)

/-- As many attributes as are asked for remain wherever they are selected, so selecting them does not
fail. -/
theorem expandMissing_eq (r : Rule) (present working : List WorkingAttribute) :
    r.expandMissing present working = .ok (r.withMissing present working) := by
  unfold expandMissing withMissing
  split
  · rename_i hnone
    rw [hnone, combinations_zero, List.map_singleton, List.append_nil]
  · dsimp only
    split
    · rename_i hfew
      rw [combinations_eq_nil_of_length_lt hfew, List.map_nil]
    · rename_i henough
      rw [chooseAll_eq, if_neg henough]
      rfl

end Rule

end Lookalike
