import Lookalike.Proofs.WellFormedQueries

/-! # Searches near names

A search near names treats each attribute in one of three ways, and the clause is always that of the
attribute under some treatment: one that is to be absent stays so, any other name is approximated, and a
plain attribute that is there is compared strictly.  Only the last kind is not required (`isScored`).

Main statement: `synthesizeNear_agrees`.  Where names are approximated anyway, the search near names
requires what the search for all attributes requires, less the plain attributes that are there. -/

namespace Lookalike

/-- Whether an attribute only adds to the score of a search near names: it is plain, and it is not to be
absent. -/
def WorkingAttribute.isScored (w : WorkingAttribute) : Bool :=
  decide (w.treatment ≠ .absent) && !w.observed.kind.isName

/-- The attribute under another treatment. -/
def WorkingAttribute.treated (w : WorkingAttribute) (treatment : Treatment) : WorkingAttribute :=
  { w with treatment }

/-- What a search near names requires of an attribute that it does not score: an absence, or else the
approximate value. -/
def WorkingAttribute.nearRequired (w : WorkingAttribute) : WorkingAttribute :=
  if w.treatment = .absent then w else w.treated .approximated

namespace SynthesisOptions

variable (options : SynthesisOptions) (w : WorkingAttribute)

/-! ### One attribute -/

theorem nearMust_eq :
    options.nearMust w =
      if !w.isScored then some (options.attributeClause w.nearRequired) else none := by
  obtain ⟨a, t⟩ := w
  unfold nearMust WorkingAttribute.nearRequired WorkingAttribute.isScored attributeClause
  cases t with
  | absent => rfl
  | _ =>
      cases hkind : a.kind <;>
        simp [hkind, FieldKind.isName, WorkingAttribute.treated, familyNameClause, firstNameClause]

theorem nearShould_eq :
    w.nearShould =
      if w.isScored then some (options.attributeClause (w.treated .strict)) else none := by
  obtain ⟨a, t⟩ := w
  unfold WorkingAttribute.nearShould WorkingAttribute.isScored attributeClause
  cases t with
  | absent => rfl
  | _ =>
      cases hkind : a.kind <;>
        simp [hkind, FieldKind.isName, WorkingAttribute.treated, plainClause]

theorem attributeClause_nearForm :
    options.attributeClause w.nearForm =
      if w.isScored then options.attributeClause (w.treated .strict)
      else options.attributeClause w.nearRequired := by
  obtain ⟨a, t⟩ := w
  unfold WorkingAttribute.nearForm WorkingAttribute.isScored WorkingAttribute.nearRequired
  cases t with
  | absent => rfl
  | _ => cases hkind : a.kind <;> simp [FieldKind.isName, WorkingAttribute.treated]

/-! ### All attributes -/

variable (working : List WorkingAttribute) (connected : Bool)

theorem must_synthesizeNear :
    (options.synthesizeNear working connected).must =
      (working.filter (!·.isScored)).map (fun w => options.attributeClause w.nearRequired) ++
        if connected then options.connectedClauses else [] := by
  unfold synthesizeNear
  rw [map_filter_eq_filterMap, List.filterMap_congr fun w _ => options.nearMust_eq w]

theorem should_synthesizeNear :
    (options.synthesizeNear working connected).should =
      (working.filter (·.isScored)).map fun w => options.attributeClause (w.treated .strict) := by
  unfold synthesizeNear
  rw [map_filter_eq_filterMap, List.filterMap_congr fun w _ => options.nearShould_eq w]

/-- Every attribute gives one clause, required or scored. -/
theorem perm_synthesizeNear :
    ((options.synthesizeNear working connected).must ++
        (options.synthesizeNear working connected).should).Perm
      ((working.map fun w => options.attributeClause w.nearForm) ++
        if connected then options.connectedClauses else []) := by
  have hrequired : (working.filter (!·.isScored)).map
        (fun w => options.attributeClause w.nearRequired) =
      (working.filter (!·.isScored)).map fun w => options.attributeClause w.nearForm := by
    refine List.map_congr_left fun w hw => ?_
    have hscored := (List.mem_filter.mp hw).2
    rw [attributeClause_nearForm, if_neg (by simpa using hscored)]
  have hscored : (working.filter (·.isScored)).map
        (fun w => options.attributeClause (w.treated .strict)) =
      (working.filter (·.isScored)).map fun w => options.attributeClause w.nearForm := by
    refine List.map_congr_left fun w hw => ?_
    rw [attributeClause_nearForm, if_pos (List.mem_filter.mp hw).2]
  have hparts := List.perm_append_comm.trans
    (List.filter_append_perm (fun w : WorkingAttribute => w.isScored) working)
  rw [must_synthesizeNear, should_synthesizeNear, hrequired, hscored, List.append_assoc]
  refine (List.perm_append_comm.append_left _).trans ?_
  rw [← List.append_assoc, ← List.map_append]
  exact (hparts.map _).append_right _

/-- Where names are approximated anyway, what is required near names is what an attribute requires. -/
theorem nearRequired_eq_self {w : WorkingAttribute} (hscored : w.isScored = false)
    (htreated : w.observed.kind.isName = true → w.treatment = .approximated ∨ w.treatment = .absent) :
    w.nearRequired = w := by
  unfold WorkingAttribute.nearRequired
  split_ifs with habsent
  · rfl
  · have hname : w.observed.kind.isName = true := by
      simpa [WorkingAttribute.isScored, habsent] using hscored
    have happroximated := (htreated hname).resolve_right habsent
    unfold WorkingAttribute.treated
    rw [← happroximated]

end SynthesisOptions

/-! ### Requests -/

/-- A search near names requires, in the order of the attributes, the absence of each that is to be absent
and the approximate value of every other name, and a connection if one is asked for; it scores the strict
value of every plain attribute that is there, so each attribute gives one clause.  Where an observation
approximates all its names or asks for their absence, the search near names requires what the search for
all attributes does, less the plain attributes that are there. -/
theorem synthesizeNear_agrees (options : SynthesisOptions) :
    (∀ (working : List WorkingAttribute) (connected : Bool),
      let near := options.synthesizeNear working connected
      let connection : List Clause := if connected then
        [.fieldPresent options.connectionIdField, .fieldPresent options.loginField] else []
      near.must = (working.filter (!·.isScored)).map (fun w => options.attributeClause
          (if w.treatment = .absent then w else ⟨w.observed, .approximated⟩)) ++ connection ∧
        near.should = (working.filter (·.isScored)).map (fun w =>
          options.attributeClause ⟨w.observed, .strict⟩) ∧
        (near.must ++ near.should).Perm
          (working.map (fun w => options.attributeClause w.nearForm) ++ connection)) ∧
    ∀ (o : Observation) (catalog : AttributeCatalog) (context : RequestContext),
      (∀ a ∈ o.attributes, a.kind.isName = true →
        a.treatment = .approximated ∨ a.treatment = .absent) →
      let connection : List Clause := if context.connected then
        [.fieldPresent options.connectionIdField, .fieldPresent options.loginField] else []
      ∃ nears basics, (QueryRequest.near o).build catalog options context = .ok nears ∧
        (QueryRequest.basic o).build catalog options context = .ok basics ∧
        if o.isEmpty then nears = [] ∧ basics = []
        else ∃ near basic, nears = [near] ∧ basics = [basic] ∧
          basic.must = o.working.map options.attributeClause ++ connection ∧
          near.must = (o.working.filter (!·.isScored)).map options.attributeClause ++ connection := by
  refine ⟨fun working connected => ⟨options.must_synthesizeNear working connected,
    options.should_synthesizeNear working connected, options.perm_synthesizeNear working connected⟩, ?_⟩
  intro o catalog context htreated connection
  have hnear : (QueryRequest.near o).build catalog options context = if o.isEmpty then .ok [] else
    .ok [context.project (options.synthesizeNear o.working context.connected)] := rfl
  have hbasic : (QueryRequest.basic o).build catalog options context = if o.isEmpty then .ok [] else
    .ok [context.project (options.synthesize o.working context.connected)] := rfl
  rw [hnear, hbasic]
  split_ifs with hempty
  · exact ⟨[], [], rfl, rfl, rfl, rfl⟩
  · refine ⟨_, _, rfl, rfl, _, _, rfl, rfl, rfl, ?_⟩
    show (options.synthesizeNear o.working context.connected).must = _
    rw [SynthesisOptions.must_synthesizeNear]
    congr 1
    refine List.map_congr_left fun w hw => ?_
    obtain ⟨hworking, hscored⟩ := List.mem_filter.mp hw
    obtain ⟨a, ha, rfl⟩ := List.mem_map.mp hworking
    rw [SynthesisOptions.nearRequired_eq_self (by simpa using hscored) (htreated a ha)]

/-- Two names and an address: a first name of two words that is approximated in two fields, a family name
that must be absent, and an address that would be approximated by itself. -/
def namesAndMail : Observation :=
  .ofList [
    { key := "firstName", value := "Jean  Paul", treatment := .approximated,
      outputKeys := ["firstName", "usageFirstName"], kind := .firstName },
    { key := "email", value := "a@b", treatment := .approximated, outputKeys := ["email"],
      kind := .plain },
    { key := "familyName", value := "Goff", treatment := .absent, outputKeys := ["familyName"],
      kind := .familyName }]

/-- The address is the only one of the three that is not required near names. -/
theorem synthesizeNear_agrees_namesAndMail :
    (∀ a ∈ namesAndMail.attributes, a.kind.isName = true →
      a.treatment = .approximated ∨ a.treatment = .absent) ∧
    ∃ near basic, (QueryRequest.near namesAndMail).build CatalogTable.person.catalog (.ofMatching {})
        { connected := true } = .ok [near] ∧
      (QueryRequest.basic namesAndMail).build CatalogTable.person.catalog (.ofMatching {})
        { connected := true } = .ok [basic] ∧
      ∃ first mail family connection login, basic.must = [first, mail, family, connection, login] ∧
        near.must = [first, family, connection, login] := by
  have htreated : ∀ a ∈ namesAndMail.attributes, a.kind.isName = true →
      a.treatment = .approximated ∨ a.treatment = .absent := by decide
  obtain ⟨nears, basics, hnears, hbasics, hmust⟩ := (synthesizeNear_agrees (.ofMatching {})).2
    namesAndMail CatalogTable.person.catalog { connected := true } htreated
  rw [if_neg (by decide)] at hmust
  obtain ⟨near, basic, rfl, rfl, hbasic, hnear⟩ := hmust
  exact ⟨htreated, near, basic, hnears, hbasics, _, _, _, _, _, hbasic, hnear⟩

end Lookalike
