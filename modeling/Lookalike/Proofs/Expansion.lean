import Lookalike.Generation
import Lookalike.Proofs.Selections

/-! # The expansion of a rule

What `Rule.generate` lists is told here without reference to how it goes about it.  A `Variant` is
the places of the attributes that must agree, the place of a treatment group and the places of the
attributes that must be missing; `IsVariant` says which variants a rule admits for an observation,
`Variant.Before` in which order they come, and `Variant.search` what is searched for by each.

Main statement: `generate_eq_ok_iff`.  A rule succeeds exactly with the searches of all its variants,
each once and in order, numbered from zero. -/

namespace Lookalike

/-! ### Attributes and groups of a rule -/

namespace Rule

variable (r : Rule) (o : Observation)

/-- The checked attributes that are observed, in the order of the rule, each with the treatment that
the rule names or else its own. -/
def items : List WorkingAttribute :=
  r.checkedAttributes.filterMap fun key =>
    (o.get? key.name).map fun a => ⟨a, key.treatment.getD a.treatment⟩

/-- The rule checks something, and enough of it is observed. -/
def AppliesTo : Prop :=
  r.checkedAttributes ≠ [] ∧ r.nbFilledAttributes ≤ (r.items o).length

/-- The groups to choose from; a rule that defines none leaves one choice, that of no group. -/
def groupChoices : List (Option TreatmentGroup) :=
  if r.treatmentGroups = [] then [none] else r.treatmentGroups.map some

end Rule

/-- The attributes that a choice of group names. -/
def choiceKeys : Option TreatmentGroup → List AttributeKey
  | none => []
  | some g => g.attributes

/-- Every attribute named is observed or asserted to be absent. -/
def Usable (catalog : AttributeCatalog) (o : Observation) (keys : List AttributeKey) : Prop :=
  ∀ key ∈ keys, o.contains key.name = true ∨
    key.treatment.getD (catalog.defaultTreatment key.name) = .absent

/-- No attribute named is one of some others. -/
def Apart (keys : List AttributeKey) (ws : List WorkingAttribute) : Prop :=
  ∀ key ∈ keys, ∀ w ∈ ws, w.key ≠ key.name

/-- An attribute of a group as it is searched for; one without value is asserted to be absent. -/
def memberItem (catalog : AttributeCatalog) (o : Observation) (key : AttributeKey) :
    WorkingAttribute :=
  match o.get? key.name with
  | some a => ⟨a, key.treatment.getD a.treatment⟩
  | none => ⟨.unobserved catalog key.name, .absent⟩

/-- An attribute that must be missing. -/
def WorkingAttribute.asMissing (w : WorkingAttribute) : WorkingAttribute := ⟨w.observed, .absent⟩

/-! ### Variants -/

/-- The places of the attributes that must agree, of the group and of the missing attributes. -/
structure Variant where
  equal : List ℕ
  group : ℕ
  missing : List ℕ

namespace Variant

variable (r : Rule) (catalog : AttributeCatalog) (o : Observation) (v : Variant)

def equalItems : List WorkingAttribute := pick (r.items o) v.equal

def groupKeys : List AttributeKey := (r.groupChoices[v.group]?.map choiceKeys).getD []

def missingItems : List WorkingAttribute := pick (r.items o) v.missing

/-- Order by the attributes that must agree, then by group, then by the missing attributes; lists of
places are compared lexicographically. -/
def Before (v w : Variant) : Prop :=
  v.equal < w.equal ∨ v.equal = w.equal ∧
    (v.group < w.group ∨ v.group = w.group ∧ v.missing < w.missing)

/-- All attributes of a variant. -/
def workingSet : List WorkingAttribute :=
  v.equalItems r o ++ (v.groupKeys r).map (memberItem catalog o) ++
    (v.missingItems r o).map WorkingAttribute.asMissing

/-- The search of a variant: what must agree, what the group asks for, what must be missing, and
that the identity is connected if the rule or the request demands it. -/
def search (options : SynthesisOptions) (context : RequestContext) (number : ℕ) : Descriptor where
  must :=
    (v.equalItems r o).map options.attributeClause ++
    (v.groupKeys r).map (fun key => options.attributeClause (memberItem catalog o key)) ++
    (v.missingItems r o).map (fun w => .fieldAbsent w.observed.outputKeys) ++
    if r.connected = true ∨ context.connected = true then
      [.fieldPresent options.connectionIdField, .fieldPresent options.loginField]
    else []
  should := []
  marker := some ⟨r.code, number⟩
  sourceFields := context.sourceFields

end Variant

/-- A variant that a rule admits: as many attributes agree and are missing as it says, its group can
be used and shares no attribute with those that agree, the missing ones belong to neither, and not
all three are empty. -/
structure IsVariant (r : Rule) (catalog : AttributeCatalog) (o : Observation) (v : Variant) :
    Prop where
  equal : IsSelection (r.items o).length r.nbEqualAttributes v.equal
  group : v.group < r.groupChoices.length
  usable : Usable catalog o (v.groupKeys r)
  apart : Apart (v.groupKeys r) (v.equalItems r o)
  missing : IsSelection (r.items o).length r.nbMissingAttributes v.missing
  rest : ∀ w ∈ v.missingItems r o, ∀ e ∈ v.equalItems r o, w.key ≠ e.key
  ungrouped : Apart (v.groupKeys r) (v.missingItems r o)
  nonempty : ¬ (v.equal = [] ∧ v.groupKeys r = [] ∧ v.missing = [])

/-! ### The parts of the expansion -/

instance (catalog : AttributeCatalog) (o : Observation) (keys : List AttributeKey) :
    Decidable (Usable catalog o keys) := inferInstanceAs (Decidable (∀ key ∈ keys, _ ∨ _))

instance (keys : List AttributeKey) (ws : List WorkingAttribute) : Decidable (Apart keys ws) :=
  inferInstanceAs (Decidable (∀ key ∈ keys, ∀ w ∈ ws, ¬ w.key = key.name))

section parts

variable (r : Rule) (catalog : AttributeCatalog) (o : Observation)

theorem key_memberItem (key : AttributeKey) : (memberItem catalog o key).key = key.name := by
  unfold memberItem
  cases h : o.get? key.name with
  | none => rfl
  | some a => exact Observation.key_of_get? h

theorem presentWorking_eq_items : r.presentWorking o = r.items o := by
  unfold Rule.presentWorking Rule.presentAttributes Rule.items
  rw [List.filterMap_filter]
  refine List.filterMap_congr fun key _ => ?_
  rw [o.contains_eq_isSome, Rule.workingAttribute?]
  cases o.get? key.name <;> simp

theorem length_presentAttributes : (r.presentAttributes o).length = (r.items o).length := by
  unfold Rule.presentAttributes Rule.items
  rw [List.length_filterMap_eq_countP, ← List.countP_eq_length_filter]
  refine List.countP_congr fun key _ => ?_
  rw [o.contains_eq_isSome, Option.isSome_map]

theorem canApply_iff : r.canApply o = true ↔ r.AppliesTo o := by
  unfold Rule.canApply Rule.AppliesTo
  rw [length_presentAttributes]
  simp

theorem groupMember?_eq (key : AttributeKey) :
    Rule.groupMember? catalog o key =
      if o.contains key.name = true ∨
          key.treatment.getD (catalog.defaultTreatment key.name) = .absent then
        some (memberItem catalog o key)
      else none := by
  unfold Rule.groupMember? Rule.workingAttribute? memberItem
  rw [o.contains_eq_isSome]
  cases o.get? key.name with
  | none =>
      have hown : (ObservedAttribute.unobserved catalog key.name).treatment =
          catalog.defaultTreatment key.name := rfl
      simp only [Option.map_none, Option.isSome_none, Bool.false_eq_true, false_or, hown]
      by_cases h : key.treatment.getD (catalog.defaultTreatment key.name) = .absent
      · rw [if_pos h, if_pos h, h]
      · rw [if_neg h, if_neg h]
  | some a => simp

theorem mapM_groupMember? (keys : List AttributeKey) :
    keys.mapM (Rule.groupMember? catalog o) =
      if Usable catalog o keys then some (keys.map (memberItem catalog o)) else none := by
  induction keys with
  | nil => simp [Usable]
  | cons key keys ih =>
      rw [List.mapM_cons, ih, groupMember?_eq]
      have hcons : Usable catalog o (key :: keys) ↔
          (o.contains key.name = true ∨
            key.treatment.getD (catalog.defaultTreatment key.name) = .absent) ∧
          Usable catalog o keys := List.forall_mem_cons
      by_cases hkey : o.contains key.name = true ∨
          key.treatment.getD (catalog.defaultTreatment key.name) = .absent
      · by_cases hkeys : Usable catalog o keys
        · rw [if_pos hkey, if_pos hkeys, if_pos (hcons.mpr ⟨hkey, hkeys⟩)]
          rfl
        · rw [if_pos hkey, if_neg hkeys, if_neg fun h => hkeys (hcons.mp h).2]
          rfl
      · rw [if_neg hkey, if_neg fun h => hkey (hcons.mp h).1]
        rfl

theorem overlaps_iff (g : TreatmentGroup) (ws : List WorkingAttribute) :
    g.overlaps (ws.map (·.key)) = false ↔ Apart g.attributes ws := by
  unfold TreatmentGroup.overlaps Apart
  simp only [List.any_eq_false, List.mem_map, forall_exists_index, and_imp, forall_apply_eq_imp_iff₂,
    List.any_eq_true, not_exists, not_and, beq_iff_eq]
  constructor
  · intro h key hkey w hw he
    exact h w hw key hkey he.symm
  · intro h w hw key hkey he
    exact h key hkey w hw he.symm

/-- The groups that go with attributes that must agree are the usable ones apart from these. -/
theorem withGroups_eq (equal : List WorkingAttribute) :
    r.withGroups (r.usableGroups catalog o) equal =
      r.groupChoices.filterMap fun choice =>
        if Usable catalog o (choiceKeys choice) ∧ Apart (choiceKeys choice) equal then
          some (equal ++ (choiceKeys choice).map (memberItem catalog o))
        else none := by
  unfold Rule.withGroups Rule.usableGroups Rule.groupChoices
  by_cases hnone : r.treatmentGroups = []
  · simp [hnone, choiceKeys, Usable, Apart]
  · rw [if_neg (by simpa using hnone), if_neg hnone, List.filter_filterMap, List.map_filterMap,
      List.filterMap_map]
    refine List.filterMap_congr fun g _ => ?_
    rw [mapM_groupMember?]
    by_cases husable : Usable catalog o g.attributes
    · by_cases hapart : Apart g.attributes equal
      · have hoverlaps := (overlaps_iff g equal).mpr hapart
        simp [choiceKeys, husable, hapart, hoverlaps]
      · have hoverlaps := mt (overlaps_iff g equal).mp hapart
        simp [choiceKeys, husable, hapart, hoverlaps]
    · simp [choiceKeys, husable]

/-- The places of the attributes that are left when some are taken. -/
def freePlaces (taken : List WorkingAttribute) : List ℕ :=
  (List.range (r.items o).length).filter fun i =>
    (r.items o)[i]?.any fun w => !(taken.map (·.key)).contains w.key

theorem mem_freePlaces {taken : List WorkingAttribute} {i : ℕ} :
    i ∈ freePlaces r o taken ↔ i < (r.items o).length ∧
      ∀ w, (r.items o)[i]? = some w → ∀ t ∈ taken, w.key ≠ t.key := by
  unfold freePlaces
  rw [List.mem_filter, List.mem_range]
  refine and_congr_right fun hi => ?_
  obtain ⟨w, hw⟩ := exists_getElem?_of_lt hi
  rw [hw, Option.any_some, Bool.not_eq_true', List.contains_eq_mem, decide_eq_false_iff_not]
  constructor
  · intro hnot w' hw' t ht he
    cases hw'
    exact hnot (List.mem_map.mpr ⟨t, ht, he.symm⟩)
  · intro h hmem
    obtain ⟨t, ht, he⟩ := List.mem_map.mp hmem
    exact h w rfl t ht he.symm

theorem pairwise_freePlaces (taken : List WorkingAttribute) :
    (freePlaces r o taken).Pairwise (· < ·) := List.pairwise_lt_range.filter _

theorem withMissing_eq (working : List WorkingAttribute) :
    r.withMissing (r.items o) working =
      (combinations (freePlaces r o working) r.nbMissingAttributes).map fun js =>
        working ++ (pick (r.items o) js).map WorkingAttribute.asMissing := by
  have hmissing : Rule.missingFrom (r.items o) working =
      (pick (r.items o) (freePlaces r o working)).map WorkingAttribute.asMissing := by
    unfold Rule.missingFrom freePlaces
    rw [filter_eq_pick]
    rfl
  unfold Rule.withMissing
  rw [hmissing, combinations_map, combinations_pick _ fun i hi => ((mem_freePlaces r o).mp hi).1,
    List.map_map, List.map_map]
  rfl

end parts

/-! ### The variants in order -/

theorem Variant.Before.irrefl (v : Variant) : ¬ v.Before v := by
  rintro (h | ⟨-, h | ⟨-, h⟩⟩)
  · exact List.lt_irrefl _ h
  · exact Nat.lt_irrefl _ h
  · exact List.lt_irrefl _ h

theorem Variant.Before.asymm {v w : Variant} (h : v.Before w) : ¬ w.Before v := by
  rcases h with h | ⟨he, h | ⟨hg, h⟩⟩ <;> rintro (h' | ⟨he', h' | ⟨hg', h'⟩⟩)
  · exact List.lt_asymm h h'
  · exact List.lt_irrefl _ (he' ▸ h)
  · exact List.lt_irrefl _ (he' ▸ h)
  · exact List.lt_irrefl _ (he ▸ h')
  · exact Nat.lt_asymm h h'
  · exact Nat.lt_irrefl _ (hg' ▸ h)
  · exact List.lt_irrefl _ (he ▸ h')
  · exact Nat.lt_irrefl _ (hg ▸ h')
  · exact List.lt_asymm h h'

instance : Std.Irrefl Variant.Before := ⟨Variant.Before.irrefl⟩

instance : Std.Antisymm Variant.Before := ⟨fun _ _ h h' => absurd h' h.asymm⟩

section variants

variable (r : Rule) (catalog : AttributeCatalog) (o : Observation)

/-- The variants for the places of the attributes that must agree and the place of a group. -/
def variantsAt (is : List ℕ) (g : ℕ) : List Variant :=
  let v : Variant := ⟨is, g, []⟩
  (combinations (freePlaces r o (v.equalItems r o ++ (v.groupKeys r).map (memberItem catalog o)))
    r.nbMissingAttributes).map fun js => ⟨is, g, js⟩

/-- The places of the groups that go with the attributes that must agree. -/
def groupPlaces (is : List ℕ) : List ℕ :=
  (List.range r.groupChoices.length).filter fun g =>
    let v : Variant := ⟨is, g, []⟩
    decide (Usable catalog o (v.groupKeys r) ∧ Apart (v.groupKeys r) (v.equalItems r o))

/-- The variants of a rule, also those of nothing at all. -/
def allVariants : List Variant :=
  (combinations (List.range (r.items o).length) r.nbEqualAttributes).flatMap fun is =>
    (groupPlaces r catalog o is).flatMap (variantsAt r catalog o is)

def variants : List Variant :=
  (allVariants r catalog o).filter fun v => !(v.workingSet r catalog o).isEmpty

theorem sets_eq_map_workingSet :
    ((combinations (r.items o) r.nbEqualAttributes).flatMap
        (r.withGroups (r.usableGroups catalog o))).flatMap (r.withMissing (r.items o)) =
      (allVariants r catalog o).map (Variant.workingSet r catalog o) := by
  have hitems : combinations (r.items o) r.nbEqualAttributes =
      (combinations (List.range (r.items o).length) r.nbEqualAttributes).map (pick (r.items o)) := by
    rw [← combinations_pick _ fun i hi => List.mem_range.mp hi, pick_range]
  have hgroups (is : List ℕ) : r.withGroups (r.usableGroups catalog o) (pick (r.items o) is) =
      (groupPlaces r catalog o is).map fun g =>
        pick (r.items o) is ++ ((⟨is, g, []⟩ : Variant).groupKeys r).map (memberItem catalog o) := by
    rw [withGroups_eq, filterMap_eq_range, groupPlaces, map_filter_eq_filterMap]
    refine List.filterMap_congr fun g hg => ?_
    obtain ⟨choice, hchoice⟩ := exists_getElem?_of_lt (List.mem_range.mp hg)
    simp [Variant.groupKeys, Variant.equalItems, hchoice]
  unfold allVariants
  rw [hitems, List.flatMap_map, List.flatMap_assoc, List.map_flatMap]
  refine List.flatMap_congr fun is _ => ?_
  rw [hgroups, List.flatMap_map, List.map_flatMap]
  refine List.flatMap_congr fun g _ => ?_
  rw [withMissing_eq, variantsAt, List.map_map]
  rfl

theorem mem_allVariants {v : Variant} :
    v ∈ allVariants r catalog o ↔
      v.equal ∈ combinations (List.range (r.items o).length) r.nbEqualAttributes ∧
      v.group ∈ groupPlaces r catalog o v.equal ∧
      v.missing ∈ combinations
        (freePlaces r o (v.equalItems r o ++ (v.groupKeys r).map (memberItem catalog o)))
        r.nbMissingAttributes := by
  unfold allVariants variantsAt
  simp only [List.mem_flatMap, List.mem_map]
  constructor
  · rintro ⟨is, his, g, hg, js, hjs, rfl⟩
    exact ⟨his, hg, hjs⟩
  · rintro ⟨his, hg, hjs⟩
    exact ⟨v.equal, his, v.group, hg, v.missing, hjs, rfl⟩

theorem pairwise_allVariants : (allVariants r catalog o).Pairwise Variant.Before := by
  have hat {is : List ℕ} {g : ℕ} {v : Variant} (h : v ∈ variantsAt r catalog o is g) :
      v.equal = is ∧ v.group = g := by
    obtain ⟨js, -, rfl⟩ := List.mem_map.mp h
    exact ⟨rfl, rfl⟩
  unfold allVariants
  rw [List.pairwise_flatMap]
  refine ⟨fun is _ => ?_, ?_⟩
  · rw [List.pairwise_flatMap]
    refine ⟨fun g _ => ?_, ?_⟩
    · rw [variantsAt, List.pairwise_map]
      exact (pairwise_combinations (pairwise_freePlaces r o _) _).imp fun hlt =>
        Or.inr ⟨rfl, Or.inr ⟨rfl, hlt⟩⟩
    · refine (List.pairwise_lt_range.filter _).imp fun hlt v hv w hw => ?_
      obtain ⟨hv1, hv2⟩ := hat hv
      obtain ⟨hw1, hw2⟩ := hat hw
      exact Or.inr ⟨hv1.trans hw1.symm, Or.inl (by rw [hv2, hw2]; exact hlt)⟩
  · refine (pairwise_combinations List.pairwise_lt_range _).imp fun hlt v hv w hw => ?_
    obtain ⟨g, -, hv⟩ := List.mem_flatMap.mp hv
    obtain ⟨g', -, hw⟩ := List.mem_flatMap.mp hw
    exact Or.inl (by rw [(hat hv).1, (hat hw).1]; exact hlt)

theorem workingSet_eq_nil_iff {v : Variant} (hequal : ∀ i ∈ v.equal, i < (r.items o).length)
    (hmissing : ∀ i ∈ v.missing, i < (r.items o).length) :
    v.workingSet r catalog o = [] ↔ v.equal = [] ∧ v.groupKeys r = [] ∧ v.missing = [] := by
  unfold Variant.workingSet Variant.equalItems Variant.missingItems
  rw [List.append_eq_nil_iff, List.append_eq_nil_iff, List.map_eq_nil_iff, List.map_eq_nil_iff,
    pick_eq_nil_iff hequal, pick_eq_nil_iff hmissing, and_assoc]

/-- The missing attributes are free of those that agree and of the group exactly if their places
are. -/
theorem missing_mem_freePlaces_iff {v : Variant} :
    (∀ j ∈ v.missing, j ∈ freePlaces r o
        (v.equalItems r o ++ (v.groupKeys r).map (memberItem catalog o))) ↔
      (∀ j ∈ v.missing, j < (r.items o).length) ∧
      (∀ w ∈ v.missingItems r o, ∀ e ∈ v.equalItems r o, w.key ≠ e.key) ∧
      Apart (v.groupKeys r) (v.missingItems r o) := by
  constructor
  · intro h
    have hfree : ∀ w ∈ v.missingItems r o,
        ∀ t ∈ v.equalItems r o ++ (v.groupKeys r).map (memberItem catalog o), w.key ≠ t.key := by
      intro w hw
      obtain ⟨j, hj, hget⟩ := mem_pick.mp hw
      exact ((mem_freePlaces r o).mp (h j hj)).2 w hget
    refine ⟨fun j hj => ((mem_freePlaces r o).mp (h j hj)).1, fun w hw e he => ?_,
      fun key hkey w hw => ?_⟩
    · exact hfree w hw e (List.mem_append_left _ he)
    · have hmember := List.mem_append_right (v.equalItems r o)
        (List.mem_map_of_mem (f := memberItem catalog o) hkey)
      rw [← key_memberItem catalog o key]
      exact hfree w hw _ hmember
  · rintro ⟨hbound, hequal, hgroup⟩ j hj
    refine (mem_freePlaces r o).mpr ⟨hbound j hj, fun w hget t ht => ?_⟩
    have hw : w ∈ v.missingItems r o := mem_pick.mpr ⟨j, hj, hget⟩
    rcases List.mem_append.mp ht with he | hmember
    · exact hequal w hw t he
    · obtain ⟨key, hkey, rfl⟩ := List.mem_map.mp hmember
      rw [key_memberItem]
      exact hgroup key hkey w hw

theorem mem_variants {v : Variant} : v ∈ variants r catalog o ↔ IsVariant r catalog o v := by
  unfold variants
  rw [List.mem_filter, mem_allVariants, mem_combinations_range,
    mem_combinations_of_increasing (pairwise_freePlaces r o _), missing_mem_freePlaces_iff]
  unfold groupPlaces
  rw [List.mem_filter, List.mem_range, decide_eq_true_iff]
  constructor
  · rintro ⟨⟨hequal, ⟨hgroup, husable, hapart⟩, hlen, hinc, hbound, hrest, hungrouped⟩, hset⟩
    refine ⟨hequal, hgroup, husable, hapart, ⟨hlen, hinc, hbound⟩, hrest, hungrouped, ?_⟩
    rw [← workingSet_eq_nil_iff r catalog o hequal.bounded hbound]
    simpa using hset
  · rintro ⟨hequal, hgroup, husable, hapart, hmissing, hrest, hungrouped, hnonempty⟩
    refine ⟨⟨hequal, ⟨hgroup, husable, hapart⟩, hmissing.length, hmissing.increasing,
      hmissing.bounded, hrest, hungrouped⟩, ?_⟩
    rw [← workingSet_eq_nil_iff r catalog o hequal.bounded hmissing.bounded] at hnonempty
    simpa using hnonempty

theorem pairwise_variants : (variants r catalog o).Pairwise Variant.Before :=
  (pairwise_allVariants r catalog o).filter _

end variants

/-! ### Generation -/

section generation

variable (r : Rule) (catalog : AttributeCatalog) (options : SynthesisOptions) (o : Observation)
  (context : RequestContext)

theorem attributeClause_asMissing (w : WorkingAttribute) :
    options.attributeClause w.asMissing = .fieldAbsent w.observed.outputKeys := by
  simp [SynthesisOptions.attributeClause, WorkingAttribute.asMissing]

theorem search_eq (v : Variant) (n : ℕ) :
    context.project
        { options.synthesize (v.workingSet r catalog o) (r.connected || context.connected) with
          marker := some ⟨r.code, n⟩ } =
      v.search r catalog o options context n := by
  unfold RequestContext.project SynthesisOptions.synthesize Variant.search Variant.workingSet
  simp [attributeClause_asMissing, SynthesisOptions.connectedClauses, Function.comp_def]

theorem workingSets_eq (h : r.AppliesTo o) :
    r.workingSets catalog o =
      (chooseAll (r.items o) r.nbEqualAttributes).map fun equals =>
        ((equals.flatMap (r.withGroups (r.usableGroups catalog o))).flatMap
          (r.withMissing (r.items o))).filter fun set => !set.isEmpty := by
  have hmissing : r.expandMissing (r.items o) = fun working => pure (r.withMissing (r.items o) working) :=
    funext (r.expandMissing_eq (r.items o))
  unfold Rule.workingSets
  rw [if_pos ((canApply_iff r o).mpr h), presentWorking_eq_items]
  simp only [hmissing, List.mapM_pure]
  cases chooseAll (r.items o) r.nbEqualAttributes <;> rfl

theorem workingSets_of_le (h : r.AppliesTo o)
    (hequal : r.nbEqualAttributes ≤ (r.items o).length) :
    r.workingSets catalog o =
      .ok ((variants r catalog o).map (Variant.workingSet r catalog o)) := by
  rw [workingSets_eq r catalog o h, chooseAll_eq, if_neg (Nat.not_lt.mpr hequal), variants]
  refine congrArg Except.ok ?_
  dsimp only
  rw [sets_eq_map_workingSet, List.filter_map]
  rfl

theorem generate_of_le (h : r.AppliesTo o)
    (hequal : r.nbEqualAttributes ≤ (r.items o).length) :
    r.generate catalog options o context =
      .ok ((variants r catalog o).mapIdx fun n v => v.search r catalog o options context n) := by
  unfold Rule.generate
  rw [workingSets_of_le r catalog o h hequal, List.mapIdx_eq_zipIdx_map]
  show Except.ok _ = Except.ok _
  rw [List.zipIdx_map, List.map_map]
  refine congrArg _ (List.map_congr_left fun vn _ => ?_)
  exact search_eq r catalog options o context vn.1 vn.2

theorem generate_of_not_appliesTo (h : ¬ r.AppliesTo o) :
    r.generate catalog options o context = .ok [] := by
  unfold Rule.generate Rule.workingSets
  rw [if_neg (mt (canApply_iff r o).mp h)]
  rfl

theorem generate_of_lt (h : r.AppliesTo o) (hequal : (r.items o).length < r.nbEqualAttributes) :
    r.generate catalog options o context =
      .error (.subsetSize r.nbEqualAttributes (r.items o).length) := by
  unfold Rule.generate
  rw [workingSets_eq r catalog o h, chooseAll_eq, if_pos hequal]
  rfl

/-- Generation succeeds with the searches of all variants that the rule admits, each once and in
order, numbered from zero; with none if the rule does not apply.  It fails only if more attributes
must agree than are observed. -/
theorem generate_eq_ok_iff (ds : List Descriptor) :
    r.generate catalog options o context = .ok ds ↔
      (¬ r.AppliesTo o ∧ ds = []) ∨
      (r.AppliesTo o ∧ r.nbEqualAttributes ≤ (r.items o).length ∧
        ∃ vs : List Variant, vs.Pairwise Variant.Before ∧
          (∀ v, v ∈ vs ↔ IsVariant r catalog o v) ∧
          ds = vs.mapIdx fun n v => v.search r catalog o options context n) := by
  constructor
  · intro h
    by_cases happ : r.AppliesTo o
    · rcases Nat.lt_or_ge (r.items o).length r.nbEqualAttributes with hlt | hle
      · rw [generate_of_lt r catalog options o context happ hlt] at h
        cases h
      · rw [generate_of_le r catalog options o context happ hle] at h
        refine Or.inr ⟨happ, hle, variants r catalog o, pairwise_variants r catalog o,
          fun v => mem_variants r catalog o, ?_⟩
        exact (Except.ok.inj h).symm
    · rw [generate_of_not_appliesTo r catalog options o context happ] at h
      exact Or.inl ⟨happ, (Except.ok.inj h).symm⟩
  · rintro (⟨happ, rfl⟩ | ⟨happ, hle, vs, hsorted, hmem, rfl⟩)
    · exact generate_of_not_appliesTo r catalog options o context happ
    · have hmembers (v : Variant) : v ∈ vs ↔ v ∈ variants r catalog o :=
        (hmem v).trans (mem_variants r catalog o).symm
      rw [hsorted.eq_of_mem_iff (pairwise_variants r catalog o) hmembers]
      exact generate_of_le r catalog options o context happ hle

end generation

end Lookalike
