import Lookalike.Proofs.Embeddings
import Lookalike.Proofs.WellFormedQueries

/-! # What a rule reads of an observation

A rule asks of an observation which of the attributes that it names are observed, and compares the
values of those that it does not assert to be absent everywhere.  `Rule.CoveredBy` says that one
observation gives a rule all that another does; then every set of attributes that the rule searches for
under the one has its like under the other, in the same order (`workingSets_embed`).

Main statements: `generate_extends`, that a rule drops no search when more is observed, and
`generate_congr`, that its searches depend on nothing but what it reads. -/

namespace Lookalike

open List (SublistForall₂ Forall₂)

/-! ### Observations by their values -/

namespace Observation

variable {catalog : AttributeCatalog} {o : Observation}

/-- The value observed of a key. -/
def value? (o : Observation) (key : String) : Option String := (o.get? key).map (·.value)

/-- The attributes are what a catalog makes of their keys and values. -/
def Resolved (catalog : AttributeCatalog) (o : Observation) : Prop :=
  ∀ a ∈ o.attributes, a = .resolve catalog a.key a.value

theorem contains_eq_isSome_value? (key : String) : o.contains key = (o.value? key).isSome := by
  rw [value?, Option.isSome_map, contains_eq_isSome]

theorem Resolved.get?_eq (h : o.Resolved catalog) (key : String) :
    o.get? key = (o.value? key).map (.resolve catalog key) := by
  cases hget : o.get? key with
  | none => rw [value?, hget, Option.map_none, Option.map_none]
  | some a =>
      have hkey : a.key = key := key_of_get? hget
      have hresolved := h a (mem_of_get? hget)
      rw [hkey] at hresolved
      rw [value?, hget, Option.map_some, Option.map_some, ← hresolved]

theorem resolved_empty : empty.Resolved catalog := fun _ ha => absurd ha List.not_mem_nil

theorem Resolved.push (h : o.Resolved catalog) (key value : String) :
    (o.push (.resolve catalog key value)).Resolved catalog := by
  intro a ha
  rcases mem_push ha with rfl | ha
  · rfl
  · exact h a ha

theorem value?_push (o : Observation) (catalog : AttributeCatalog) (key value k : String) :
    (o.push (.resolve catalog key value)).value? k = if k = key then some value else o.value? k := by
  have hkey : (ObservedAttribute.resolve catalog key value).key = key := rfl
  rw [value?, get?_push, hkey]
  split_ifs
  · rfl
  · rfl

end Observation

/-! ### Places of a rule -/

/-- The treatment that an attribute gets where a rule names it. -/
def AttributeKey.effective (catalog : AttributeCatalog) (place : AttributeKey) : Treatment :=
  place.treatment.getD (catalog.defaultTreatment place.name)

namespace Rule

/-- Wherever a rule names an attribute: among those that it checks, and in its groups. -/
def places (r : Rule) : List AttributeKey :=
  r.checkedAttributes ++ r.treatmentGroups.flatMap (·.attributes)

/-- What a rule reads of an observation, another one says too: the attributes that it names are
observed, and those that it does not assert to be absent have the same values. -/
def CoveredBy (r : Rule) (catalog : AttributeCatalog) (o o' : Observation) : Prop :=
  ∀ place ∈ r.places, ∀ value, o.value? place.name = some value →
    ∃ value', o'.value? place.name = some value' ∧
      (place.effective catalog ≠ .absent → value = value')

theorem coveredBy_of_agree {r : Rule} {catalog : AttributeCatalog} {o o' : Observation}
    (hkeys : ∀ place ∈ r.places, o.contains place.name = o'.contains place.name)
    (hvalues : ∀ place ∈ r.places, place.effective catalog ≠ .absent →
      o.value? place.name = o'.value? place.name) : r.CoveredBy catalog o o' := by
  intro place hplace value hvalue
  have hcontains : (o'.value? place.name).isSome = true := by
    rw [← Observation.contains_eq_isSome_value?, ← hkeys place hplace,
      Observation.contains_eq_isSome_value?, hvalue, Option.isSome_some]
  obtain ⟨value', hvalue'⟩ := Option.isSome_iff_exists.mp hcontains
  refine ⟨value', hvalue', fun hpresent => ?_⟩
  have hsame := hvalues place hplace hpresent
  rw [hvalue, hvalue'] at hsame
  exact Option.some.inj hsame

theorem mem_places_of_groupChoices {r : Rule} {choice : Option TreatmentGroup}
    (h : choice ∈ r.groupChoices) : ∀ place ∈ choiceKeys choice, place ∈ r.places := by
  intro place hplace
  cases choice with
  | none => exact absurd hplace List.not_mem_nil
  | some g =>
      unfold groupChoices at h
      split_ifs at h
      · exact absurd h (by simp)
      · obtain ⟨g', hg', heq⟩ := List.mem_map.mp h
        obtain rfl := Option.some.inj heq
        exact List.mem_append_right _ (List.mem_flatMap.mpr ⟨g', hg', hplace⟩)

end Rule

/-! ### Attributes that are searched for alike -/

/-- Two attributes that a search does not tell apart: their values differ only where both are asserted
to be absent. -/
structure WorkingAttribute.Alike (w w' : WorkingAttribute) : Prop where
  key : w.key = w'.key
  treatment : w.treatment = w'.treatment
  fields : w.observed.outputKeys = w'.observed.outputKeys
  observed : w.treatment ≠ .absent → w.observed = w'.observed

namespace WorkingAttribute

variable {w w' : WorkingAttribute}

theorem Alike.asMissing (h : w.Alike w') : w.asMissing.Alike w'.asMissing :=
  ⟨h.key, rfl, h.fields, fun hpresent => absurd rfl hpresent⟩

theorem Alike.attributeClause (h : w.Alike w') (options : SynthesisOptions) :
    options.attributeClause w = options.attributeClause w' := by
  by_cases habsent : w.treatment = .absent
  · have habsent' : w'.treatment = .absent := h.treatment ▸ habsent
    rw [SynthesisOptions.attributeClause, SynthesisOptions.attributeClause, if_pos habsent,
      if_pos habsent', h.fields]
  · have heq : w = w' := by
      obtain ⟨observed, treatment⟩ := w
      obtain ⟨observed', treatment'⟩ := w'
      obtain rfl : treatment = treatment' := h.treatment
      obtain rfl : observed = observed' := h.observed habsent
      rfl
    rw [heq]

/-- The same key with two values, at a place of a rule that compares no value unless they are the
same. -/
theorem alike_resolve {catalog : AttributeCatalog} {key value value' : String}
    {treatment : Treatment} (h : treatment ≠ .absent → value = value') :
    Alike ⟨.resolve catalog key value, treatment⟩ ⟨.resolve catalog key value', treatment⟩ :=
  ⟨rfl, rfl, rfl, fun hpresent => congrArg (ObservedAttribute.resolve catalog key) (h hpresent)⟩

end WorkingAttribute

section embed

variable {r : Rule} {catalog : AttributeCatalog} {o o' : Observation}

section parts

variable (ho : o.Resolved catalog) (ho' : o'.Resolved catalog) (hcovered : r.CoveredBy catalog o o')
include ho ho' hcovered

theorem exists_alike {place : AttributeKey} (hplace : place ∈ r.places) {w : WorkingAttribute}
    (hw : (o.get? place.name).map (fun a => ⟨a, place.treatment.getD a.treatment⟩) = some w) :
    ∃ w', (o'.get? place.name).map (fun a => ⟨a, place.treatment.getD a.treatment⟩) = some w' ∧
      w.Alike w' := by
  rw [ho.get?_eq, Option.map_map, Option.map_eq_some_iff] at hw
  obtain ⟨value, hvalue, rfl⟩ := hw
  obtain ⟨value', hvalue', hsame⟩ := hcovered place hplace value hvalue
  rw [ho'.get?_eq, hvalue']
  exact ⟨_, rfl, WorkingAttribute.alike_resolve hsame⟩

theorem items_embed : SublistForall₂ WorkingAttribute.Alike (r.items o) (r.items o') :=
  sublistForall₂_filterMap fun _ hplace _ hw =>
    exists_alike ho ho' hcovered (List.mem_append_left _ hplace) hw

theorem length_items_le : (r.items o).length ≤ (r.items o').length :=
  length_le_of_sublistForall₂ (items_embed ho ho' hcovered)

theorem appliesTo_of_coveredBy (h : r.AppliesTo o) : r.AppliesTo o' :=
  ⟨h.1, h.2.trans (length_items_le ho ho' hcovered)⟩

omit ho ho' in
theorem contains_of_coveredBy {place : AttributeKey} (hplace : place ∈ r.places)
    (h : o.contains place.name = true) : o'.contains place.name = true := by
  rw [Observation.contains_eq_isSome_value?, Option.isSome_iff_exists] at h ⊢
  obtain ⟨value, hvalue⟩ := h
  obtain ⟨value', hvalue', -⟩ := hcovered place hplace value hvalue
  exact ⟨value', hvalue'⟩

omit ho ho' in
theorem usable_of_coveredBy {keys : List AttributeKey} (hkeys : ∀ key ∈ keys, key ∈ r.places)
    (h : Usable catalog o keys) : Usable catalog o' keys := fun key hkey =>
  (h key hkey).imp_left (contains_of_coveredBy hcovered (hkeys key hkey))

/-- A member of a group is searched for alike, also when it is asserted to be absent and comes to be
observed. -/
theorem memberItem_alike {place : AttributeKey} (hplace : place ∈ r.places)
    (husable : o.contains place.name = true ∨ place.effective catalog = .absent) :
    (memberItem catalog o place).Alike (memberItem catalog o' place) := by
  have hget := ho.get?_eq place.name
  have hget' := ho'.get?_eq place.name
  cases hvalue : o.value? place.name with
  | some value =>
      obtain ⟨value', hvalue', hsame⟩ := hcovered place hplace value hvalue
      rw [hvalue, Option.map_some] at hget
      rw [hvalue', Option.map_some] at hget'
      rw [memberItem, memberItem, hget, hget']
      exact WorkingAttribute.alike_resolve hsame
  | none =>
      rw [Observation.contains_eq_isSome_value?, hvalue] at husable
      have habsent : place.effective catalog = .absent := husable.resolve_left (by simp)
      rw [hvalue, Option.map_none] at hget
      rw [memberItem, hget]
      refine ⟨?_, ?_, ?_, fun hpresent => absurd rfl hpresent⟩
      · rw [key_memberItem]
        rfl
      all_goals
        rw [memberItem, hget']
        cases o'.value? place.name
      · rfl
      · exact habsent.symm
      · rfl
      · rfl

end parts

theorem map_key_eq {ws ws' : List WorkingAttribute} (h : Forall₂ WorkingAttribute.Alike ws ws') :
    ws'.map (·.key) = ws.map (·.key) :=
  map_eq_map_of_forall₂ h fun _ _ halike => halike.key.symm

theorem apart_iff {keys : List AttributeKey} {ws : List WorkingAttribute} :
    Apart keys ws ↔ ∀ key ∈ keys, key.name ∉ ws.map (·.key) := by
  simp [Apart]

theorem withGroups_embed (ho : o.Resolved catalog) (ho' : o'.Resolved catalog)
    (hcovered : r.CoveredBy catalog o o') {equal equal' : List WorkingAttribute}
    (h : Forall₂ WorkingAttribute.Alike equal equal') :
    SublistForall₂ (Forall₂ WorkingAttribute.Alike) (r.withGroups (r.usableGroups catalog o) equal)
      (r.withGroups (r.usableGroups catalog o') equal') := by
  rw [withGroups_eq, withGroups_eq]
  refine sublistForall₂_filterMap fun choice hchoice set hset => ?_
  have hplaces := Rule.mem_places_of_groupChoices hchoice
  obtain ⟨⟨husable, hapart⟩, heq⟩ := Option.ite_none_right_eq_some.mp hset
  obtain rfl := Option.some.inj heq
  have husable' := usable_of_coveredBy hcovered hplaces husable
  have hapart' : Apart (choiceKeys choice) equal' := by
    rwa [apart_iff, map_key_eq h, ← apart_iff]
  rw [if_pos ⟨husable', hapart'⟩]
  refine ⟨_, rfl, List.rel_append h ?_⟩
  rw [List.forall₂_map_left_iff, List.forall₂_map_right_iff, List.forall₂_same]
  exact fun key hkey => memberItem_alike ho ho' hcovered (hplaces key hkey) (husable key hkey)

theorem withMissing_embed {present present' working working' : List WorkingAttribute}
    (hpresent : SublistForall₂ WorkingAttribute.Alike present present')
    (hworking : Forall₂ WorkingAttribute.Alike working working') :
    SublistForall₂ (Forall₂ WorkingAttribute.Alike) (r.withMissing present working)
      (r.withMissing present' working') := by
  have hmissing : SublistForall₂ WorkingAttribute.Alike (Rule.missingFrom present working)
      (Rule.missingFrom present' working') := by
    refine sublistForall₂_map (sublistForall₂_filter hpresent fun w w' halike hfree => ?_)
      fun w w' halike => halike.asMissing
    rwa [map_key_eq hworking, ← halike.key]
  exact sublistForall₂_map (sublistForall₂_combinations hmissing r.nbMissingAttributes)
    fun _ _ hselected => List.rel_append hworking hselected

/-- The sets of attributes that a rule searches for have their likes, in the same order, when what it
reads is covered. -/
theorem workingSets_embed (ho : o.Resolved catalog) (ho' : o'.Resolved catalog)
    (hcovered : r.CoveredBy catalog o o') {sets sets' : List (List WorkingAttribute)}
    (h : r.workingSets catalog o = .ok sets) (h' : r.workingSets catalog o' = .ok sets') :
    SublistForall₂ (Forall₂ WorkingAttribute.Alike) sets sets' := by
  by_cases happ : r.AppliesTo o
  · have hitems := items_embed ho ho' hcovered
    rw [workingSets_eq r catalog o happ] at h
    rw [workingSets_eq r catalog o' (appliesTo_of_coveredBy ho ho' hcovered happ)] at h'
    rw [chooseAll_eq] at h h'
    split_ifs at h h'
    · cases h
    · cases h
    · cases h'
    · obtain rfl := Except.ok.inj h
      obtain rfl := Except.ok.inj h'
      have hequals := sublistForall₂_combinations hitems r.nbEqualAttributes
      have hgrouped := sublistForall₂_flatMap hequals fun _ _ hequal =>
        withGroups_embed ho ho' hcovered hequal
      have hwhole := sublistForall₂_flatMap hgrouped fun _ _ hworking =>
        withMissing_embed (r := r) hitems hworking
      refine sublistForall₂_filter hwhole fun set set' hset hsome => ?_
      cases hset with
      | nil => exact hsome
      | cons => rfl
  · rw [Rule.workingSets, if_neg (mt (canApply_iff r o).mp happ)] at h
    obtain rfl := Except.ok.inj h
    exact .nil

end embed

/-! ### Searches -/

/-- The search without its place among the searches of its rule. -/
def Descriptor.unnumbered (d : Descriptor) : Descriptor :=
  { d with marker := d.marker.map fun m => ⟨m.ruleCode, 0⟩ }

section generation

variable (r : Rule) {catalog : AttributeCatalog} (options : SynthesisOptions) {o o' : Observation}
  (context : RequestContext)

/-- The search of a rule for a set of attributes, at a place among its searches. -/
def Rule.searchFor (set : List WorkingAttribute) (number : ℕ) : Descriptor :=
  context.project
    { options.synthesize set (r.connected || context.connected) with
      marker := some ⟨r.code, number⟩ }

/-- Searches at their places. -/
def numbered (searches : List (ℕ → Descriptor)) : List Descriptor :=
  searches.zipIdx.map fun (search, number) => search number

theorem searchFor_congr {set set' : List WorkingAttribute}
    (h : Forall₂ WorkingAttribute.Alike set set') :
    r.searchFor options context set' = r.searchFor options context set := by
  unfold Rule.searchFor SynthesisOptions.synthesize
  rw [map_eq_map_of_forall₂ h fun w w' halike => (halike.attributeClause options).symm]

/-- A rule gives the searches of its working sets, each with its place. -/
theorem generate_eq_ok_iff_workingSets {ds : List Descriptor} :
    r.generate catalog options o context = .ok ds ↔
      ∃ sets, r.workingSets catalog o = .ok sets ∧
        ds = numbered (sets.map (r.searchFor options context)) := by
  unfold numbered
  simp only [List.zipIdx_map, List.map_map]
  refine bind_eq_ok_iff.trans (exists_congr fun sets => and_congr_right fun _ => ?_)
  constructor
  · intro h
    exact (Except.ok.inj h).symm
  · rintro rfl
    rfl

theorem map_unnumbered_numbered (sets : List (List WorkingAttribute)) :
    (numbered (sets.map (r.searchFor options context))).map (·.unnumbered) =
      sets.map fun set => r.searchFor options context set 0 := by
  conv_rhs => rw [← List.zipIdx_map_fst 0 sets, List.map_map]
  rw [numbered, List.zipIdx_map, List.map_map, List.map_map]
  rfl

/-- When more is observed, a rule that applies still does, and it drops none of its searches: what they
require comes again, in the same order, and nothing about them changes but their numbers. -/
theorem generate_extends (ho : o.Resolved catalog) (ho' : o'.Resolved catalog)
    (hmore : ∀ key value, o.value? key = some value → o'.value? key = some value) :
    (r.canApply o = true → r.canApply o' = true) ∧
    ∀ ds ds', r.generate catalog options o context = .ok ds →
      r.generate catalog options o' context = .ok ds' →
      (ds.map (·.must)).Sublist (ds'.map (·.must)) ∧
      (ds.map (·.unnumbered)).Sublist (ds'.map (·.unnumbered)) := by
  have hcovered : r.CoveredBy catalog o o' := fun place _ value hvalue =>
    ⟨value, hmore place.name value hvalue, fun _ => rfl⟩
  refine ⟨fun happ => ?_, fun ds ds' hds hds' => ?_⟩
  · rw [canApply_iff] at happ ⊢
    exact appliesTo_of_coveredBy ho ho' hcovered happ
  · obtain ⟨sets, hsets, rfl⟩ := (generate_eq_ok_iff_workingSets r options context).mp hds
    obtain ⟨sets', hsets', rfl⟩ := (generate_eq_ok_iff_workingSets r options context).mp hds'
    have hembed := workingSets_embed ho ho' hcovered hsets hsets'
    have hunnumbered := sublist_map_of_sublistForall₂ hembed fun _ _ halike =>
      congrFun (searchFor_congr r options context halike) 0
    rw [← map_unnumbered_numbered, ← map_unnumbered_numbered] at hunnumbered
    refine ⟨?_, hunnumbered⟩
    have hmust := hunnumbered.map (·.must)
    rwa [List.map_map, List.map_map] at hmust

/-- A rule that searches for a family name or an e-mail address, each with no first name, and asserts
birth dates to be absent. -/
def unnamedRule : Rule where
  code := "R"
  checkedAttributes := [⟨"familyName", none⟩, ⟨"email", none⟩, ⟨"birthDate", some .absent⟩]
  nbEqualAttributes := 1
  treatmentGroups := [⟨"unnamed", [⟨"firstName", some .absent⟩]⟩]

def mailObserved (o : Observation) : Observation :=
  o.push (.resolve CatalogTable.person.catalog "email" "a@b")

def nameObserved (o : Observation) : Observation :=
  (o.push (.resolve CatalogTable.person.catalog "firstName" "Ada")).push
    (.resolve CatalogTable.person.catalog "familyName" "Berg")

def birthObserved (birthDate : String) (o : Observation) : Observation :=
  o.push (.resolve CatalogTable.person.catalog "birthDate" birthDate)

/-- The search for an e-mail address is not dropped when a name is observed too, also not the part of it
that asserts the first name to be absent, and comes after that for the family name. -/
theorem generate_extends_unnamedRule :
    let options : SynthesisOptions := .ofMatching {}
    ∃ ds ds',
      unnamedRule.generate CatalogTable.person.catalog options (mailObserved .empty) {} = .ok ds ∧
      unnamedRule.generate CatalogTable.person.catalog options
        (nameObserved (mailObserved .empty)) {} = .ok ds' ∧
      ds.length = 1 ∧ ds'.length = 2 ∧ (ds.map (·.must)).Sublist (ds'.map (·.must)) ∧
      (ds.map (·.unnumbered)).Sublist (ds'.map (·.unnumbered)) := by
  intro options
  have hmail : (mailObserved .empty).Resolved CatalogTable.person.catalog :=
    Observation.resolved_empty.push _ _
  have hname : (nameObserved (mailObserved .empty)).Resolved CatalogTable.person.catalog :=
    (hmail.push _ _).push _ _
  have hmore (key value : String) (h : (mailObserved .empty).value? key = some value) :
      (nameObserved (mailObserved .empty)).value? key = some value := by
    rw [nameObserved, Observation.value?_push, Observation.value?_push, h]
    rw [mailObserved, Observation.value?_push] at h
    split_ifs at h with hkey
    · rw [if_neg (by rw [hkey]; decide), if_neg (by rw [hkey]; decide)]
    · cases h
  have hfew : (unnamedRule.generate CatalogTable.person.catalog options (mailObserved .empty) {} >>=
      fun ds => .ok ds.length) = .ok 1 := by decide +kernel
  have hmany : (unnamedRule.generate CatalogTable.person.catalog options
      (nameObserved (mailObserved .empty)) {} >>= fun ds => .ok ds.length) = .ok 2 := by
    decide +kernel
  obtain ⟨ds, hds, hone⟩ := bind_eq_ok_iff.mp hfew
  obtain ⟨ds', hds', htwo⟩ := bind_eq_ok_iff.mp hmany
  obtain ⟨-, hextends⟩ := generate_extends unnamedRule options {} hmail hname hmore
  exact ⟨ds, ds', hds, hds', Except.ok.inj hone, Except.ok.inj htwo, hextends ds ds' hds hds'⟩

/-- Two observations that hold the same of the attributes that a rule names, and the same values of
those that it does not assert to be absent everywhere, give the same searches, or the same failure.  So
nothing else that is observed matters, nor its order, nor the values of attributes that are only
asserted to be absent. -/
theorem generate_congr (ho : o.Resolved catalog) (ho' : o'.Resolved catalog)
    (hkeys : ∀ place ∈ r.places, o.contains place.name = o'.contains place.name)
    (hvalues : ∀ place ∈ r.places, place.effective catalog ≠ .absent →
      o.value? place.name = o'.value? place.name) :
    r.generate catalog options o context = r.generate catalog options o' context := by
  have hcovered := Rule.coveredBy_of_agree hkeys hvalues
  have hcovers := Rule.coveredBy_of_agree (fun place hplace => (hkeys place hplace).symm)
    fun place hplace hpresent => (hvalues place hplace hpresent).symm
  have hlength : (r.items o).length = (r.items o').length :=
    Nat.le_antisymm (length_items_le ho ho' hcovered) (length_items_le ho' ho hcovers)
  by_cases happ : r.AppliesTo o
  · have happ' := appliesTo_of_coveredBy ho ho' hcovered happ
    rcases Nat.lt_or_ge (r.items o).length r.nbEqualAttributes with hlt | hle
    · rw [generate_of_lt r catalog options o context happ hlt,
        generate_of_lt r catalog options o' context happ' (hlength ▸ hlt), hlength]
    · have hsets := workingSets_of_le r catalog o happ hle
      have hsets' := workingSets_of_le r catalog o' happ' (hlength ▸ hle)
      have hsearches := sublist_map_of_sublistForall₂
        (workingSets_embed ho ho' hcovered hsets hsets') fun _ _ halike =>
          searchFor_congr r options context halike
      have hsearches' := sublist_map_of_sublistForall₂
        (workingSets_embed ho' ho hcovers hsets' hsets) fun _ _ halike =>
          searchFor_congr r options context halike
      rw [(generate_eq_ok_iff_workingSets r options context).mpr ⟨_, hsets', rfl⟩]
      exact (generate_eq_ok_iff_workingSets r options context).mpr
        ⟨_, hsets, congrArg numbered (hsearches.antisymm hsearches').symm⟩
  · have happ' : ¬ r.AppliesTo o' := mt (appliesTo_of_coveredBy ho' ho hcovers) happ
    rw [generate_of_not_appliesTo r catalog options o context happ,
      generate_of_not_appliesTo r catalog options o' context happ']

/-- A birth date that is only asserted to be absent may be another, and observed earlier or later. -/
theorem generate_congr_unnamedRule :
    let earlier := birthObserved "1970" (mailObserved .empty)
    let later := mailObserved (birthObserved "1980" .empty)
    let options : SynthesisOptions := .ofMatching {}
    earlier.keys ≠ later.keys ∧ earlier.value? "birthDate" ≠ later.value? "birthDate" ∧
      unnamedRule.generate CatalogTable.person.catalog options earlier {} =
        unnamedRule.generate CatalogTable.person.catalog options later {} := by
  intro earlier later options
  have hearlier : earlier.Resolved CatalogTable.person.catalog :=
    (Observation.resolved_empty.push _ _).push _ _
  have hlater : later.Resolved CatalogTable.person.catalog :=
    (Observation.resolved_empty.push _ _).push _ _
  refine ⟨by decide, by decide, ?_⟩
  exact generate_congr unnamedRule options {} hearlier hlater (by decide) (by decide +kernel)

end generation

end Lookalike
