import Lookalike.Proofs.Expansion
import Lookalike.Proofs.NormalNames
import Lookalike.Proofs.ValidConfig

/-! # Well-formed queries

A catalog gives every attribute at least one field and none twice, and an observation holds no blank
values.  So no clause of a search degenerates: whatever is compared is not empty, also in normal form,
and every alternative has several members.  `Clause.WellFormed` says so of a clause and of all its
parts, `Descriptor.WellFormed` of a search, which also says something of an attribute.

Main statement: `QueryRequest.build_wellFormed`. -/

namespace Lookalike

/-! ### Well-formed clauses -/

namespace Clause

/-- A match of a value that may be negated: in one field as it is or as a phrase, or in several. -/
inductive Negatable : Clause → Prop
  | exactMatch (field value : String) : Negatable (.exactMatch field value)
  | phraseMatch (field value : String) : Negatable (.phraseMatch field value)
  | multiFieldMatch (fields : List String) (value : String) (mode : MatchMode) :
      Negatable (.multiFieldMatch fields value mode)

/-- No part of a clause is degenerate.  What is compared is not empty; several fields are at least two
different ones; a span has at least two words, none empty or with a space in it, and its slop is one less
than their number as far as 32 bits go; an alternative has the same span for each of several fields. -/
inductive WellFormed : Clause → Prop
  | exactMatch {field value : String} (hvalue : value ≠ "") : WellFormed (.exactMatch field value)
  | fuzzyMatch {field value : String} {fuzziness : UInt8} (hvalue : value ≠ "") :
      WellFormed (.fuzzyMatch field value fuzziness)
  | multiFieldMatch {fields : List String} {value : String} {mode : MatchMode}
      (hseveral : 2 ≤ fields.length) (hdistinct : fields.Nodup) (hvalue : value ≠ "") :
      WellFormed (.multiFieldMatch fields value mode)
  | phraseMatch {field value : String} (hvalue : value ≠ "") : WellFormed (.phraseMatch field value)
  | negatedMatch {clause : Clause} (hmatch : clause.Negatable) (hclause : WellFormed clause) :
      WellFormed (.negatedMatch clause)
  | proximityMatch {field : String} {terms : List String} {slop : UInt32} {fuzziness : UInt8}
      (hseveral : 2 ≤ terms.length) (hterms : ∀ t ∈ terms, t ≠ "" ∧ ' ' ∉ t.toList)
      (hslop : terms.length < UInt32.size → slop.toNat = terms.length - 1) :
      WellFormed (.proximityMatch field terms slop fuzziness)
  | anyOf {fields terms : List String} {slop : UInt32} {fuzziness : UInt8}
      (hseveral : 2 ≤ fields.length) (hdistinct : fields.Nodup)
      (hspans : ∀ field ∈ fields, WellFormed (.proximityMatch field terms slop fuzziness)) :
      WellFormed (.anyOf (fields.map fun field => .proximityMatch field terms slop fuzziness))
  | fieldAbsent {fields : List String} (hsome : fields ≠ []) (hdistinct : fields.Nodup) :
      WellFormed (.fieldAbsent fields)
  | fieldPresent {field : String} : WellFormed (.fieldPresent field)

section matching

variable {fields : List String} {value : String}

theorem wellFormed_matching (hsome : fields ≠ []) (hdistinct : fields.Nodup) (hvalue : value ≠ "")
    (mode : MatchMode) : (matching fields value mode).WellFormed := by
  match fields, mode with
  | [], _ => exact absurd rfl hsome
  | [field], .exact => exact .exactMatch hvalue
  | [field], .fuzzy fuzziness => exact .fuzzyMatch hvalue
  | [field], .phrase => exact .phraseMatch hvalue
  | field :: other :: rest, mode =>
      have hseveral : 2 ≤ (field :: other :: rest).length := by simp
      exact .multiFieldMatch hseveral hdistinct hvalue

theorem negatable_matching_exact (hsome : fields ≠ []) : (matching fields value .exact).Negatable := by
  match fields with
  | [] => exact absurd rfl hsome
  | [field] => exact .exactMatch field value
  | field :: other :: rest => exact .multiFieldMatch _ value .exact

theorem negatable_matching_phrase (hsome : fields ≠ []) :
    (matching fields value .phrase).Negatable := by
  match fields with
  | [] => exact absurd rfl hsome
  | [field] => exact .phraseMatch field value
  | field :: other :: rest => exact .multiFieldMatch _ value .phrase

end matching

/-! ### Fields of clauses -/

mutual

/-- The fields that a clause asks about, in order. -/
def fields : Clause → List String
  | exactMatch field _ => [field]
  | fuzzyMatch field _ _ => [field]
  | multiFieldMatch fields _ _ => fields
  | phraseMatch field _ => [field]
  | negatedMatch clause => clause.fields
  | proximityMatch field _ _ _ => [field]
  | anyOf clauses => fieldsOfAll clauses
  | fieldAbsent fields => fields
  | fieldPresent field => [field]

def fieldsOfAll : List Clause → List String
  | [] => []
  | c :: cs => c.fields ++ fieldsOfAll cs

end

theorem fields_matching (names : List String) (value : String) (mode : MatchMode) :
    (matching names value mode).fields = names := by
  match names, mode with
  | [], _ => rfl
  | [_], .exact => rfl
  | [_], .fuzzy _ => rfl
  | [_], .phrase => rfl
  | _ :: _ :: _, _ => rfl

/-- Alternatives of one clause for each of some fields ask about these. -/
theorem fieldsOfAll_map {clauseOf : String → Clause} (h : ∀ name, (clauseOf name).fields = [name])
    (names : List String) : fieldsOfAll (names.map clauseOf) = names := by
  induction names with
  | nil => rfl
  | cons name names ih => rw [List.map_cons, fieldsOfAll, h, ih, List.singleton_append]

end Clause

/-! ### Clauses of attributes -/

/-- An attribute of a working set can be searched for: it has fields, none twice, and what is compared is
not blank. -/
structure WorkingAttribute.Sound (w : WorkingAttribute) : Prop where
  fields : w.observed.outputKeys ≠ []
  distinct : w.observed.outputKeys.Nodup
  value : w.treatment ≠ .absent → Text.isBlank w.observed.value = false

namespace SynthesisOptions

variable (options : SynthesisOptions)

section attributeClause

variable {a : ObservedAttribute} (hfields : a.outputKeys ≠ []) (hdistinct : a.outputKeys.Nodup)
  (hvalue : Text.isBlank a.value = false)
include hfields hdistinct hvalue

theorem wellFormed_plainClause (t : Treatment) : (options.plainClause a t).WellFormed := by
  have hmatching (mode : MatchMode) : (Clause.matching a.outputKeys a.value mode).WellFormed :=
    Clause.wellFormed_matching hfields hdistinct (Text.ne_empty_of_not_isBlank hvalue) mode
  cases t with
  | different => exact .negatedMatch (Clause.negatable_matching_exact hfields) (hmatching .exact)
  | _ => exact hmatching _

theorem wellFormed_familyNameClause (t : Treatment) :
    (options.familyNameClause a t).WellFormed := by
  have hmatching : (Clause.matching a.outputKeys a.value .phrase).WellFormed :=
    Clause.wellFormed_matching hfields hdistinct (Text.ne_empty_of_not_isBlank hvalue) .phrase
  cases t with
  | approximated =>
      exact Clause.wellFormed_matching hfields hdistinct (PersonName.family_ne_empty hvalue) _
  | different => exact .negatedMatch (Clause.negatable_matching_phrase hfields) hmatching
  | _ => exact hmatching

/-- A first name of several words gives a span for each field, one of a single word a near match. -/
theorem wellFormed_nearFirstName : (options.nearFirstName a).WellFormed := by
  unfold nearFirstName
  dsimp only
  split_ifs with hshort
  · exact Clause.wellFormed_matching hfields hdistinct (PersonName.first_ne_empty hvalue) _
  · generalize hterms : PersonName.words (PersonName.first a.value) = terms at hshort
    have hspan (field : String) : (Clause.proximityMatch field terms
        (UInt32.ofNat (terms.length - 1)) options.fuzziness).WellFormed := by
      refine .proximityMatch (Nat.not_lt.mp hshort) (fun t ht => ?_) fun hfits => ?_
      · exact PersonName.mem_words (hterms ▸ ht)
      · exact UInt32.toNat_ofNat_of_lt' (by omega)
    match hkeys : a.outputKeys with
    | [] => exact absurd hkeys hfields
    | [field] => exact hspan field
    | field :: other :: rest =>
        have hseveral : 2 ≤ (field :: other :: rest).length := by simp
        exact .anyOf hseveral (hkeys ▸ hdistinct) fun field _ => hspan field

theorem wellFormed_firstNameClause (t : Treatment) : (options.firstNameClause a t).WellFormed := by
  have hmatching : (Clause.matching a.outputKeys (PersonName.first a.value) .phrase).WellFormed :=
    Clause.wellFormed_matching hfields hdistinct (PersonName.first_ne_empty hvalue) .phrase
  unfold firstNameClause
  cases t with
  | approximated => exact options.wellFormed_nearFirstName hfields hdistinct hvalue
  | different => exact .negatedMatch (Clause.negatable_matching_phrase hfields) hmatching
  | _ => exact hmatching

end attributeClause

theorem wellFormed_attributeClause {w : WorkingAttribute} (h : w.Sound) :
    (options.attributeClause w).WellFormed := by
  unfold attributeClause
  split_ifs with habsent
  · exact .fieldAbsent h.fields h.distinct
  · have hvalue := h.value habsent
    cases w.observed.kind with
    | plain => exact options.wellFormed_plainClause h.fields h.distinct hvalue _
    | familyName => exact options.wellFormed_familyNameClause h.fields h.distinct hvalue _
    | firstName => exact options.wellFormed_firstNameClause h.fields h.distinct hvalue _

section fields

variable (a : ObservedAttribute) (t : Treatment)

theorem fields_plainClause : (options.plainClause a t).fields = a.outputKeys := by
  cases t with
  | _ => exact Clause.fields_matching _ _ _

theorem fields_familyNameClause : (options.familyNameClause a t).fields = a.outputKeys := by
  cases t with
  | _ => exact Clause.fields_matching _ _ _

theorem fields_nearFirstName : (options.nearFirstName a).fields = a.outputKeys := by
  unfold nearFirstName
  dsimp only
  split_ifs
  · exact Clause.fields_matching _ _ _
  · generalize PersonName.words (PersonName.first a.value) = terms
    have hspans (fields : List String) : Clause.fieldsOfAll (fields.map fun field =>
        .proximityMatch field terms (UInt32.ofNat (terms.length - 1)) options.fuzziness) = fields :=
      Clause.fieldsOfAll_map (fun _ => rfl) fields
    match a.outputKeys with
    | [] => rfl
    | [field] => rfl
    | field :: other :: rest => exact hspans (field :: other :: rest)

theorem fields_firstNameClause : (options.firstNameClause a t).fields = a.outputKeys := by
  cases t with
  | approximated => exact options.fields_nearFirstName a
  | _ => exact Clause.fields_matching _ _ _

end fields

/-- The clause of an attribute asks about the fields of the attribute, all of them and no others. -/
theorem fields_attributeClause (w : WorkingAttribute) :
    (options.attributeClause w).fields = w.observed.outputKeys := by
  unfold attributeClause
  split_ifs
  · rfl
  · cases w.observed.kind with
    | plain => exact options.fields_plainClause _ _
    | familyName => exact options.fields_familyNameClause _ _
    | firstName => exact options.fields_firstNameClause _ _

end SynthesisOptions

/-- An attribute under the treatment that a search near names gives it: a name may differ a little, any
other value may not, and an attribute that is to be absent stays so. -/
def WorkingAttribute.nearForm (w : WorkingAttribute) : WorkingAttribute :=
  match w.treatment, w.observed.kind with
  | .absent, _ => w
  | _, .plain => ⟨w.observed, .strict⟩
  | _, _ => ⟨w.observed, .approximated⟩

namespace SynthesisOptions

variable (options : SynthesisOptions)

/-- A search near names has one clause for each attribute, which is that of the attribute in its near
form; it is required or adds to the score. -/
theorem near_clauses (w : WorkingAttribute) :
    options.nearMust w = some (options.attributeClause w.nearForm) ∧ w.nearShould = none ∨
      options.nearMust w = none ∧ w.nearShould = some (options.attributeClause w.nearForm) := by
  obtain ⟨a, t⟩ := w
  unfold nearMust WorkingAttribute.nearShould WorkingAttribute.nearForm attributeClause
  dsimp only
  cases t with
  | absent => exact Or.inl ⟨rfl, rfl⟩
  | _ =>
      cases hkind : a.kind with
      | plain =>
          refine Or.inr ⟨rfl, ?_⟩
          simp [hkind, plainClause]
      | familyName =>
          refine Or.inl ⟨?_, rfl⟩
          simp [hkind, familyNameClause]
      | firstName =>
          refine Or.inl ⟨?_, rfl⟩
          simp [hkind, firstNameClause]

end SynthesisOptions

/-! ### Catalogs and observations -/

/-- A table that is made of rows of fields, or read off a configuration. -/
inductive CatalogTable.Built : CatalogTable → Prop
  | empty : Built .empty
  | insert {t : CatalogTable} (h : Built t) (key : String) (fields : List String) (kind : FieldKind)
      (treatment : Treatment) : Built (t.insert key (.ofKeys fields kind treatment))
  | ofConfig {attributes : List AttributeConfig} {t : CatalogTable}
      (h : CatalogTable.ofConfig attributes = .ok t) : Built t

/-- Every attribute has fields, none twice. -/
structure AttributeCatalog.Sound (catalog : AttributeCatalog) : Prop where
  fields : ∀ key, catalog.outputKeys key ≠ []
  distinct : ∀ key, (catalog.outputKeys key).Nodup

theorem CatalogEntry.nodup_ofKeys (keys : List String) (kind : FieldKind) (treatment : Treatment) :
    (ofKeys keys kind treatment).outputKeys.Nodup := by
  refine keys.foldlRecOn _ List.nodup_nil fun kept hkept key _ => ?_
  split_ifs with hkey
  · exact hkept
  · refine List.nodup_append.mpr ⟨hkept, List.nodup_singleton key, ?_⟩
    rintro k hk k' hk' rfl
    rw [List.mem_singleton.mp hk'] at hk
    exact hkey (List.contains_iff_mem.mpr hk)

namespace CatalogTable

/-- No entry has a field twice. -/
def Distinct (t : CatalogTable) : Prop :=
  ∀ key entry, t.entry? key = some entry → entry.outputKeys.Nodup

theorem Distinct.insert {t : CatalogTable} (h : t.Distinct) (key : String) {entry : CatalogEntry}
    (hentry : entry.outputKeys.Nodup) : (t.insert key entry).Distinct := by
  intro k e hget
  have hget : (t.entries.insert key entry).get? k = some e := hget
  rw [KeyMap.get?_insert] at hget
  split_ifs at hget
  · rwa [← Option.some.inj hget]
  · exact h k e hget

theorem distinct_empty : empty.Distinct := by
  intro key entry hget
  cases hget

theorem nodup_entryOfConfig {a : AttributeConfig} {entry : CatalogEntry}
    (h : entryOfConfig a = .ok entry) : entry.outputKeys.Nodup := by
  obtain ⟨kind, -, h⟩ := bind_eq_ok_iff.mp h
  obtain ⟨treatment, -, h⟩ := bind_eq_ok_iff.mp h
  rw [← Except.ok.inj h]
  exact CatalogEntry.nodup_ofKeys _ kind treatment

theorem distinct_ofConfig {attributes : List AttributeConfig} {t : CatalogTable}
    (h : ofConfig attributes = .ok t) : t.Distinct := by
  have hstart := distinct_empty
  unfold ofConfig at h
  generalize empty = start at h hstart
  induction attributes generalizing start with
  | nil => rwa [← Except.ok.inj h]
  | cons a attributes ih =>
      rw [List.foldlM_cons] at h
      obtain ⟨next, hnext, h⟩ := bind_eq_ok_iff.mp h
      obtain ⟨entry, hentry, hinsert⟩ := bind_eq_ok_iff.mp hnext
      rw [← Except.ok.inj hinsert] at h
      exact ih _ h (hstart.insert a.key (nodup_entryOfConfig hentry))

theorem Built.distinct {t : CatalogTable} (h : t.Built) : t.Distinct := by
  induction h with
  | empty => exact distinct_empty
  | insert _ key fields kind treatment ih =>
      exact ih.insert key (CatalogEntry.nodup_ofKeys fields kind treatment)
  | ofConfig h => exact distinct_ofConfig h

/-- In the catalog of a table an attribute without fields stands for one of its own. -/
theorem Built.sound {t : CatalogTable} (h : t.Built) : t.catalog.Sound := by
  constructor
  case fields =>
    intro key
    unfold catalog
    dsimp only
    split
    · split_ifs with hnone
      · exact List.cons_ne_nil _ _
      · exact fun hkeys => hnone (List.isEmpty_iff.mpr hkeys)
    · exact List.cons_ne_nil _ _
  case distinct =>
    intro key
    unfold catalog
    dsimp only
    split
    · rename_i entry hentry
      split_ifs
      · exact List.nodup_singleton key
      · exact h.distinct key entry hentry
    · exact List.nodup_singleton key

end CatalogTable

namespace Observation

variable {catalog : AttributeCatalog}

/-- The attributes of an observation are those of a catalog, with values that are not blank. -/
def Filled (catalog : AttributeCatalog) (o : Observation) : Prop :=
  ∀ a ∈ o.attributes, ∃ key value, Text.isBlank value = false ∧ a = .resolve catalog key value

theorem Filled.push {o : Observation} (h : o.Filled catalog) (key : String) {value : String}
    (hvalue : Text.isBlank value = false) : (o.push (.resolve catalog key value)).Filled catalog := by
  intro a ha
  rcases mem_push ha with rfl | ha
  · exact ⟨key, value, hvalue, rfl⟩
  · exact h a ha

theorem filled_ofValues (catalog : AttributeCatalog) (values : List (String × String)) :
    (ofValues catalog values).Filled catalog := by
  refine List.foldlRecOn _ _ (fun a ha => absurd ha List.not_mem_nil) fun o ho v hv => ho.push v.1 ?_
  rw [List.mem_mergeSort, List.mem_filter] at hv
  simpa using hv.2

end Observation

/-! ### Attributes of a search -/

/-- An attribute that can be searched for an observation: it is observed, or it is not and is asserted to
be absent. -/
def WorkingAttribute.From (catalog : AttributeCatalog) (o : Observation) (w : WorkingAttribute) :
    Prop :=
  w.observed ∈ o.attributes ∨ w.treatment = .absent ∧ ∃ key, w.observed = .unobserved catalog key

namespace WorkingAttribute

variable {catalog : AttributeCatalog} {o : Observation} {w : WorkingAttribute}

theorem From.sound (h : w.From catalog o) (hcatalog : catalog.Sound) {source : AttributeCatalog}
    (hsource : source.Sound) (ho : o.Filled source) : w.Sound := by
  rcases h with h | ⟨habsent, key, hw⟩
  · obtain ⟨key, value, hvalue, hw⟩ := ho _ h
    constructor
    all_goals rw [hw]
    · exact hsource.fields key
    · exact hsource.distinct key
    · exact fun _ => hvalue
  · constructor
    · rw [hw]
      exact hcatalog.fields key
    · rw [hw]
      exact hcatalog.distinct key
    · exact fun hpresent => absurd habsent hpresent

theorem observed_nearForm : w.nearForm.observed = w.observed := by
  unfold nearForm
  split <;> rfl

theorem nearForm_of_absent (h : w.treatment = .absent) : w.nearForm = w := by
  unfold nearForm
  rw [h]

theorem From.nearForm (h : w.From catalog o) : w.nearForm.From catalog o := by
  rcases h with h | ⟨habsent, hw⟩
  · left
    rwa [observed_nearForm]
  · rw [nearForm_of_absent habsent]
    exact Or.inr ⟨habsent, hw⟩

theorem From.asMissing (h : w.From catalog o) : w.asMissing.From catalog o :=
  h.imp_right fun h => ⟨rfl, h.2⟩

end WorkingAttribute

section workingSets

variable {r : Rule} {catalog : AttributeCatalog} {o : Observation}

theorem from_of_get? {key : String} {a : ObservedAttribute} (h : o.get? key = some a)
    (treatment : Treatment) : WorkingAttribute.From catalog o ⟨a, treatment⟩ :=
  Or.inl (Observation.mem_of_get? h)

theorem from_of_mem_items {w : WorkingAttribute} (h : w ∈ r.items o) : w.From catalog o := by
  obtain ⟨key, -, hkey⟩ := List.mem_filterMap.mp h
  obtain ⟨a, hget, rfl⟩ := Option.map_eq_some_iff.mp hkey
  exact from_of_get? hget _

theorem from_memberItem (key : AttributeKey) : (memberItem catalog o key).From catalog o := by
  unfold memberItem
  split
  · rename_i a hget
    exact from_of_get? hget _
  · exact Or.inr ⟨rfl, key.name, rfl⟩

theorem Variant.from_of_mem_workingSet {v : Variant} {w : WorkingAttribute}
    (h : w ∈ v.workingSet r catalog o) : w.From catalog o := by
  have hpick {is : List ℕ} {w : WorkingAttribute} (hw : w ∈ pick (r.items o) is) :
      w.From catalog o := by
    obtain ⟨i, -, hget⟩ := mem_pick.mp hw
    exact from_of_mem_items (List.mem_of_getElem? hget)
  rcases List.mem_append.mp h with h | hmissing
  · rcases List.mem_append.mp h with hequal | hgroup
    · exact hpick hequal
    · obtain ⟨key, -, rfl⟩ := List.mem_map.mp hgroup
      exact from_memberItem key
  · obtain ⟨w, hw, rfl⟩ := List.mem_map.mp hmissing
    exact (hpick hw).asMissing

/-- A rule searches for sets that are not empty, of attributes that can be searched for. -/
theorem from_of_workingSets {sets : List (List WorkingAttribute)}
    (h : r.workingSets catalog o = .ok sets) {set : List WorkingAttribute} (hset : set ∈ sets) :
    set ≠ [] ∧ ∀ w ∈ set, w.From catalog o := by
  by_cases happ : r.AppliesTo o
  · rcases Nat.lt_or_ge (r.items o).length r.nbEqualAttributes with hlt | hle
    · rw [workingSets_eq r catalog o happ, chooseAll_eq, if_pos hlt] at h
      cases h
    · rw [workingSets_of_le r catalog o happ hle] at h
      rw [← Except.ok.inj h] at hset
      obtain ⟨v, hv, rfl⟩ := List.mem_map.mp hset
      have hsome := (List.mem_filter.mp hv).2
      exact ⟨by simpa using hsome, fun w hw => v.from_of_mem_workingSet hw⟩
  · rw [Rule.workingSets, if_neg (mt (canApply_iff r o).mp happ)] at h
    rw [← Except.ok.inj h] at hset
    cases hset

end workingSets

/-! ### Well-formed searches -/

/-- A clause that says something of an attribute that can be searched for, and asks about the fields of this
attribute. -/
def SynthesisOptions.Derives (options : SynthesisOptions) (catalog : AttributeCatalog)
    (o : Observation) (c : Clause) : Prop :=
  ∃ w : WorkingAttribute, w.From catalog o ∧ c = options.attributeClause w ∧
    c.fields = w.observed.outputKeys

theorem SynthesisOptions.derives_attributeClause (options : SynthesisOptions)
    {catalog : AttributeCatalog} {o : Observation} {w : WorkingAttribute} (h : w.From catalog o) :
    options.Derives catalog o (options.attributeClause w) :=
  ⟨w, h, rfl, options.fields_attributeClause w⟩

/-- No clause of a search is degenerate, and one of them at least says something of an attribute. -/
structure Descriptor.WellFormed (options : SynthesisOptions) (catalog : AttributeCatalog)
    (o : Observation) (d : Descriptor) : Prop where
  clauses : ∀ c ∈ d.must ++ d.should, c.WellFormed
  ofAttribute : ∃ c ∈ d.must ++ d.should, options.Derives catalog o c

section unasked

variable {options : SynthesisOptions} {catalog : AttributeCatalog} {o : Observation} {d : Descriptor}

/-- The projection is no part of what is searched for. -/
theorem Descriptor.WellFormed.project (h : d.WellFormed options catalog o) (context : RequestContext) :
    (context.project d).WellFormed options catalog o :=
  ⟨h.clauses, h.ofAttribute⟩

/-- The marker is no part of what is searched for. -/
theorem Descriptor.WellFormed.marked (h : d.WellFormed options catalog o) (marker : Option Marker) :
    ({ d with marker := marker } : Descriptor).WellFormed options catalog o :=
  ⟨h.clauses, h.ofAttribute⟩

end unasked

namespace SynthesisOptions

variable (options : SynthesisOptions) {catalog : AttributeCatalog} {o : Observation}

theorem wellFormed_connected {connected : Bool} {c : Clause}
    (h : c ∈ if connected then options.connectedClauses else []) : c.WellFormed := by
  split_ifs at h
  · rcases List.mem_pair.mp h with rfl | rfl
    · exact .fieldPresent
    · exact .fieldPresent
  · cases h

section working

variable {working : List WorkingAttribute} (connected : Bool) (hsome : working ≠ [])
  (hfrom : ∀ w ∈ working, w.From catalog o)
  (hsound : ∀ w : WorkingAttribute, w.From catalog o → w.Sound)
include hsome hfrom hsound

theorem wellFormed_synthesize : (options.synthesize working connected).WellFormed options catalog o := by
  constructor
  case clauses =>
    intro c hc
    rcases List.mem_append.mp hc with hmust | hshould
    · rcases List.mem_append.mp hmust with hattribute | hconnected
      · obtain ⟨w, hw, rfl⟩ := List.mem_map.mp hattribute
        exact options.wellFormed_attributeClause (hsound w (hfrom w hw))
      · exact options.wellFormed_connected hconnected
    · cases hshould
  case ofAttribute =>
    obtain ⟨w, hw⟩ := List.exists_mem_of_ne_nil working hsome
    have hmem := List.mem_map_of_mem (f := options.attributeClause) hw
    exact ⟨_, List.mem_append_left _ (List.mem_append_left _ hmem),
      options.derives_attributeClause (hfrom w hw)⟩

theorem wellFormed_synthesizeNear :
    (options.synthesizeNear working connected).WellFormed options catalog o := by
  have hnear {w : WorkingAttribute} (hw : w ∈ working) : w.nearForm.From catalog o :=
    (hfrom w hw).nearForm
  constructor
  case clauses =>
    have hclause {w : WorkingAttribute} (hw : w ∈ working) {c : Clause}
        (hc : options.nearMust w = some c ∨ w.nearShould = some c) : c.WellFormed := by
      have hform : c = options.attributeClause w.nearForm := by
        rcases options.near_clauses w with ⟨hmust, hshould⟩ | ⟨hmust, hshould⟩
        all_goals
          rw [hmust, hshould] at hc
          simpa [eq_comm] using hc
      rw [hform]
      exact options.wellFormed_attributeClause (hsound _ (hnear hw))
    intro c hc
    rcases List.mem_append.mp hc with hmust | hshould
    · rcases List.mem_append.mp hmust with hmust | hconnected
      · obtain ⟨w, hw, hclauseOf⟩ := List.mem_filterMap.mp hmust
        exact hclause hw (Or.inl hclauseOf)
      · exact options.wellFormed_connected hconnected
    · obtain ⟨w, hw, hclauseOf⟩ := List.mem_filterMap.mp hshould
      exact hclause hw (Or.inr hclauseOf)
  case ofAttribute =>
    obtain ⟨w, hw⟩ := List.exists_mem_of_ne_nil working hsome
    refine ⟨_, List.mem_append.mpr ?_, options.derives_attributeClause (hnear hw)⟩
    rcases options.near_clauses w with ⟨hmust, -⟩ | ⟨-, hshould⟩
    · exact Or.inl (List.mem_append_left _ (List.mem_filterMap.mpr ⟨w, hw, hmust⟩))
    · exact Or.inr (List.mem_filterMap.mpr ⟨w, hw, hshould⟩)

end working
end SynthesisOptions

/-! ### Requests -/

/-- A request for the identities like an observed one. -/
inductive QueryRequest.About (o : Observation) : QueryRequest → Prop
  | basic : About o (.basic o)
  | complex (rule : Rule) : About o (.complex rule o)
  | near : About o (.near o)

theorem Observation.from_of_mem_working {catalog : AttributeCatalog} {o : Observation}
    {w : WorkingAttribute} (h : w ∈ o.working) : w.From catalog o := by
  obtain ⟨a, ha, rfl⟩ := List.mem_map.mp h
  exact Or.inl ha

theorem Observation.working_ne_nil {o : Observation} (h : ¬ o.isEmpty = true) : o.working ≠ [] := by
  intro hnil
  exact h (List.isEmpty_iff.mpr (List.map_eq_nil_iff.mp hnil))

namespace QueryRequest

variable {options : SynthesisOptions} {catalog : AttributeCatalog} {o : Observation}

/-- The one search of a request, which it does not have if nothing is observed. -/
theorem wellFormed_unlessEmpty {d : Descriptor}
    (h : o.working ≠ [] → d.WellFormed options catalog o) {context : RequestContext}
    {ds : List Descriptor}
    (hds : (if o.isEmpty then .ok [] else .ok [context.project d] : Except RuleError _) = .ok ds) :
    ∀ d ∈ ds, d.WellFormed options catalog o := by
  split_ifs at hds with hempty
  · rw [← Except.ok.inj hds]
    exact fun d hd => absurd hd List.not_mem_nil
  · rw [← Except.ok.inj hds]
    intro d' hd
    rw [List.mem_singleton.mp hd]
    exact (h (Observation.working_ne_nil hempty)).project context

/-- Every search of a request about an observation is well formed: no clause of it is degenerate, and one
of them at least says something of an attribute, so it is not a search for everything. -/
theorem build_wellFormed {t u : CatalogTable} (ht : t.Built) (hu : u.Built)
    (options : SynthesisOptions) (context : RequestContext) (values : List (String × String))
    {request : QueryRequest} (hrequest : request.About (.ofValues u.catalog values))
    {ds : List Descriptor} (hds : request.build t.catalog options context = .ok ds) :
    ∀ d ∈ ds, d.WellFormed options t.catalog (.ofValues u.catalog values) := by
  have hfilled := Observation.filled_ofValues u.catalog values
  generalize Observation.ofValues u.catalog values = o at hrequest hfilled
  have hsound : ∀ w : WorkingAttribute, w.From t.catalog o → w.Sound :=
    fun w hw => hw.sound ht.sound hu.sound hfilled
  have hworking : ∀ w ∈ o.working, w.From t.catalog o := fun w => Observation.from_of_mem_working
  cases hrequest with
  | basic =>
      exact wellFormed_unlessEmpty
        (options.wellFormed_synthesize context.connected · hworking hsound) hds
  | near =>
      exact wellFormed_unlessEmpty
        (options.wellFormed_synthesizeNear context.connected · hworking hsound) hds
  | complex rule =>
      obtain ⟨sets, hsets, hds⟩ := bind_eq_ok_iff.mp hds
      rw [← Except.ok.inj hds]
      intro d hd
      obtain ⟨⟨set, variant⟩, hset, rfl⟩ := List.mem_map.mp hd
      obtain ⟨hsome, hfrom⟩ := from_of_workingSets hsets (List.fst_mem_of_mem_zipIdx hset)
      have h := options.wellFormed_synthesize (rule.connected || context.connected) hsome hfrom hsound
      exact (h.marked _).project context

/-! ### First names in two fields -/

/-- A catalog of one attribute that stands for two fields. -/
def givenNames : CatalogTable :=
  CatalogTable.empty.insert "givenNames"
    (.ofKeys ["firstName", "usageFirstName", "firstName"] .firstName .approximated)

def jeanPaul : Observation := .ofValues givenNames.catalog [("givenNames", " Jean  Paul ")]

theorem jeanPaul_eq_push :
    jeanPaul = Observation.empty.push (.resolve givenNames.catalog "givenNames" " Jean  Paul ") := by
  rw [jeanPaul, Observation.ofValues_of_pairwise (by decide +kernel) (by decide +kernel)]
  rfl

theorem working_jeanPaul : jeanPaul.working =
    [⟨.resolve givenNames.catalog "givenNames" " Jean  Paul ", .approximated⟩] := by
  rw [jeanPaul_eq_push]
  rfl

/-- A first name of two words in two fields is an alternative of two spans. -/
theorem attributeClause_jeanPaul (options : SynthesisOptions) :
    options.attributeClause
        ⟨.resolve givenNames.catalog "givenNames" " Jean  Paul ", .approximated⟩ =
      .anyOf [.proximityMatch "firstName" ["jean", "paul"] 1 options.fuzziness,
        .proximityMatch "usageFirstName" ["jean", "paul"] 1 options.fuzziness] := by
  have hkind : givenNames.catalog.kind "givenNames" = .firstName := by decide +kernel
  have hkeys : givenNames.catalog.outputKeys "givenNames" = ["firstName", "usageFirstName"] := by
    decide +kernel
  have hfirst : PersonName.first " Jean  Paul " = "jean paul" := by decide +kernel
  have hwords : PersonName.words "jean paul" = ["jean", "paul"] := by decide +kernel
  simp [SynthesisOptions.attributeClause, ObservedAttribute.resolve, hkind, hkeys,
    SynthesisOptions.firstNameClause, SynthesisOptions.nearFirstName, hfirst, hwords]

theorem build_wellFormed_jeanPaul :
    let options : SynthesisOptions := .ofMatching {}
    ∃ d : Descriptor, (basic jeanPaul).build givenNames.catalog options {} = .ok [d] ∧
      d.must = [.anyOf [.proximityMatch "firstName" ["jean", "paul"] 1 1,
        .proximityMatch "usageFirstName" ["jean", "paul"] 1 1]] ∧
      d.WellFormed options givenNames.catalog jeanPaul := by
  intro options
  have hbuilt : givenNames.Built := .insert .empty _ _ _ _
  have hsome : jeanPaul.isEmpty = false := by
    rw [jeanPaul_eq_push]
    rfl
  have hbuild : (basic jeanPaul).build givenNames.catalog options {} =
      .ok [options.synthesize jeanPaul.working false] := by
    rw [build, if_neg (by simp [hsome])]
    rfl
  refine ⟨_, hbuild, ?_, build_wellFormed hbuilt hbuilt options {} _ .basic hbuild _
    (List.mem_singleton_self _)⟩
  rw [SynthesisOptions.synthesize, working_jeanPaul, List.map_singleton, attributeClause_jeanPaul]
  rfl

end QueryRequest

end Lookalike
