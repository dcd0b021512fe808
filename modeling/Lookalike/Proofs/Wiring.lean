import Lookalike.Proofs.Embeddings
import Lookalike.Proofs.Registries
import Lookalike.Proofs.ValidConfig
import Lookalike.Proofs.Vocabulary
import Lookalike.Service

/-! # Services of valid configurations

A configuration is read twice: the check reads it to find faults, and the parts of a service are built
from it by parsers of their own, which could find others.  `Rule.IsOf` and `CatalogEntry.IsOf` say what
is built, `DuplicateService.Serves` what a service then knows.

Main statement: `ofConfigWith_serves`.  A service is set up exactly if the check accepts the
configuration, and fails with the fault of the check otherwise. -/

namespace Lookalike

/-! ### Lists, member by member -/

section Lists

variable {α β ε : Type} {R : α → β → Prop} {f : α → Except ε β} {xs : List α} {ys : List β}

theorem exists_forall₂ (h : ∀ x ∈ xs, ∃ y, R x y) : ∃ ys, List.Forall₂ R xs ys := by
  induction xs with
  | nil => exact ⟨[], .nil⟩
  | cons x xs ih =>
      obtain ⟨⟨y, hy⟩, hxs⟩ := List.forall_mem_cons.mp h
      obtain ⟨ys, hys⟩ := ih hxs
      exact ⟨y :: ys, .cons hy hys⟩

theorem exists_of_forall₂_left (h : List.Forall₂ R xs ys) {x : α} (hx : x ∈ xs) :
    ∃ y ∈ ys, R x y := by
  induction h with
  | nil => cases hx
  | @cons x' y' xs ys hR _ ih =>
      rcases List.mem_cons.mp hx with rfl | hx
      · exact ⟨y', List.mem_cons_self, hR⟩
      · obtain ⟨y, hy, hxy⟩ := ih hx
        exact ⟨y, List.mem_cons_of_mem y' hy, hxy⟩

theorem mapM_eq_ok_of_forall₂ (h : List.Forall₂ (fun x y => f x = .ok y) xs ys) :
    xs.mapM f = .ok ys := by
  induction h with
  | nil => rfl
  | cons hxy _ ih =>
      rw [List.mapM_cons, hxy, ih]
      rfl

theorem exists_mapM_of_forall (h : ∀ x ∈ xs, ∃ y, f x = .ok y ∧ R x y) :
    ∃ ys, xs.mapM f = .ok ys ∧ List.Forall₂ R xs ys := by
  obtain ⟨ys, hys⟩ := exists_forall₂ h
  exact ⟨ys, mapM_eq_ok_of_forall₂ (hys.imp fun _ _ hxy => hxy.1), hys.imp fun _ _ hxy => hxy.2⟩

end Lists

/-! ### Rules -/

/-- A rule names an attribute as it is configured, with the treatment that is spelled so. -/
structure AttributeKey.IsOf (k : AttributeKey) (a : RuleAttributeConfig) : Prop where
  name : k.name = a.key
  treatment : k.treatment.map Treatment.word = a.treatment.map Text.canonicalWord

/-- A group has the members that are configured, in order. -/
structure TreatmentGroup.IsOf (g : TreatmentGroup) (c : TreatmentGroupConfig) : Prop where
  name : g.name = c.name
  attributes : List.Forall₂ (fun a k => k.IsOf a) c.attributes g.attributes

namespace Rule

/-- A rule says what is configured. -/
structure IsOf (r : Rule) (c : RuleConfig) : Prop where
  code : r.code = c.code
  priority : r.priority = c.priority
  nbFilledAttributes : r.nbFilledAttributes = c.nbFilledAttributes
  nbEqualAttributes : r.nbEqualAttributes = c.nbEqualAttributes
  nbMissingAttributes : r.nbMissingAttributes = c.nbMissingAttributes
  connected : r.connected = c.connected
  checkedAttributes :
    List.Forall₂ (fun a (k : AttributeKey) => k.IsOf a) c.checkedAttributes r.checkedAttributes
  treatmentGroups :
    List.Forall₂ (fun g (group : TreatmentGroup) => group.IsOf g) c.treatmentGroups
      r.treatmentGroups

theorem exists_keyOfConfig {a : RuleAttributeConfig} (h : a.Valid) :
    ∃ k, keyOfConfig a = .ok k ∧ k.IsOf a := by
  obtain ⟨key, treatment⟩ := a
  cases treatment with
  | none => exact ⟨{ name := key }, rfl, rfl, rfl⟩
  | some word =>
      obtain ⟨t, ht⟩ := Treatment.exists_parse_iff.mpr (h.treatment word rfl)
      refine ⟨{ name := key, treatment := some t }, ?_, rfl, ?_⟩
      · simp only [keyOfConfig, ht]
        rfl
      · exact congrArg some (Treatment.parse_eq_ok_iff.mp ht)

theorem exists_groupOfConfig {g : TreatmentGroupConfig} (h : g.Valid) :
    ∃ group, groupOfConfig g = .ok group ∧ group.IsOf g := by
  obtain ⟨attributes, hmapM, hof⟩ :=
    exists_mapM_of_forall fun a ha => exists_keyOfConfig (h.attributes a ha)
  refine ⟨{ name := g.name, attributes }, ?_, rfl, hof⟩
  rw [groupOfConfig, hmapM]
  rfl

/-- A valid rule can be built, and says what is configured. -/
theorem exists_ofConfig {c : RuleConfig} (h : c.Valid) : ∃ r, ofConfig c = .ok r ∧ r.IsOf c := by
  have hvalidate : c.validate = .ok () := RuleConfig.validate_eq_ok_iff.mpr h
  obtain ⟨checked, hchecked, hcheckedOf⟩ :=
    exists_mapM_of_forall fun a ha => exists_keyOfConfig (h.checkedAttributes a ha)
  obtain ⟨groups, hgroups, hgroupsOf⟩ :=
    exists_mapM_of_forall fun g hg => exists_groupOfConfig (h.treatmentGroups g hg)
  let r : Rule := {
    code := c.code
    priority := c.priority
    checkedAttributes := checked
    nbFilledAttributes := c.nbFilledAttributes
    nbEqualAttributes := c.nbEqualAttributes
    nbMissingAttributes := c.nbMissingAttributes
    connected := c.connected
    treatmentGroups := groups }
  refine ⟨r, ?_, rfl, rfl, rfl, rfl, rfl, rfl, hcheckedOf, hgroupsOf⟩
  rw [ofConfig, hvalidate, hchecked, hgroups]
  rfl

end Rule

namespace ConfiguredRules

theorem add_eq_ok {rules : KeyMap Rule} {c : RuleConfig} {r : Rule} (hr : Rule.ofConfig c = .ok r)
    (hnew : rules.get? r.code = none) : add rules c = .ok (rules.insert r.code r) := by
  have hcontains : rules.contains r.code = false := by
    simp [KeyMap.contains, hnew]
  rw [add, hr]
  simp [Except.mapError, bind, Except.bind, hcontains, pure, Except.pure]

/-- Rules of different codes are all kept. -/
theorem exists_foldlM_add {configs : List RuleConfig} {rules : List Rule}
    (h : List.Forall₂ (fun c r => Rule.ofConfig c = .ok r) configs rules)
    (hdistinct : (rules.map (·.code)).Nodup) {start : KeyMap Rule}
    (hnew : ∀ r ∈ rules, start.get? r.code = none) :
    ∃ m, configs.foldlM add start = .ok m ∧
      m.toList.Perm (rules.map (fun r => (r.code, r)) ++ start.toList) := by
  induction h generalizing start with
  | nil => exact ⟨start, rfl, List.Perm.refl _⟩
  | @cons c r configs rules hr _ ih =>
      obtain ⟨hstart, hrest⟩ := List.forall_mem_cons.mp hnew
      obtain ⟨hcode, hcodes⟩ := List.nodup_cons.mp (List.map_cons ▸ hdistinct)
      have hstill : ∀ q ∈ rules, (start.insert r.code r).get? q.code = none := by
        intro q hq
        have hne : q.code ≠ r.code := fun heq => hcode (heq ▸ List.mem_map_of_mem hq)
        rw [KeyMap.get?_insert, if_neg hne]
        exact hrest q hq
      obtain ⟨m, hm, hperm⟩ := ih hcodes hstill
      refine ⟨m, ?_, ?_⟩
      · rw [List.foldlM_cons, add_eq_ok hr hstart]
        exact hm
      · have hentries : (start.insert r.code r).toList.Perm ((r.code, r) :: start.toList) :=
          KeyMap.toList_insert_perm r hstart
        exact (hperm.trans (hentries.append_left _)).trans List.perm_middle

/-- Valid rules of different codes are filed under their codes. -/
theorem exists_ofConfig {configs : List RuleConfig} (hvalid : ∀ c ∈ configs, c.Valid)
    (hdistinct : (configs.map (·.code)).Nodup) :
    ∃ configured rules, ofConfig configs = .ok configured ∧ configured.Filed ∧
      List.Forall₂ (fun c r => r.IsOf c) configs rules ∧ configured.byCode.values.Perm rules := by
  obtain ⟨rules, hbuilt⟩ := exists_forall₂ fun c hc => Rule.exists_ofConfig (hvalid c hc)
  have hof : List.Forall₂ (fun c (r : Rule) => r.IsOf c) configs rules :=
    hbuilt.imp fun _ _ h => h.2
  have hcodes : rules.map (·.code) = configs.map (·.code) :=
    map_eq_map_of_forall₂ hof fun _ _ h => h.code
  have hnew : ∀ r ∈ rules, (∅ : KeyMap Rule).get? r.code = none :=
    fun r _ => KeyMap.get?_empty r.code
  obtain ⟨m, hm, hperm⟩ :=
    exists_foldlM_add (hbuilt.imp fun _ _ h => h.1) (hcodes ▸ hdistinct) hnew
  have hentries : m.toList.Perm (rules.map fun r => (r.code, r)) :=
    hperm.trans (.of_eq (List.append_nil _))
  have hvalues : m.values.Perm rules := by
    have hsnd := hentries.map Prod.snd
    rwa [List.map_map, List.map_id''] at hsnd
    exact fun _ => rfl
  have hfiled : ConfiguredRules.Filed ⟨m⟩ := by
    intro r hr
    have hrule : r ∈ rules := hvalues.mem_iff.mp hr
    exact KeyMap.mem_toList.mp (hentries.mem_iff.mpr (List.mem_map_of_mem hrule))
  refine ⟨⟨m⟩, rules, ?_, hfiled, hof, hvalues⟩
  rw [ofConfig, hm]
  rfl

/-- The registry of valid rules of different codes holds each of them once, in strict order. -/
theorem exists_registry {σ : Type} {configs : List RuleConfig} (hvalid : ∀ c ∈ configs, c.Valid)
    (hdistinct : (configs.map (·.code)).Nodup) :
    ∃ configured registry rules, ofConfig configs = .ok configured ∧
      RuleRegistry.load (configured.repository σ) = pure registry ∧
      List.Forall₂ (fun c r => r.IsOf c) configs rules ∧
      registry.snapshot.rules.Perm rules ∧
      registry.snapshot.rules.Pairwise Rule.Before := by
  obtain ⟨configured, rules, hconfigured, hfiled, hof, hvalues⟩ := exists_ofConfig hvalid hdistinct
  obtain ⟨registry, hload, taken, htaken, hsnapshot⟩ := load_repository (σ := σ) hfiled
  have hperm : taken.Perm rules := htaken.trans hvalues
  have hcodes : (taken.map (·.code)).Nodup := by
    rw [(hperm.map _).nodup_iff, map_eq_map_of_forall₂ hof fun _ _ h => h.code]
    exact hdistinct
  refine ⟨configured, registry, rules, hconfigured, hload, hof, ?_, ?_⟩
  · rw [hsnapshot]
    exact (RuleSnapshot.perm_ofRules taken).trans hperm
  · rw [hsnapshot]
    exact RuleSnapshot.increasing_ofRules hcodes

end ConfiguredRules

/-! ### Attributes -/

/-- An entry says what is configured: the fields without blanks around them, each where it is listed
first. -/
structure CatalogEntry.IsOf (e : CatalogEntry) (a : AttributeConfig) : Prop where
  outputKeys : e.outputKeys = (a.outputKeys.map Text.trim).eraseDups
  kind : e.kind.word = Text.canonicalWord a.kind
  defaultTreatment : e.defaultTreatment.word = Text.canonicalWord a.defaultTreatment

/-- Keys are kept that are neither kept already nor repeated. -/
theorem CatalogEntry.foldl_keep (keys kept : List String) :
    keys.foldl (fun kept key => if kept.contains key then kept else kept ++ [key]) kept =
      kept ++ (keys.filter fun key => !kept.contains key).eraseDups := by
  induction keys generalizing kept with
  | nil => simp
  | cons key keys ih =>
      rw [List.foldl_cons, ih]
      by_cases hkey : kept.contains key = true
      · rw [if_pos hkey, List.filter_cons_of_neg (by simpa using hkey)]
      · have hfilter : (fun k => !(kept ++ [key]).contains k) =
            fun k => !(k == key) && !kept.contains k := by
          funext k
          rw [List.contains_append, List.contains_cons, List.contains_nil, Bool.or_false, Bool.not_or,
            Bool.and_comm]
        rw [if_neg hkey, List.filter_cons_of_pos (by simpa using hkey), List.eraseDups_cons,
          List.filter_filter, hfilter, List.append_assoc, List.singleton_append]

theorem CatalogEntry.outputKeys_ofKeys (keys : List String) (kind : FieldKind)
    (treatment : Treatment) : (ofKeys keys kind treatment).outputKeys = keys.eraseDups := by
  have hall : (keys.filter fun key => !([] : List String).contains key) = keys :=
    List.filter_eq_self.mpr fun _ _ => rfl
  have h := foldl_keep keys []
  rwa [List.nil_append, hall] at h

namespace CatalogTable

theorem exists_entryOfConfig {a : AttributeConfig} (h : a.Valid) :
    ∃ e, entryOfConfig a = .ok e ∧ e.IsOf a := by
  obtain ⟨kind, hkind⟩ := FieldKind.exists_parse_iff.mpr h.kind
  obtain ⟨treatment, htreatment⟩ := Treatment.exists_parse_iff.mpr h.defaultTreatment
  refine ⟨.ofKeys (a.outputKeys.map Text.trim) kind treatment, ?_, ?_, ?_, ?_⟩
  · rw [entryOfConfig, hkind, htreatment]
    rfl
  · exact CatalogEntry.outputKeys_ofKeys _ kind treatment
  · exact FieldKind.parse_eq_ok_iff.mp hkind
  · exact Treatment.parse_eq_ok_iff.mp htreatment

theorem entry?_insert (t : CatalogTable) (key key' : String) (e : CatalogEntry) :
    entry? (t.insert key e) key' = if key' = key then some e else t.entry? key' :=
  KeyMap.get?_insert t.entries key key' e

/-- Valid attributes of different keys are all entered, and nothing else is. -/
theorem exists_foldlM_insert {attributes : List AttributeConfig}
    (hvalid : ∀ a ∈ attributes, a.Valid) (hdistinct : (attributes.map (·.key)).Nodup)
    (start : CatalogTable) :
    ∃ t, attributes.foldlM (fun t a => do pure (t.insert a.key (← entryOfConfig a))) start = .ok t ∧
      (∀ a ∈ attributes, ∃ e, t.entry? a.key = some e ∧ e.IsOf a) ∧
      ∀ key ∉ attributes.map (·.key), t.entry? key = start.entry? key := by
  induction attributes generalizing start with
  | nil => exact ⟨start, rfl, by simp, fun _ _ => rfl⟩
  | cons a attributes ih =>
      obtain ⟨ha, hrest⟩ := List.forall_mem_cons.mp hvalid
      obtain ⟨hkey, hkeys⟩ := List.nodup_cons.mp (List.map_cons ▸ hdistinct)
      obtain ⟨e, he, hof⟩ := exists_entryOfConfig ha
      obtain ⟨t, ht, hentered, hother⟩ := ih hrest hkeys (start.insert a.key e)
      refine ⟨t, ?_, List.forall_mem_cons.mpr ⟨⟨e, ?_, hof⟩, hentered⟩, ?_⟩
      · rw [List.foldlM_cons, he]
        exact ht
      · rw [hother a.key hkey, entry?_insert, if_pos rfl]
      · intro key hnot
        obtain ⟨hne, hnot⟩ := not_or.mp (mt List.mem_cons.mpr hnot)
        rw [hother key hnot, entry?_insert, if_neg hne]

end CatalogTable

/-- A catalog answers for a configured attribute with what is configured. -/
structure AttributeCatalog.Knows (catalog : AttributeCatalog) (a : AttributeConfig) : Prop where
  outputKeys : catalog.outputKeys a.key = (a.outputKeys.map Text.trim).eraseDups
  kind : (catalog.kind a.key).word = Text.canonicalWord a.kind
  defaultTreatment : (catalog.defaultTreatment a.key).word = Text.canonicalWord a.defaultTreatment

theorem CatalogTable.catalog_knows {t : CatalogTable} {a : AttributeConfig} {e : CatalogEntry}
    (he : t.entry? a.key = some e) (hof : e.IsOf a) (hkeys : a.outputKeys ≠ []) :
    t.catalog.Knows a := by
  have hne : e.outputKeys ≠ [] := by
    rw [hof.outputKeys]
    cases h : a.outputKeys with
    | nil => exact absurd h hkeys
    | cons key keys => simp [List.eraseDups_cons]
  refine ⟨?_, ?_, ?_⟩
  · rw [← hof.outputKeys]
    simp [catalog, he, hne]
  · rw [← hof.kind]
    simp [catalog, he]
  · rw [← hof.defaultTreatment]
    simp [catalog, he]

/-- Valid attributes of different keys make a catalog that knows each of them. -/
theorem CatalogTable.exists_ofConfig {attributes : List AttributeConfig}
    (hvalid : ∀ a ∈ attributes, a.Valid) (hdistinct : (attributes.map (·.key)).Nodup) :
    ∃ t, ofConfig attributes = .ok t ∧ ∀ a ∈ attributes, t.catalog.Knows a := by
  obtain ⟨t, ht, hentered, -⟩ := exists_foldlM_insert hvalid hdistinct empty
  refine ⟨t, ht, fun a ha => ?_⟩
  obtain ⟨e, he, hof⟩ := hentered a ha
  exact catalog_knows he hof (hvalid a ha).outputKeys_ne_nil

/-! ### Services -/

namespace DuplicateService

variable {σ : Type} {c : Config} {s : DuplicateService σ}

/-- A service does what a configuration says with the backend and the identity state it was given: it
holds the configured rules, each once and in strict order, finds each under its code and knows every
configured attribute. -/
structure Serves (s : DuplicateService σ) (c : Config) (backend : SearchBackend σ)
    (state : IdentityState σ) : Prop where
  parts : s = ofParts c.matching s.catalog s.registry backend state
  rules : ∃ rules, List.Forall₂ (fun rc (r : Rule) => r.IsOf rc) c.rules rules ∧
    s.registry.snapshot.rules.Perm rules
  increasing : s.registry.snapshot.rules.Pairwise Rule.Before
  registered : ∀ rc ∈ c.rules, ∃ r, s.registry.get rc.code = .ok r ∧ r.IsOf rc
  knows : ∀ a ∈ c.attributes, s.catalog.Knows a

theorem Serves.codes_perm {backend : SearchBackend σ} {state : IdentityState σ}
    (h : s.Serves c backend state) :
    s.registry.snapshot.codes.Perm (c.rules.map (·.code)) := by
  obtain ⟨rules, hof, hperm⟩ := h.rules
  rw [← map_eq_map_of_forall₂ hof fun _ _ hr => hr.code]
  exact hperm.map (·.code)

/-- A valid configuration can be set up, whoever takes part. -/
theorem exists_ofConfigWith (h : c.validate = .ok ()) (backend : SearchBackend σ)
    (state : IdentityState σ) :
    ∃ s, ofConfigWith c backend state = pure s ∧ s.Serves c backend state := by
  obtain ⟨-, -, hattributes, hrules⟩ := Config.validate_eq_ok_iff.mp h
  obtain ⟨hvalidAttributes, hkeys⟩ := allFresh_empty.mp hattributes
  obtain ⟨hvalidRules, hcodes⟩ := allFresh_empty.mp hrules
  obtain ⟨table, htable, hknows⟩ := CatalogTable.exists_ofConfig hvalidAttributes hkeys
  obtain ⟨configured, registry, rules, hconfigured, hload, hof, hperm, hincreasing⟩ :=
    ConfiguredRules.exists_registry (σ := σ) (fun rc hrc => (hvalidRules rc hrc).2) hcodes
  have hdistinct : (registry.snapshot.rules.map (·.code)).Nodup := by
    rw [(hperm.map _).nodup_iff, map_eq_map_of_forall₂ hof fun _ _ hr => hr.code]
    exact hcodes
  refine ⟨ofParts c.matching table.catalog registry backend state, ?_, rfl, ⟨rules, hof, hperm⟩,
    hincreasing, ?registered, hknows⟩
  · rw [ofConfigWith, h, Step.ofExcept_ok, pure_bind, htable, Step.ofExcept_ok, pure_bind,
      hconfigured, Step.ofExcept_ok, pure_bind, hload, pure_bind]
  case registered =>
    intro rc hrc
    obtain ⟨r, hr, hrof⟩ := exists_of_forall₂_left hof hrc
    refine ⟨r, ?_, hrof⟩
    rw [← hrof.code]
    exact RuleRegistry.get_of_mem hdistinct (hperm.mem_iff.mpr hr)

/-- Setting up a service comes to checking its configuration: it fails with the fault of the check, or
gives a service that does what is configured. -/
theorem ofConfigWith_serves (c : Config) (backend : SearchBackend σ) (state : IdentityState σ) :
    match c.validate with
    | .error fault => ofConfigWith c backend state = throw (.invalidConfig fault)
    | .ok () => ∃ s, ofConfigWith c backend state = pure s ∧ s.Serves c backend state := by
  cases h : c.validate with
  | error fault =>
      rw [ofConfigWith, h, Step.ofExcept_error]
      rfl
  | ok _ => exact exists_ofConfigWith h backend state

end DuplicateService

end Lookalike
