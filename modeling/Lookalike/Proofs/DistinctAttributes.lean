import Lookalike.Proofs.AcceptedRules
import Lookalike.Proofs.Influence

/-! # Attributes that a search treats twice

A working set is put together from attributes that agree, a group and attributes that are missing.  A rule
that is accepted checks no attribute twice, the group shares none with those that agree, and the missing
ones are free of both; but nothing keeps a group from naming an attribute twice.  So a set treats an
attribute twice exactly if its group names one twice, and then its search may contradict itself.

Main statement: `workingSets_treatedOnce`. -/

namespace Lookalike

/-! ### Sets without repetition -/

/-- No attribute occurs twice, so none has two treatments. -/
def TreatedOnce (ws : List WorkingAttribute) : Prop := (ws.map (·.key)).Nodup

/-- No two of some keys name one attribute. -/
def NamedOnce (keys : List AttributeKey) : Prop := (keys.map (·.name)).Nodup

instance (ws : List WorkingAttribute) : Decidable (TreatedOnce ws) :=
  inferInstanceAs (Decidable (List.Nodup _))

section Sets

variable {r : Rule} {catalog : AttributeCatalog} {o : Observation} {v : Variant}

theorem map_key_workingSet (r : Rule) (catalog : AttributeCatalog) (o : Observation) (v : Variant) :
    (v.workingSet r catalog o).map (·.key) =
      (v.equalItems r o).map (·.key) ++ (v.groupKeys r).map (·.name) ++
        (v.missingItems r o).map (·.key) := by
  rw [Variant.workingSet, List.map_append, List.map_append, List.map_map, List.map_map]
  refine congrArg₂ _ (congrArg _ (List.map_congr_left fun key _ => ?_)) rfl
  exact key_memberItem catalog o key

/-- Of the three parts of a set only the group can repeat an attribute. -/
theorem treatedOnce_workingSet_iff (h : r.Accepted) (hv : IsVariant r catalog o v) :
    TreatedOnce (v.workingSet r catalog o) ↔ NamedOnce (v.groupKeys r) := by
  have hitems := h.nodup_items o
  have hequal : ((v.equalItems r o).map (·.key)).Nodup := hitems.sublist (hv.equal.sublist.map _)
  have hmissing : ((v.missingItems r o).map (·.key)).Nodup := hitems.sublist (hv.missing.sublist.map _)
  have hapart := apart_iff.mp hv.apart
  have hungrouped := apart_iff.mp hv.ungrouped
  rw [TreatedOnce, NamedOnce, map_key_workingSet, List.nodup_append, List.nodup_append]
  constructor
  · intro hnodup
    exact hnodup.1.2.1
  · intro hgroup
    refine ⟨⟨hequal, hgroup, ?_⟩, hmissing, ?_⟩
    · rintro key hkey name hname rfl
      obtain ⟨member, hmember, rfl⟩ := List.mem_map.mp hname
      exact hapart member hmember hkey
    · rintro key hkey name hname rfl
      rcases List.mem_append.mp hkey with hagree | hgrouped
      · obtain ⟨e, he, heq⟩ := List.mem_map.mp hagree
        obtain ⟨w, hw, rfl⟩ := List.mem_map.mp hname
        exact hv.rest w hw e he heq.symm
      · obtain ⟨member, hmember, rfl⟩ := List.mem_map.mp hgrouped
        exact hungrouped member hmember hname

theorem exists_workingSets (h : r.Accepted) (catalog : AttributeCatalog) (o : Observation) :
    ∃ sets, r.workingSets catalog o = .ok sets ∧ ∀ set, set ∈ sets ↔
      r.canApply o = true ∧ ∃ v, IsVariant r catalog o v ∧ v.workingSet r catalog o = set := by
  by_cases happ : r.AppliesTo o
  · refine ⟨_, workingSets_of_le r catalog o happ (h.equal_le_items happ), fun set => ?_⟩
    simp only [List.mem_map, mem_variants, canApply_iff, happ, true_and]
  · refine ⟨[], ?_, fun set => ?_⟩
    · rw [Rule.workingSets, if_neg (mt (canApply_iff r o).mp happ)]
      rfl
    · simp [canApply_iff, happ]

/-- A rule takes over the groups that are configured, so it names twice only what they name twice. -/
theorem namedOnce_groupKeys {c : RuleConfig} (hof : r.IsOf c)
    (h : ∀ g ∈ c.treatmentGroups, (g.attributes.map (·.key)).Nodup)
    (hgroup : v.group < r.groupChoices.length) : NamedOnce (v.groupKeys r) := by
  rcases Variant.groupKeys_cases hgroup with ⟨hkeys, -⟩ | ⟨g, hg, hkeys⟩
  · rw [hkeys]
    exact List.nodup_nil
  · obtain ⟨config, hconfig, hgroupOf⟩ := exists_of_forall₂_left hof.treatmentGroups.flip hg
    rw [hkeys, NamedOnce, map_eq_map_of_forall₂ hgroupOf.attributes fun _ _ hkey => hkey.name]
    exact h config hconfig

end Sets

/-! ### Sets of a rule -/

/-- The searches of an accepted rule are made of working sets, one for each variant.  In a set the
attributes differ exactly if the group of its variant names no attribute twice; so in all sets of a rule
whose configured groups name none twice they do. -/
theorem workingSets_treatedOnce {c : RuleConfig} {r : Rule} (hbuilt : Rule.ofConfig c = .ok r)
    (catalog : AttributeCatalog) (o : Observation) :
    ∃ sets, r.workingSets catalog o = .ok sets ∧
      (∀ options context, r.generate catalog options o context =
        .ok (numbered (sets.map (r.searchFor options context)))) ∧
      (∀ set, set ∈ sets ↔
        r.canApply o = true ∧ ∃ v, IsVariant r catalog o v ∧ v.workingSet r catalog o = set) ∧
      (∀ v, IsVariant r catalog o v →
        (TreatedOnce (v.workingSet r catalog o) ↔ NamedOnce (v.groupKeys r))) ∧
      ((∀ g ∈ c.treatmentGroups, (g.attributes.map (·.key)).Nodup) →
        ∀ set ∈ sets, TreatedOnce set) := by
  have haccepted := Rule.accepted_of_ofConfig hbuilt
  obtain ⟨sets, hsets, hmem⟩ := exists_workingSets haccepted catalog o
  refine ⟨sets, hsets, fun options context => ?searches, hmem,
    fun v hv => treatedOnce_workingSet_iff haccepted hv, fun hgroups set hset => ?once⟩
  case searches =>
    exact (generate_eq_ok_iff_workingSets r options context).mpr ⟨sets, hsets, rfl⟩
  case once =>
    obtain ⟨-, v, hv, rfl⟩ := (hmem set).mp hset
    rw [treatedOnce_workingSet_iff haccepted hv]
    exact namedOnce_groupKeys (Rule.isOf_of_ofConfig hbuilt) hgroups hv.group

/-- A configured rule whose only group treats e-mail addresses by some words. -/
def mailGroupConfig (words : List String) : RuleConfig where
  code := "R"
  priority := 1
  nbFilledAttributes := 1
  nbEqualAttributes := 1
  checkedAttributes := [{ key := "birthDate" }]
  treatmentGroups := [{
    name := "mail"
    attributes := words.map fun word => { key := "email", treatment := some word } }]

/-- A rule whose only group treats e-mail addresses in some ways. -/
def mailGroupRule (treatments : List Treatment) : Rule where
  code := "R"
  priority := 1
  nbFilledAttributes := 1
  nbEqualAttributes := 1
  checkedAttributes := [{ name := "birthDate" }]
  treatmentGroups := [{
    name := "mail"
    attributes := treatments.map fun treatment => ⟨"email", some treatment⟩ }]

/-- One treatment of e-mail addresses gives one set, with another attribute and no repetition. -/
theorem workingSets_treatedOnce_mailGroupRule :
    Rule.ofConfig (mailGroupConfig [" Different"]) = .ok (mailGroupRule [.different]) ∧
      ∃ set : List WorkingAttribute, set.length = 2 ∧ TreatedOnce set ∧
        (mailGroupRule [.different]).workingSets CatalogTable.person.catalog
          (birthObserved "1970" (mailObserved .empty)) = .ok [set] := by
  have hbuilt : Rule.ofConfig (mailGroupConfig [" Different"]) = .ok (mailGroupRule [.different]) := by
    rfl
  obtain ⟨sets, hsets, -, -, -, honce⟩ := workingSets_treatedOnce hbuilt CatalogTable.person.catalog
    (birthObserved "1970" (mailObserved .empty))
  have hlengths : ((mailGroupRule [.different]).workingSets CatalogTable.person.catalog
      (birthObserved "1970" (mailObserved .empty))).map (List.map List.length) = .ok [2] := by rfl
  rw [hsets] at hlengths
  obtain ⟨set, rfl, hlength⟩ := List.map_eq_singleton_iff.mp (Except.ok.inj hlengths)
  exact ⟨hbuilt, set, hlength, honce (by decide) set List.mem_cons_self, hsets⟩

/-- Two treatments of e-mail addresses are accepted in one group, and then every identity that the search
finds must have the address and must not have it. -/
theorem mailGroupRule_contradictory :
    Rule.ofConfig (mailGroupConfig ["strict", "different"]) =
        .ok (mailGroupRule [.strict, .different]) ∧
      ∃ sets, (mailGroupRule [.strict, .different]).workingSets CatalogTable.person.catalog
          (birthObserved "1970" (mailObserved .empty)) = .ok sets ∧
        ∃ set ∈ sets, ¬ TreatedOnce set ∧
          ∃ a ∈ set, ∃ b ∈ set, a.key = b.key ∧ a.treatment ≠ b.treatment := by
  refine ⟨by rfl, _, rfl, ?_⟩
  decide

end Lookalike
