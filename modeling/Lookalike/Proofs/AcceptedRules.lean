import Lookalike.Proofs.Expansion
import Lookalike.Proofs.Wiring

/-! # Rules that are accepted

A rule that is built from a configured one has passed the check, and `Rule.Accepted` says what of that its
searches depend on: no attribute is checked twice, no more attributes must agree than must be there, and
no treatment group is empty.  Rules that are put together in another way need not have passed it, and
then one fault is left: more attributes must agree than are observed.

Main statement: `generate_fails_iff`. -/

namespace Lookalike

/-! ### What the check leaves -/

namespace Rule

variable {r : Rule} {c : RuleConfig}

/-- What the searches of a rule depend on. -/
structure Accepted (r : Rule) : Prop where
  distinct : (r.checkedAttributes.map (·.name)).Nodup
  equal_le : r.nbEqualAttributes ≤ r.nbFilledAttributes
  members_ne_nil : ∀ g ∈ r.treatmentGroups, g.attributes ≠ []

theorem ofConfig_of_fault {fault : ConfigError} (h : c.validate = .error fault) :
    ofConfig c = .error (.invalidRule c.code fault.message) := by
  rw [ofConfig, h]
  rfl

theorem valid_of_ofConfig (h : ofConfig c = .ok r) : c.Valid := by
  rw [← RuleConfig.validate_eq_ok_iff]
  cases hvalidate : c.validate with
  | error fault =>
      rw [ofConfig_of_fault hvalidate] at h
      cases h
  | ok _ => rfl

theorem isOf_of_ofConfig (h : ofConfig c = .ok r) : r.IsOf c := by
  obtain ⟨built, hbuilt, hof⟩ := exists_ofConfig (valid_of_ofConfig h)
  rw [h] at hbuilt
  exact Except.ok.inj hbuilt ▸ hof

theorem IsOf.accepted (hof : r.IsOf c) (h : c.Valid) : r.Accepted where
  distinct := by
    rw [map_eq_map_of_forall₂ hof.checkedAttributes fun _ _ hkey => hkey.name]
    exact h.distinct
  equal_le := by
    rw [hof.nbEqualAttributes, hof.nbFilledAttributes]
    exact h.equal_le
  members_ne_nil := by
    intro g hg hnone
    obtain ⟨config, hconfig, hgroup⟩ := exists_of_forall₂_left hof.treatmentGroups.flip hg
    have hmembers := hgroup.attributes
    rw [hnone, List.forall₂_nil_right_iff] at hmembers
    exact (h.treatmentGroups config hconfig).attributes_ne_nil hmembers

theorem accepted_of_ofConfig (h : ofConfig c = .ok r) : r.Accepted :=
  (isOf_of_ofConfig h).accepted (valid_of_ofConfig h)

end Rule

/-! ### What is observed of an accepted rule -/

theorem map_key_items (r : Rule) (o : Observation) :
    (r.items o).map (·.key) = (r.presentAttributes o).map (·.name) := by
  unfold Rule.items Rule.presentAttributes
  induction r.checkedAttributes with
  | nil => rfl
  | cons key keys ih =>
      cases h : o.get? key.name with
      | none =>
          have hcontains : o.contains key.name = false := by
            rw [o.contains_eq_isSome, h, Option.isSome_none]
          simpa [h, hcontains] using ih
      | some a =>
          have hcontains : o.contains key.name = true := by
            rw [o.contains_eq_isSome, h, Option.isSome_some]
          have hkey : a.key = key.name := Observation.key_of_get? h
          simpa [h, hcontains, WorkingAttribute.key, hkey] using ih

theorem Rule.Accepted.nodup_items {r : Rule} (h : r.Accepted) (o : Observation) :
    ((r.items o).map (·.key)).Nodup := by
  rw [map_key_items]
  exact h.distinct.sublist (List.filter_sublist.map _)

/-- Where an accepted rule applies, enough is observed to agree. -/
theorem Rule.Accepted.equal_le_items {r : Rule} {o : Observation} (h : r.Accepted)
    (happ : r.AppliesTo o) : r.nbEqualAttributes ≤ (r.items o).length := h.equal_le.trans happ.2

theorem Variant.groupKeys_cases {r : Rule} {v : Variant} (h : v.group < r.groupChoices.length) :
    (v.groupKeys r = [] ∧ r.treatmentGroups = []) ∨
      ∃ g ∈ r.treatmentGroups, v.groupKeys r = g.attributes := by
  obtain ⟨choice, hchoice⟩ := exists_getElem?_of_lt h
  have hmem : choice ∈ r.groupChoices := List.mem_of_getElem? hchoice
  rw [groupKeys, hchoice, Option.map_some, Option.getD_some]
  unfold Rule.groupChoices at hmem
  split_ifs at hmem with hnone
  · rw [List.mem_singleton.mp hmem]
    exact Or.inl ⟨rfl, hnone⟩
  · obtain ⟨g, hg, rfl⟩ := List.mem_map.mp hmem
    exact Or.inr ⟨g, hg, rfl⟩

/-! ### When generation fails -/

section Generation

variable (r : Rule) (catalog : AttributeCatalog) (options : SynthesisOptions) (o : Observation)
  (context : RequestContext)

theorem generate_eq_error_iff {fault : RuleError} :
    r.generate catalog options o context = .error fault ↔
      r.canApply o = true ∧ (r.presentAttributes o).length < r.nbEqualAttributes ∧
        fault = .subsetSize r.nbEqualAttributes (r.presentAttributes o).length := by
  rw [canApply_iff, length_presentAttributes]
  by_cases happ : r.AppliesTo o
  · rcases Nat.lt_or_ge (r.items o).length r.nbEqualAttributes with hlt | hle
    · rw [generate_of_lt r catalog options o context happ hlt]
      constructor
      · intro h
        exact ⟨happ, hlt, (Except.error.inj h).symm⟩
      · rintro ⟨-, -, rfl⟩
        rfl
    · rw [generate_of_le r catalog options o context happ hle]
      constructor
      · intro h
        cases h
      · rintro ⟨-, hlt, -⟩
        omega
  · rw [generate_of_not_appliesTo r catalog options o context happ]
    constructor
    · intro h
      cases h
    · rintro ⟨h, -, -⟩
      exact absurd h happ

variable {r} in
theorem Rule.Accepted.exists_generate (h : r.Accepted) :
    ∃ ds, r.generate catalog options o context = .ok ds := by
  cases hgenerate : r.generate catalog options o context with
  | ok ds => exact ⟨ds, rfl⟩
  | error fault =>
      obtain ⟨happ, hlt, -⟩ := (generate_eq_error_iff r catalog options o context).mp hgenerate
      have hle := h.equal_le_items ((canApply_iff r o).mp happ)
      rw [length_presentAttributes] at hlt
      omega

/-- The searches of a rule cannot be listed exactly if it applies and more attributes must agree than it
finds observed, and the fault gives these two numbers; missing attributes can always be selected.  A
configured rule is accepted exactly if the check finds no fault, and then its searches can be listed for
every observation. -/
theorem generate_fails_iff (present working : List WorkingAttribute) (c : RuleConfig) :
    (∀ fault, r.generate catalog options o context = .error fault ↔
      r.canApply o = true ∧ (r.presentAttributes o).length < r.nbEqualAttributes ∧
        fault = .subsetSize r.nbEqualAttributes (r.presentAttributes o).length) ∧
    (∃ sets, r.expandMissing present working = .ok sets) ∧
    match c.validate with
    | .error fault => Rule.ofConfig c = .error (.invalidRule c.code fault.message)
    | .ok () => ∃ accepted, Rule.ofConfig c = .ok accepted ∧ ∀ catalog options o context,
        ∃ ds, accepted.generate catalog options o context = .ok ds := by
  refine ⟨fun fault => generate_eq_error_iff r catalog options o context,
    ⟨_, r.expandMissing_eq present working⟩, ?_⟩
  cases h : c.validate with
  | error fault => exact Rule.ofConfig_of_fault h
  | ok _ =>
      obtain ⟨accepted, hbuilt, hof⟩ := Rule.exists_ofConfig (RuleConfig.validate_eq_ok_iff.mp h)
      have haccepted := hof.accepted (RuleConfig.validate_eq_ok_iff.mp h)
      exact ⟨accepted, hbuilt, fun catalog options o context =>
        haccepted.exists_generate catalog options o context⟩

end Generation

end Lookalike
