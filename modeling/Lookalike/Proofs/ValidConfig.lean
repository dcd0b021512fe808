import Mathlib.Data.List.Nodup
import Lookalike.Config.Validation

/-! # What a valid configuration is

`Valid` says of an attribute, of a rule and of what a rule names what the checks of a configuration
demand of it.  A check goes on while nothing is wrong, so it accepts exactly if each of its steps does;
where keys must differ it carries those seen before, and `AllFresh` says what that comes to for a whole
list.

Main statements: `validateAttributes_eq_ok_iff` and `validateRules_eq_ok_iff`, that the checks accept
exactly the lists whose members are valid and have distinct keys. -/

namespace Lookalike

/-! ### Checks one after the other -/

theorem bind_eq_ok_iff {ε α β : Type} {x : Except ε α} {f : α → Except ε β} {b : β} :
    (x >>= f) = .ok b ↔ ∃ a, x = .ok a ∧ f a = .ok b := by
  cases x with
  | error e => simp [bind, Except.bind]
  | ok a => simp [bind, Except.bind]

theorem check_bind_eq_ok_iff {ε : Type} {x : Except ε Unit} {f : Unit → Except ε Unit} :
    (x >>= f) = .ok () ↔ x = .ok () ∧ f () = .ok () := by
  rw [bind_eq_ok_iff]
  exact ⟨fun ⟨_, h⟩ => h, fun h => ⟨(), h⟩⟩

theorem demand_eq_ok_iff {condition : Bool} {fault : ConfigError} :
    demand condition fault = .ok () ↔ condition = true := by
  unfold demand
  cases condition <;> simp

theorem demandText_eq_ok_iff {setting value : String} :
    demandText setting value = .ok () ↔ Text.isBlank value = false := by
  rw [demandText, demand_eq_ok_iff, Bool.not_eq_true']

theorem demandWord_eq_ok_iff {setting value : String} {known : List String} :
    demandWord setting known value = .ok () ↔ isKnownWord known value = true := by
  rw [demandWord, demand_eq_ok_iff]

theorem checkEach_eq_ok_iff {α : Type} {check : α → Except ConfigError Unit} {xs : List α} :
    checkEach check xs = .ok () ↔ ∀ x ∈ xs, check x = .ok () := by
  induction xs with
  | nil => simp [checkEach]
  | cons x xs ih => rw [checkEach, check_bind_eq_ok_iff, ih, List.forall_mem_cons]

/-! ### Lists with distinct keys -/

section AllFresh

variable {α : Type} {key : α → String} {P : α → Prop} {seen : List String} {xs : List α}

/-- All members of a list have a property, and their keys differ from each other and from those seen
before. -/
def AllFresh (key : α → String) (P : α → Prop) (seen : List String) (xs : List α) : Prop :=
  (∀ x ∈ xs, P x) ∧ (xs.map key).Nodup ∧ ∀ x ∈ xs, key x ∉ seen

theorem allFresh_nil : AllFresh key P seen [] := by
  simp [AllFresh]

theorem allFresh_cons {x : α} :
    AllFresh key P seen (x :: xs) ↔
      P x ∧ key x ∉ seen ∧ AllFresh key P (key x :: seen) xs := by
  rw [AllFresh, AllFresh, List.forall_mem_cons, List.map_cons, List.nodup_cons, List.forall_mem_cons]
  simp only [List.mem_map, List.mem_cons, not_or, not_exists, not_and]
  constructor
  · rintro ⟨⟨hx, hxs⟩, ⟨hnew, hdistinct⟩, hfresh, hrest⟩
    exact ⟨hx, hfresh, hxs, hdistinct, fun y hy => ⟨hnew y hy, hrest y hy⟩⟩
  · rintro ⟨hx, hfresh, hxs, hdistinct, hrest⟩
    exact ⟨⟨hx, hxs⟩, ⟨fun y hy => (hrest y hy).1, hdistinct⟩, hfresh, fun y hy => (hrest y hy).2⟩

theorem allFresh_empty : AllFresh key P [] xs ↔ (∀ x ∈ xs, P x) ∧ (xs.map key).Nodup := by
  simp [AllFresh]

end AllFresh

/-! ### Attributes -/

/-- An attribute that can be used: it has a key, stored fields, a kind and a treatment. -/
structure AttributeConfig.Valid (a : AttributeConfig) : Prop where
  key : Text.isBlank a.key = false
  outputKeys_ne_nil : a.outputKeys ≠ []
  outputKeys : ∀ field ∈ a.outputKeys, Text.isBlank field = false
  kind : isKnownWord fieldKindWords a.kind = true
  defaultTreatment : isKnownWord treatmentWords a.defaultTreatment = true

theorem AttributeConfig.validate_eq_ok_iff {seen : List String} {a : AttributeConfig} :
    a.validate seen = .ok () ↔ a.Valid ∧ a.key ∉ seen := by
  simp only [AttributeConfig.validate, check_bind_eq_ok_iff, demandText_eq_ok_iff, demand_eq_ok_iff,
    demandWord_eq_ok_iff, Bool.and_eq_true, Bool.not_eq_true', List.isEmpty_eq_false_iff,
    List.contains_eq_mem, decide_eq_false_iff_not, List.any_eq_false, Bool.not_eq_true]
  constructor
  · rintro ⟨hkey, hfresh, ⟨hne, hfields⟩, hkind, htreatment⟩
    exact ⟨⟨hkey, hne, hfields, hkind, htreatment⟩, hfresh⟩
  · rintro ⟨⟨hkey, hne, hfields, hkind, htreatment⟩, hfresh⟩
    exact ⟨hkey, hfresh, ⟨hne, hfields⟩, hkind, htreatment⟩

theorem validateAttributes_eq_ok_iff {seen : List String} {attributes : List AttributeConfig} :
    validateAttributes seen attributes = .ok () ↔
      AllFresh (·.key) AttributeConfig.Valid seen attributes := by
  induction attributes generalizing seen with
  | nil => exact iff_of_true rfl allFresh_nil
  | cons a rest ih =>
      rw [validateAttributes, check_bind_eq_ok_iff, AttributeConfig.validate_eq_ok_iff, ih,
        allFresh_cons, and_assoc]

/-! ### Rules -/

/-- An attribute that a rule can name: its treatment, if it has one, is known. -/
structure RuleAttributeConfig.Valid (a : RuleAttributeConfig) : Prop where
  key : Text.isBlank a.key = false
  treatment : ∀ word ∈ a.treatment, isKnownWord treatmentWords word = true

theorem RuleAttributeConfig.validate_eq_ok_iff {path : String} {a : RuleAttributeConfig} :
    a.validate path = .ok () ↔ a.Valid := by
  obtain ⟨key, treatment⟩ := a
  rw [RuleAttributeConfig.validate, check_bind_eq_ok_iff, demandText_eq_ok_iff]
  cases treatment with
  | none => exact ⟨fun h => ⟨h.1, by simp⟩, fun h => ⟨h.key, rfl⟩⟩
  | some word =>
      simp only [demandWord_eq_ok_iff]
      exact ⟨fun h => ⟨h.1, by simpa using h.2⟩, fun h => ⟨h.key, h.treatment word rfl⟩⟩

theorem validateChecked_eq_ok_iff {code : String} {seen : List String}
    {attributes : List RuleAttributeConfig} :
    validateChecked code seen attributes = .ok () ↔
      AllFresh (·.key) RuleAttributeConfig.Valid seen attributes := by
  induction attributes generalizing seen with
  | nil => exact iff_of_true rfl allFresh_nil
  | cons a rest ih =>
      rw [validateChecked, check_bind_eq_ok_iff, check_bind_eq_ok_iff, demand_eq_ok_iff,
        RuleAttributeConfig.validate_eq_ok_iff, ih, allFresh_cons, Bool.not_eq_true',
        List.contains_eq_mem, decide_eq_false_iff_not, and_left_comm]

/-- A treatment group that a rule can have. -/
structure TreatmentGroupConfig.Valid (g : TreatmentGroupConfig) : Prop where
  name : Text.isBlank g.name = false
  attributes_ne_nil : g.attributes ≠ []
  attributes : ∀ a ∈ g.attributes, a.Valid

theorem TreatmentGroupConfig.validate_eq_ok_iff {code : String} {g : TreatmentGroupConfig} :
    g.validate code = .ok () ↔ g.Valid := by
  simp only [TreatmentGroupConfig.validate, check_bind_eq_ok_iff, demandText_eq_ok_iff,
    demand_eq_ok_iff, checkEach_eq_ok_iff, RuleAttributeConfig.validate_eq_ok_iff,
    Bool.not_eq_true', List.isEmpty_eq_false_iff]
  exact ⟨fun h => ⟨h.1, h.2.1, h.2.2⟩, fun h => ⟨h.name, h.attributes_ne_nil, h.attributes⟩⟩

/-- A rule that can be evaluated, whatever its code is. -/
structure RuleConfig.Valid (r : RuleConfig) : Prop where
  distinct : (r.checkedAttributes.map (·.key)).Nodup
  checkedAttributes : ∀ a ∈ r.checkedAttributes, a.Valid
  filled_le : r.nbFilledAttributes ≤ r.checkedAttributes.length
  equal_le : r.nbEqualAttributes ≤ r.nbFilledAttributes
  treatmentGroups : ∀ g ∈ r.treatmentGroups, g.Valid

theorem RuleConfig.validate_eq_ok_iff {r : RuleConfig} : r.validate = .ok () ↔ r.Valid := by
  simp only [RuleConfig.validate, check_bind_eq_ok_iff, validateChecked_eq_ok_iff, allFresh_empty,
    demand_eq_ok_iff, decide_eq_true_eq, checkEach_eq_ok_iff,
    TreatmentGroupConfig.validate_eq_ok_iff]
  constructor
  · rintro ⟨⟨hchecked, hdistinct⟩, hfilled, hequal, hgroups⟩
    exact ⟨hdistinct, hchecked, hfilled, hequal, hgroups⟩
  · intro h
    exact ⟨⟨h.checkedAttributes, h.distinct⟩, h.filled_le, h.equal_le, h.treatmentGroups⟩

theorem validateRules_eq_ok_iff {seen : List String} {rules : List RuleConfig} :
    validateRules seen rules = .ok () ↔
      AllFresh (·.code) (fun r => Text.isBlank r.code = false ∧ r.Valid) seen rules := by
  induction rules generalizing seen with
  | nil => exact iff_of_true rfl allFresh_nil
  | cons r rest ih =>
      simp only [validateRules, check_bind_eq_ok_iff, demandText_eq_ok_iff, demand_eq_ok_iff,
        RuleConfig.validate_eq_ok_iff, ih, allFresh_cons, Bool.not_eq_true', List.contains_eq_mem,
        decide_eq_false_iff_not]
      constructor
      · rintro ⟨hcode, hfresh, hvalid, hrest⟩
        exact ⟨⟨hcode, hvalid⟩, hfresh, hrest⟩
      · rintro ⟨⟨hcode, hvalid⟩, hfresh, hrest⟩
        exact ⟨hcode, hfresh, hvalid, hrest⟩

/-- A configuration is accepted when the settings of the engine and of matching are, and all
attributes and rules are valid and can be told apart. -/
theorem Config.validate_eq_ok_iff {c : Config} :
    c.validate = .ok () ↔ c.backend.validate = .ok () ∧ c.matching.validate = .ok () ∧
      AllFresh (·.key) AttributeConfig.Valid [] c.attributes ∧
      AllFresh (·.code) (fun r => Text.isBlank r.code = false ∧ r.Valid) [] c.rules := by
  rw [Config.validate, check_bind_eq_ok_iff, check_bind_eq_ok_iff, check_bind_eq_ok_iff,
    validateAttributes_eq_ok_iff, validateRules_eq_ok_iff]

end Lookalike
