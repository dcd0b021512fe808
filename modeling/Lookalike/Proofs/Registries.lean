import Mathlib.Data.List.Sort
import Lookalike.Registry

/-! # Rules of a registry

A snapshot lists the rules that it is made of, each once, by priority and then by code.  Where the codes
differ that order is strict and a code finds its rule.  The repository of configured rules answers each
of its codes, so a registry that is loaded from it holds just those rules, and asks nothing else.

Main statements: `RuleSnapshot.increasing_ofRules` and `RuleSnapshot.get?_of_mem` for snapshots,
`RuleRegistry.load_repository` for the registry of configured rules. -/

namespace Lookalike

/-- Members of a list of which each may stand before the other keep their order when the list is sorted. -/
theorem filter_mergeSort {α : Type} {le : α → α → Bool}
    (htrans : ∀ a b c, le a b = true → le b c = true → le a c = true)
    (htotal : ∀ a b, (le a b || le b a) = true) {p : α → Bool}
    (hequal : ∀ a b, p a = true → p b = true → le a b = true) (l : List α) :
    (l.mergeSort le).filter p = l.filter p := by
  have hsorted : (l.filter p).Pairwise fun a b => le a b = true :=
    List.pairwise_of_forall_mem_list fun a ha b hb =>
      hequal a b (List.mem_filter.mp ha).2 (List.mem_filter.mp hb).2
  have hkept : (l.filter p).Sublist (l.mergeSort le) :=
    List.sublist_mergeSort htrans htotal hsorted List.filter_sublist
  have hsublist := hkept.filter p
  rw [List.filter_filter, show (fun a => p a && p a) = p from funext fun a => Bool.and_self _]
    at hsublist
  exact (hsublist.eq_of_length ((List.mergeSort_perm l le).filter _).length_eq.symm).symm

/-! ### Snapshots -/

/-- Whether a rule stands before another in a snapshot. -/
def Rule.Before (a b : Rule) : Prop :=
  a.priority < b.priority ∨ a.priority = b.priority ∧ a.code < b.code

namespace RuleSnapshot

theorem ruleLe_iff (a b : Rule) :
    ruleLe a b = true ↔ a.priority < b.priority ∨ a.priority = b.priority ∧ a.code ≤ b.code := by
  simp [ruleLe]

theorem ruleLe_trans (a b c : Rule) (hab : ruleLe a b = true) (hbc : ruleLe b c = true) :
    ruleLe a c = true := by
  rw [ruleLe_iff] at hab hbc ⊢
  rcases hab with hab | ⟨hab, habcode⟩
  · left
    omega
  · rcases hbc with hbc | ⟨hbc, hbccode⟩
    · left
      omega
    · exact Or.inr ⟨hab.trans hbc, String.le_trans habcode hbccode⟩

theorem ruleLe_total (a b : Rule) : (ruleLe a b || ruleLe b a) = true := by
  rw [Bool.or_eq_true, ruleLe_iff, ruleLe_iff]
  rcases Int.lt_trichotomy a.priority b.priority with hlt | heq | hgt
  · exact Or.inl (Or.inl hlt)
  · rcases String.le_total a.code b.code with hle | hle
    · exact Or.inl (Or.inr ⟨heq, hle⟩)
    · exact Or.inr (Or.inr ⟨heq.symm, hle⟩)
  · exact Or.inr (Or.inl hgt)

theorem perm_ofRules (rules : List Rule) : (ofRules rules).rules.Perm rules :=
  List.mergeSort_perm rules ruleLe

/-- The rules of a snapshot strictly increase when no two of them have one code. -/
theorem increasing_ofRules {rules : List Rule} (hdistinct : (rules.map (·.code)).Nodup) :
    (ofRules rules).rules.Pairwise Rule.Before := by
  have hsorted : (ofRules rules).rules.Pairwise fun a b => ruleLe a b = true :=
    List.pairwise_mergeSort ruleLe_trans ruleLe_total rules
  have hcodes : ((ofRules rules).rules.map (·.code)).Nodup :=
    ((perm_ofRules rules).map (·.code)).nodup_iff.mpr hdistinct
  have hne : (ofRules rules).rules.Pairwise fun a b => a.code ≠ b.code := List.pairwise_map.mp hcodes
  refine (hsorted.and hne).imp ?_
  rintro a b ⟨hle, hcode⟩
  rcases (ruleLe_iff a b).mp hle with hlt | ⟨heq, hle⟩
  · exact Or.inl hlt
  · have hnot : ¬ b.code ≤ a.code := fun hge => hcode (String.le_antisymm hle hge)
    exact Or.inr ⟨heq, String.not_le.mp hnot⟩

variable {s : RuleSnapshot} {code : String}

theorem get?_eq_none_iff : s.get? code = none ↔ ∀ r ∈ s.rules, r.code ≠ code := by
  simp [get?]

theorem mem_of_get? {r : Rule} (h : s.get? code = some r) : r ∈ s.rules ∧ r.code = code := by
  have hcode := List.find?_some h
  exact ⟨List.mem_of_find?_eq_some h, beq_iff_eq.mp hcode⟩

/-- A code finds its rule, unless an earlier one has it too. -/
theorem get?_of_mem (hdistinct : (s.rules.map (·.code)).Nodup) {r : Rule} (h : r ∈ s.rules) :
    s.get? r.code = some r := by
  cases hget : s.get? r.code with
  | none => exact absurd rfl (get?_eq_none_iff.mp hget r h)
  | some found =>
      obtain ⟨hfound, hcode⟩ := mem_of_get? hget
      rw [List.inj_on_of_nodup_map hdistinct hfound h hcode]

end RuleSnapshot

theorem RuleRegistry.get_of_mem {registry : RuleRegistry}
    (hdistinct : (registry.snapshot.rules.map (·.code)).Nodup) {r : Rule}
    (h : r ∈ registry.snapshot.rules) : registry.get r.code = .ok r := by
  have hget : registry.get? r.code = some r := RuleSnapshot.get?_of_mem hdistinct h
  rw [get, hget]

theorem RuleRegistry.get_eq_error {registry : RuleRegistry} {code : String}
    (h : ∀ r ∈ registry.snapshot.rules, r.code ≠ code) :
    registry.get code = .error (.ruleNotFound code) := by
  have hget : registry.get? code = none := RuleSnapshot.get?_eq_none_iff.mpr h
  rw [get, hget]

/-! ### The repository of configured rules -/

namespace ConfiguredRules

variable {σ : Type} {configured : ConfiguredRules}

theorem repository_get {code : String} {r : Rule} (h : configured.byCode.get? code = some r) :
    (configured.repository σ).get code = pure r := by
  simp only [repository, h]

/-- Every rule is filed under its own code. -/
def Filed (configured : ConfiguredRules) : Prop :=
  ∀ r ∈ configured.byCode.values, configured.byCode.get? r.code = some r

theorem fetch_repository {rules : List Rule}
    (h : ∀ r ∈ rules, configured.byCode.get? r.code = some r) :
    RuleRegistry.fetch (configured.repository σ) (rules.map (·.code)) = pure rules := by
  induction rules with
  | nil => rfl
  | cons r rules ih =>
      obtain ⟨hr, hrules⟩ := List.forall_mem_cons.mp h
      rw [List.map_cons, RuleRegistry.fetch, repository_get hr, pure_bind, ih hrules, pure_bind]

/-- The registry of configured rules takes all of them, without a change of the world. -/
theorem load_repository (hfiled : configured.Filed) :
    ∃ registry, RuleRegistry.load (configured.repository σ) = pure registry ∧
      ∃ rules, rules.Perm configured.byCode.values ∧ registry.snapshot = .ofRules rules := by
  have hperm := RuleSnapshot.perm_ofRules configured.byCode.values
  have hfetch : RuleRegistry.fetch (configured.repository σ)
      (RuleSnapshot.ofRules configured.byCode.values).codes =
      pure (RuleSnapshot.ofRules configured.byCode.values).rules :=
    fetch_repository fun r hr => hfiled r (hperm.mem_iff.mp hr)
  have hlist : (configured.repository σ).listCodes =
      pure (RuleSnapshot.ofRules configured.byCode.values).codes := rfl
  refine ⟨⟨.ofRules (RuleSnapshot.ofRules configured.byCode.values).rules⟩, ?_, _, hperm, rfl⟩
  rw [RuleRegistry.load, RuleRegistry.take, hlist, pure_bind, hfetch, pure_bind, pure_bind]

end ConfiguredRules

end Lookalike
