import Lookalike.Proofs.Wiring

/-! # Searches by the code of a rule

A search by one rule drops the blanks around the code that it is given, whereas a service files rules
under their codes as they are configured, blanks included.  So the code of a rule finds the rule itself
when there are no blanks around it.  Otherwise it finds the rule that has the code without blanks, or
none.

Main statement: `findRuleDuplicates_of_code`. -/

namespace Lookalike
namespace DuplicateService

variable {σ : Type} {c : Config} {s : DuplicateService σ}

/-- The search of a request by a rule, whatever code the request gives. -/
def searchBy (s : DuplicateService σ) (rule : Rule) (request : RuleSearchRequest) :
    Step σ ResultSet :=
  s.evaluateRule rule (s.observe request.values) request.baseIdentityKey
    { connected := request.connectedOnly, sourceFields := request.attributesFilter }
    request.maxResults

theorem findRuleDuplicates_of_mem (hdistinct : s.registry.snapshot.codes.Nodup) {rule : Rule}
    (hrule : rule ∈ s.registry.snapshot.rules) {request : RuleSearchRequest}
    (hcode : Text.trim request.ruleCode = rule.code) :
    s.findRuleDuplicates request = s.searchBy rule request := by
  have hget : s.registry.get (Text.trim request.ruleCode) = .ok rule := by
    rw [hcode]
    exact RuleRegistry.get_of_mem hdistinct hrule
  rw [findRuleDuplicates, hget, Step.ofExcept_ok, pure_bind, searchBy]

theorem findRuleDuplicates_of_unknown {request : RuleSearchRequest}
    (h : ∀ rule ∈ s.registry.snapshot.rules, rule.code ≠ Text.trim request.ruleCode) :
    s.findRuleDuplicates request = throw (.ruleNotFound (Text.trim request.ruleCode)) := by
  rw [findRuleDuplicates, RuleRegistry.get_eq_error h, Step.ofExcept_error]
  rfl

/-- The search by the code of a rule of a valid configuration.  It is the search by that rule when
there are no blanks around the code; otherwise it is the search by the rule with the code without
blanks, or fails as if the rule were not there. -/
theorem findRuleDuplicates_of_code (h : c.validate = .ok ()) (backend : SearchBackend σ)
    (state : IdentityState σ) :
    ∃ s, ofConfigWith c backend state = pure s ∧
      s.registry.snapshot.codes.Perm (c.rules.map (·.code)) ∧
      ∀ rule ∈ s.registry.snapshot.rules, ∀ request : RuleSearchRequest, request.ruleCode = rule.code →
        (Text.trim rule.code = rule.code →
          s.findRuleDuplicates request = s.searchBy rule request) ∧
        (Text.trim rule.code ≠ rule.code →
          (∃ other ∈ s.registry.snapshot.rules, other.code = Text.trim rule.code ∧
            s.findRuleDuplicates request = s.searchBy other request) ∨
          (∀ other ∈ s.registry.snapshot.rules, other.code ≠ Text.trim rule.code) ∧
            s.findRuleDuplicates request = throw (.ruleNotFound (Text.trim rule.code))) := by
  obtain ⟨s, hs, hserves⟩ := exists_ofConfigWith h backend state
  have hcodes : (c.rules.map (·.code)).Nodup :=
    (allFresh_empty.mp (Config.validate_eq_ok_iff.mp h).2.2.2).2
  have hdistinct : s.registry.snapshot.codes.Nodup := hserves.codes_perm.nodup_iff.mpr hcodes
  refine ⟨s, hs, hserves.codes_perm, fun rule hrule request hcode => ?_⟩
  rw [← hcode]
  refine ⟨fun htrim => findRuleDuplicates_of_mem hdistinct hrule (htrim.trans hcode), fun _ => ?_⟩
  by_cases hother : ∃ other ∈ s.registry.snapshot.rules, other.code = Text.trim request.ruleCode
  · obtain ⟨other, hmem, htrim⟩ := hother
    exact Or.inl ⟨other, hmem, htrim, findRuleDuplicates_of_mem hdistinct hmem htrim.symm⟩
  · have hunknown : ∀ other ∈ s.registry.snapshot.rules, other.code ≠ Text.trim request.ruleCode :=
      fun other hmem heq => hother ⟨other, hmem, heq⟩
    exact Or.inr ⟨hunknown, findRuleDuplicates_of_unknown hunknown⟩

/-- A configuration of rules that compare e-mail addresses, with given codes. -/
def mailRules (codes : List String) : Config where
  service := {}
  backend := { url := "http://127.0.0.1:9200", index := "identities" }
  attributes := [{ key := "email", outputKeys := ["email"] }]
  rules := codes.map fun code =>
    { code, priority := 1, nbFilledAttributes := 1, nbEqualAttributes := 1,
      checkedAttributes := [{ key := "email" }] }

/-- A request for the rule with a code, with an e-mail address. -/
def mailRequest (ruleCode : String) : RuleSearchRequest where
  ruleCode := ruleCode
  values := [("email", "a@b")]

/-- Of two rules whose codes differ in blanks, either code finds the rule without. -/
theorem findRuleDuplicates_of_code_mailRules :
    ∃ s : DuplicateService (List (List Descriptor × Window)),
      ofConfigWith (mailRules [" R1 ", "R1"]) ({} : ScriptedBackend).backend (.empty _) = pure s ∧
      ∃ rule ∈ s.registry.snapshot.rules, rule.code = "R1" ∧
        s.findRuleDuplicates (mailRequest " R1 ") = s.searchBy rule (mailRequest " R1 ") ∧
        s.findRuleDuplicates (mailRequest "R1") = s.searchBy rule (mailRequest "R1") := by
  obtain ⟨s, hs, hcodes, hfind⟩ := findRuleDuplicates_of_code (c := mailRules [" R1 ", "R1"]) rfl
    ({} : ScriptedBackend).backend (.empty _)
  have hlisted : ∀ code ∈ [" R1 ", "R1"], ∃ rule ∈ s.registry.snapshot.rules, rule.code = code :=
    fun code hcode => List.mem_map.mp (hcodes.mem_iff.mpr hcode)
  have htrim : Text.trim " R1 " = "R1" := by decide
  obtain ⟨padded, hpadded, hpaddedCode⟩ := hlisted " R1 " (by simp)
  obtain ⟨plain, hplain, hplainCode⟩ := hlisted "R1" (by simp)
  have hfound := (hfind padded hpadded (mailRequest " R1 ") hpaddedCode.symm).2
  rw [hpaddedCode, htrim] at hfound
  rcases hfound (by decide) with ⟨rule, hrule, hcode, hsearch⟩ | ⟨hnone, -⟩
  · have hself := (hfind rule hrule (mailRequest "R1") hcode.symm).1
    rw [hcode] at hself
    exact ⟨s, hs, rule, hrule, hcode, hsearch, hself (by decide)⟩
  · exact absurd hplainCode (hnone plain hplain)

/-- A rule that is configured with blanks around its code is not found under that code. -/
theorem mailRules_padded_ruleNotFound :
    (mailRules [" R1 "]).validate = .ok () ∧
    ∃ s : DuplicateService (List (List Descriptor × Window)),
      ofConfigWith (mailRules [" R1 "]) ({} : ScriptedBackend).backend (.empty _) = pure s ∧
      s.registry.snapshot.codes = [" R1 "] ∧
      s.findRuleDuplicates (mailRequest " R1 ") = throw (.ruleNotFound "R1") := by
  have hvalid : (mailRules [" R1 "]).validate = .ok () := rfl
  obtain ⟨s, hs, hserves⟩ :=
    exists_ofConfigWith hvalid ({} : ScriptedBackend).backend (.empty _)
  have hcodes : s.registry.snapshot.codes = [" R1 "] := List.perm_singleton.mp hserves.codes_perm
  have htrim : Text.trim " R1 " = "R1" := by decide
  have hunknown : ∀ rule ∈ s.registry.snapshot.rules, rule.code ≠ Text.trim " R1 " := by
    intro rule hrule heq
    have hcode : rule.code ∈ s.registry.snapshot.codes := List.mem_map_of_mem hrule
    rw [hcodes, heq, htrim] at hcode
    exact absurd hcode (by decide)
  refine ⟨hvalid, s, hs, hcodes, ?_⟩
  rw [← htrim]
  exact findRuleDuplicates_of_unknown hunknown

end DuplicateService
end Lookalike
