import Lookalike.Proofs.RuleLookup
import Lookalike.Proofs.Sweeps

/-! # Searches by one rule and sweeps

A rule can be searched for by its code, or with all others in a sweep.  The two set up the evaluation
of the rule separately, and a sweep makes a report of what comes of it.  `RuleOutcome.ofResult` says
what; here the way back is taken, from a report to the result of the search by the code alone.

Main statement: `findRuleDuplicates_agrees`. -/

namespace Lookalike

/-- A report tells the result of a rule: it lists the code of the rule once, with the matches if there
are some, and with the text of the failure otherwise. -/
structure DuplicateReport.Tells (report : DuplicateReport) (code : String)
    (result : Except ServiceError ResultSet) : Prop where
  listed : report.codes.count code = 1
  found_iff : ∀ found, result = .ok found ↔ report.get? code = some (.found found)
  failed_iff : ∀ text, (∃ e, result = .error e ∧ e.message = text) ↔
    report.get? code = some (.failed text)

namespace RuleOutcome

variable {result : Except ServiceError ResultSet}

theorem ofResult_eq_found_iff {found : ResultSet} :
    ofResult result = .found found ↔ result = .ok found := by
  cases result with
  | ok results => simp [ofResult]
  | error e => simp [ofResult]

theorem ofResult_eq_failed_iff {text : String} :
    ofResult result = .failed text ↔ ∃ e, result = .error e ∧ e.message = text := by
  cases result with
  | ok results => simp [ofResult]
  | error e => simp [ofResult]

end RuleOutcome

namespace DuplicateReport

variable {results : Rule → Except ServiceError ResultSet} {ordered : List Rule} {rule : Rule}

theorem codes_ofResults : (ofResults results ordered).codes = ordered.map (·.code) := by
  rw [codes, ofResults, List.map_map]
  rfl

/-- A code finds the outcome of its rule, unless an earlier one has it too. -/
theorem get?_ofResults (hdistinct : (ordered.map (·.code)).Nodup) (hrule : rule ∈ ordered) :
    (ofResults results ordered).get? rule.code = some (.ofResult (results rule)) := by
  have hfind : ordered.find? (·.code == rule.code) = some rule :=
    RuleSnapshot.get?_of_mem (s := ⟨ordered⟩) hdistinct hrule
  rw [get?, ofResults, List.find?_map, Option.map_map]
  exact congrArg (Option.map _) hfind

theorem tells_ofResults (hdistinct : (ordered.map (·.code)).Nodup) (hrule : rule ∈ ordered) :
    (ofResults results ordered).Tells rule.code (results rule) := by
  have hget : (ofResults results ordered).get? rule.code = some (.ofResult (results rule)) :=
    get?_ofResults hdistinct hrule
  constructor
  case listed =>
    rw [codes_ofResults]
    exact List.count_eq_one_of_mem hdistinct (List.mem_map_of_mem hrule)
  case found_iff =>
    intro found
    rw [hget, Option.some_inj, RuleOutcome.ofResult_eq_found_iff]
  case failed_iff =>
    intro text
    rw [hget, Option.some_inj, RuleOutcome.ofResult_eq_failed_iff]

end DuplicateReport

namespace DuplicateService

variable {σ : Type} {s : DuplicateService σ}
  {reply : List Descriptor → Window → Except BackendError (List SearchPage)}
  {excluded : String → String → Except StateError Bool} {merged : String → Except StateError Bool}

/-- The search by the code of a rule evaluates that rule as a sweep does. -/
theorem findRuleDuplicates_eq_evaluateFor (hdistinct : s.registry.snapshot.codes.Nodup)
    {rule : Rule} (hrule : rule ∈ s.registry.snapshot.rules)
    (htrim : Text.trim rule.code = rule.code) (request : SweepRequest) :
    s.findRuleDuplicates {
      ruleCode := rule.code, values := request.values,
      baseIdentityKey := some request.baseIdentityKey, maxResults := 0, connectedOnly := false,
      attributesFilter := request.attributesFilter } = s.evaluateFor request rule := by
  let single : RuleSearchRequest :=
    { ruleCode := rule.code, values := request.values,
      baseIdentityKey := some request.baseIdentityKey,
      attributesFilter := request.attributesFilter }
  have hsearch : s.findRuleDuplicates single = s.searchBy rule single :=
    findRuleDuplicates_of_mem hdistinct hrule htrim
  exact hsearch

/-- For parties that answer by what they are asked, the search by a code without blanks around it comes
to what the lenient sweep of all rules, for the same values and the same base identity, reports of the
rule with that code. -/
theorem findRuleDuplicates_agrees (hdistinct : s.registry.snapshot.codes.Nodup)
    (hbackend : s.backend.AnswersBy reply) (hstate : s.identityState.AnswersBy excluded merged)
    {rule : Rule} (hrule : rule ∈ s.registry.snapshot.rules)
    (htrim : Text.trim rule.code = rule.code) (values : List (String × String)) (base : String)
    (attributesFilter : List String) :
    ∃ result report,
      (s.findRuleDuplicates {
        ruleCode := rule.code, values, baseIdentityKey := some base, maxResults := 0,
        connectedOnly := false, attributesFilter }).Yields result ∧
      ((s.inMode .lenient).findAllDuplicates {
        values, baseIdentityKey := base, attributesFilter }).Yields (.ok report) ∧
      report.Tells rule.code result := by
  let request : SweepRequest := { values, baseIdentityKey := base, attributesFilter }
  choose results hresults _ using exists_evaluateFor_yields hbackend hstate request
  have hperm := List.mergeSort_perm s.registry.snapshot.rules sweepLe
  refine ⟨results rule, .ofResults results (s.registry.snapshot.rules.mergeSort sweepLe), ?_, ?_, ?_⟩
  · exact findRuleDuplicates_eq_evaluateFor hdistinct hrule htrim request ▸ hresults rule
  · rw [← sweepResults_lenient]
    exact findDuplicates_yields hresults .lenient s.registry.snapshot.rules
  · have hcodes : ((s.registry.snapshot.rules.mergeSort sweepLe).map (·.code)).Nodup :=
      (hperm.map _).nodup_iff.mpr hdistinct
    exact DuplicateReport.tells_ofResults hcodes (hperm.mem_iff.mpr hrule)

/-- A service of stand-ins with four rules of distinct codes. -/
def mixedService : DuplicateService (List (List Descriptor × Window)) :=
  { standIn { unmarked := [("k", .zero)] } { merged := ["k"] } with
    registry := ⟨⟨mixedRules⟩⟩ }

/-- The search by a rule that needs more attributes to agree than are supplied fails, and the sweep
tells why. -/
theorem findRuleDuplicates_agrees_mixedService : ∃ report,
    ((mixedService.inMode .lenient).findAllDuplicates {
      values := [("email", "a@b")], baseIdentityKey := "l" }).Yields (.ok report) ∧
    report.get? "both" =
      some (.failed "Invalid request: Cannot choose 2 elements out of 1.") := by
  let both : Rule :=
    { code := "both", priority := 1, checkedAttributes := [⟨"email", none⟩, ⟨"firstName", none⟩],
      nbFilledAttributes := 1, nbEqualAttributes := 2 }
  let request : SweepRequest := { values := [("email", "a@b")], baseIdentityKey := "l" }
  have hdistinct : mixedService.registry.snapshot.codes.Nodup := by decide
  have hboth : both ∈ mixedService.registry.snapshot.rules := by decide
  have htrim : Text.trim both.code = both.code := by decide
  obtain ⟨result, report, hsearch, hsweep, htells⟩ := findRuleDuplicates_agrees hdistinct
    (ScriptedBackend.answersBy rfl rfl) (MemoryState.answersBy _ _) hboth htrim
    [("email", "a@b")] "l" []
  have hobserve : mixedService.observe [("email", "a@b")] =
      Observation.empty.push (.resolve mixedService.catalog "email" "a@b") := by
    rw [observe, Observation.ofValues_of_pairwise (by decide) (by decide)]
    rfl
  have hfails : result = .error (.invalidRequest (.unusable (.subsetSize 2 1))) := by
    rw [← hsearch [], findRuleDuplicates_eq_evaluateFor hdistinct hboth htrim request, evaluateFor,
      hobserve]
    rfl
  exact ⟨report, hsweep, (htells.failed_iff _).mp ⟨_, hfails, by decide⟩⟩

end DuplicateService

end Lookalike
