import Lookalike.Proofs.RecordedServices
import Mathlib.Algebra.Order.BigOperators.Group.List

/-! # Caps of results

The cap of a request bounds how far the hits of each search are paged through.  So it bounds the hits
of every search of a rule, whereas the matches of the rule are those of all its searches together: there
may be as many times more of them as the rule has searches.

Main statement: `findRuleDuplicates_capped`. -/

namespace Lookalike

/-- The backend gives no more hits of a search than the window asks for. -/
def SearchBackend.WithinSize {σ : Type} (backend : SearchBackend σ) : Prop :=
  backend.PagesHave fun w page => page.hits.length ≤ w.size

/-- The hits in all answers to the search at a place. -/
def hitsFor (log : List Exchange) (v : ℕ) : List ScoredHit := log.flatMap (·.hitsAt v)

section Logged

variable {σ : Type} {backend : SearchBackend σ} {ds : List Descriptor} {cap : ℕ}
  {log : List Exchange} {results : ResultSet}

theorem SearchBackend.WithinSize.length_hitsAt_le (hsize : backend.WithinSize) {x : Exchange}
    (hx : backend.Gives x) (v : ℕ) : (x.hitsAt v).length ≤ x.window.size := by
  unfold Exchange.hitsAt
  cases hpage : x.pages[v]? with
  | none => exact Nat.zero_le _
  | some page => exact hsize.of_gives hx hpage

/-- The windows of a run keep the hits of each search within the cap. -/
theorem SearchBackend.Logged.length_hitsFor_le (h : backend.Logged ds cap log results)
    (hsize : backend.WithinSize) (hcap : 0 < cap) (v : ℕ) : (hitsFor log v).length ≤ cap := by
  have hwindows : (log.map fun x => (x.hitsAt v).length).sum ≤ (log.map (·.window.size)).sum :=
    List.sum_le_sum fun x hx => hsize.length_hitsAt_le (h.given x hx) v
  calc
    (hitsFor log v).length = (log.map fun x => (x.hitsAt v).length).sum := List.length_flatMap
    _ ≤ (log.map (·.window.size)).sum := hwindows
    _ ≤ cap := h.capped hcap

/-- Identities that some searches found are no more than the hits of these searches. -/
theorem length_le_of_foundBy {keys : List String} (hkeys : keys.Nodup) {searches : ℕ}
    (hfound : ∀ k ∈ keys, ∃ v < searches, FoundBy log v k)
    (hcap : ∀ v, (hitsFor log v).length ≤ cap) : keys.length ≤ cap * searches := by
  have hsub : keys ⊆ (List.range searches).flatMap fun v => (hitsFor log v).map (·.identityKey) := by
    intro k hk
    obtain ⟨v, hv, x, hx, hit, hhit, hkey⟩ := hfound k hk
    rw [List.mem_flatMap]
    refine ⟨v, List.mem_range.mpr hv, List.mem_map.mpr ⟨hit, ?_, hkey⟩⟩
    exact List.mem_flatMap.mpr ⟨x, hx, hhit⟩
  have hbound : ∀ n ∈ (List.range searches).map fun v =>
      ((hitsFor log v).map (·.identityKey)).length, n ≤ cap := by
    intro n hn
    obtain ⟨v, -, rfl⟩ := List.mem_map.mp hn
    rw [List.length_map]
    exact hcap v
  have hsum := List.sum_le_card_nsmul _ cap hbound
  rw [List.length_map, List.length_range, smul_eq_mul, ← List.length_flatMap] at hsum
  exact (hkeys.length_le_of_subset hsub).trans (hsum.trans_eq (Nat.mul_comm searches cap))

end Logged

namespace DuplicateService

variable {σ : Type} {s : DuplicateService σ} {rule : Rule} {o : Observation}
  {context : RequestContext} {maxResults : UInt32} {ds : List Descriptor} {log : List Exchange}
  {results found : ResultSet}

theorem Evaluated.foundBy_of_contains
    (h : s.Evaluated rule o context maxResults ds log results found) {k : String}
    (hk : found.contains k = true) : ∃ v < ds.length, FoundBy log v k := by
  obtain ⟨hit, hget⟩ := ResultSet.contains_iff.mp hk
  obtain ⟨survives, hkeeps⟩ := h.kept
  obtain ⟨entry, hentry, -⟩ := (hkeeps.hits k hit).mp hget
  have hcontains : results.hits.contains k = true :=
    ResultSet.contains_iff.mpr ⟨entry, KeyMap.mem_toList.mp hentry⟩
  obtain ⟨f, hf, hkey⟩ := (h.logged.gathers.hits.found k).mp hcontains
  rw [List.flatMap_assoc] at hf
  obtain ⟨x, hx, hf⟩ := List.mem_flatMap.mp hf
  obtain ⟨v, d, hd, hit, hhit, rfl⟩ := x.mem_findings.mp hf
  rw [h.logged.searches x hx] at hd
  exact ⟨v, (List.getElem?_eq_some_iff.mp hd).1, x, hx, hit, hhit, hkey⟩

theorem cap_of_pos (s : DuplicateService σ) {requested : UInt32} (h : 0 < requested) :
    s.cap requested = requested := by
  rw [cap, if_pos h]

/-- A search by a rule looks the rule up and evaluates it. -/
theorem findRuleDuplicates_eq (s : DuplicateService σ) (request : RuleSearchRequest) :
    s.findRuleDuplicates request =
      match s.registry.get (Text.trim request.ruleCode) with
      | .error e => throw e
      | .ok rule => s.evaluateRule rule (s.observe request.values) request.baseIdentityKey
          { connected := request.connectedOnly, sourceFields := request.attributesFilter }
          request.maxResults := by
  unfold findRuleDuplicates
  cases s.registry.get (Text.trim request.ruleCode) with
  | error e => rfl
  | ok rule => rfl

/-- A search by a rule with a cap, when the backend gives no more hits of a search than it is asked for.
Its result is the one that it has without notes; if it succeeds, the cap bounds the hits of each search
of the rule, in all rounds together, and every match is a hit of one of them.  So there are at most as
many matches as the cap times the number of searches. -/
theorem findRuleDuplicates_capped (s : DuplicateService σ) (hsize : s.backend.WithinSize)
    (request : RuleSearchRequest) (hcap : 0 < request.maxResults) (world : σ) :
    ∃ result next log,
      (s.recorded.findRuleDuplicates request).run.run (world, []) = (result, next, log) ∧
      (s.findRuleDuplicates request).run.run world = (result, next) ∧
      ∀ found, result = .ok found → ∃ rule ds,
        s.registry.get (Text.trim request.ruleCode) = .ok rule ∧
        rule.generate s.catalog s.options (s.observe request.values)
          { connected := request.connectedOnly, sourceFields := request.attributesFilter } = .ok ds ∧
        (∀ x ∈ log, x.searches = ds ∧ s.backend.Gives x) ∧
        (∀ v, (hitsFor log v).length ≤ request.maxResults.toNat) ∧
        (∀ k, found.contains k = true → ∃ v < ds.length, FoundBy log v k) ∧
        found.size ≤ request.maxResults.toNat * ds.length := by
  rw [findRuleDuplicates_eq, findRuleDuplicates_eq]
  cases hget : s.registry.get (Text.trim request.ruleCode) with
  | error e =>
      have hget' : s.recorded.registry.get (Text.trim request.ruleCode) = .error e := hget
      rw [hget']
      exact ⟨.error e, world, [], rfl, rfl, forall_result_error⟩
  | ok rule =>
      have hget' : s.recorded.registry.get (Text.trim request.ruleCode) = .ok rule := hget
      rw [hget']
      obtain ⟨result, next, log, hrecorded, hrun, hfound⟩ :=
        s.run_evaluateRule_recorded rule (s.observe request.values) request.baseIdentityKey
          { connected := request.connectedOnly, sourceFields := request.attributesFilter }
          request.maxResults world
      refine ⟨result, next, log, hrecorded, hrun, fun found hresult => ?_⟩
      obtain ⟨ds, results, h⟩ := hfound found hresult
      have hpos : 0 < (s.cap request.maxResults).toNat := by
        rw [s.cap_of_pos hcap]
        exact UInt32.lt_iff_toNat_lt.mp hcap
      have hhits := h.logged.length_hitsFor_le hsize hpos
      rw [s.cap_of_pos hcap] at hhits
      refine ⟨rule, ds, rfl, h.generated, fun x hx => ⟨h.logged.searches x hx, h.logged.given x hx⟩,
        hhits, fun k hk => h.foundBy_of_contains hk, ?_⟩
      have hsize : found.size = found.hits.keys.length := (List.length_map _).symm
      rw [hsize]
      exact length_le_of_foundBy found.hits.nodup_keys
        (fun k hk => h.foundBy_of_contains (KeyMap.mem_keys.mp hk)) hhits

end DuplicateService

/-! ### Scripted caps -/

theorem ScriptedBackend.withinSize (b : ScriptedBackend) : b.backend.WithinSize := by
  refine SearchBackend.pagesHave_scripted b fun d w => ?_
  rw [ScriptedBackend.page, List.length_map]
  exact List.length_take_le _ _

namespace DuplicateService

/-- A request for one match by the rule with two searches. -/
def eitherRequest : RuleSearchRequest where
  ruleCode := "R"
  values := eitherValues
  maxResults := 1

theorem findRuleDuplicates_eitherRequest :
    eitherService.findRuleDuplicates eitherRequest =
      eitherService.evaluateRule eitherRule eitherObservation none {} 1 := by
  have hget : eitherService.registry.get (Text.trim eitherRequest.ruleCode) = .ok eitherRule := by
    have htrim : Text.trim "R" = "R" := by decide
    rw [eitherRequest, htrim]
    rfl
  rw [findRuleDuplicates_eq, hget, eitherRequest, observe_eitherValues]

theorem keys_findRuleDuplicates_eitherRequest :
    ((eitherService.findRuleDuplicates eitherRequest).run.run []).1.map (·.hits.keys) =
      .ok ["b", "c"] := by
  rw [findRuleDuplicates_eitherRequest]
  decide +kernel

/-- The rule with two searches has two matches, one hit of each search. -/
theorem findRuleDuplicates_capped_eitherRequest :
    ∃ found next log ds,
      (eitherService.recorded.findRuleDuplicates eitherRequest).run.run ([], []) =
        (.ok found, next, log) ∧
      found.hits.keys = ["b", "c"] ∧ (∀ v, (hitsFor log v).length ≤ 1) ∧
      eitherRule.generate eitherService.catalog eitherService.options eitherObservation {} = .ok ds ∧
      found.size ≤ 1 * ds.length := by
  have hkeys := keys_findRuleDuplicates_eitherRequest
  obtain ⟨result, next, log, hrecorded, hrun, hfound⟩ := findRuleDuplicates_capped eitherService
    (ScriptedBackend.withinSize _) eitherRequest (by decide) []
  rw [hrun] at hkeys
  cases result with
  | error e => cases hkeys
  | ok found =>
      obtain ⟨rule, ds, hrule, hgenerated, -, hhits, -, hsize⟩ := hfound found rfl
      have htrim : Text.trim eitherRequest.ruleCode = "R" := by decide
      rw [htrim] at hrule
      obtain rfl : eitherRule = rule := Except.ok.inj hrule
      rw [eitherRequest, observe_eitherValues] at hgenerated
      exact ⟨found, next, log, ds, hrecorded, Except.ok.inj hkeys, hhits, hgenerated, hsize⟩

/-- The matches of a rule with two searches exceed the cap of a request, although the backend gives no
more hits of a search than it is asked for. -/
theorem eitherRequest_exceeds_cap :
    eitherService.backend.WithinSize ∧ 0 < eitherRequest.maxResults ∧
    ∃ found, ((eitherService.findRuleDuplicates eitherRequest).run.run []).1 = .ok found ∧
      ¬ found.size ≤ eitherRequest.maxResults.toNat := by
  refine ⟨ScriptedBackend.withinSize _, by decide, ?_⟩
  have hkeys := keys_findRuleDuplicates_eitherRequest
  cases hrun : ((eitherService.findRuleDuplicates eitherRequest).run.run []).1 with
  | error e =>
      rw [hrun] at hkeys
      cases hkeys
  | ok found =>
      rw [hrun] at hkeys
      have hsize : found.size = found.hits.keys.length := (List.length_map _).symm
      have hkeys : found.hits.keys = ["b", "c"] := Except.ok.inj hkeys
      refine ⟨found, rfl, ?_⟩
      rw [hsize, hkeys]
      decide

end DuplicateService

end Lookalike
