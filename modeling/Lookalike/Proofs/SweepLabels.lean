import Lookalike.Proofs.Labels
import Lookalike.Proofs.RecordedServices

/-! # Labels in a sweep

A rule numbers its searches, so the labels of one rule differ in their numbers, and those of rules with
different codes in their codes.  Whatever the parties answer, a sweep searches for nothing else: each
batch in the notes of a recorded service is that of one of the rules, as a whole.

Main statement: `DuplicateService.labels_identify_searches`. -/

namespace Lookalike
namespace DuplicateService

variable {σ : Type} (s : DuplicateService σ)

/-! ### The searches of a sweep -/

/-- The searches that a rule makes in a sweep, none if it fails to make them. -/
def searchesOf (request : SweepRequest) (rule : Rule) : List Descriptor :=
  match rule.generate s.catalog s.options (s.observe request.values)
      { sourceFields := request.attributesFilter } with
  | .ok ds => ds
  | .error _ => []

theorem searchesOf_eq {request : SweepRequest} {rule : Rule} {ds : List Descriptor}
    (h : rule.generate s.catalog s.options (s.observe request.values)
      { sourceFields := request.attributesFilter } = .ok ds) : s.searchesOf request rule = ds := by
  rw [searchesOf, h]

section searchesOf

variable {s} {request : SweepRequest} {rule rule' : Rule} {v v' : ℕ} {d d' : Descriptor}

theorem label_of_searchesOf (h : (s.searchesOf request rule)[v]? = some d) :
    d.label = some (Marker.label ⟨rule.code, v⟩) := by
  unfold searchesOf at h
  split at h
  · rename_i hgenerate
    exact Rule.label_of_generate hgenerate h
  · cases h

theorem exists_label_of_mem_searchesOf (h : d ∈ s.searchesOf request rule) :
    ∃ v, d.label = some (Marker.label ⟨rule.code, v⟩) := by
  obtain ⟨v, hv⟩ := List.mem_iff_getElem?.mp h
  exact ⟨v, label_of_searchesOf hv⟩

/-- One label on searches of two rules means one code and one number. -/
theorem label_searchesOf_inj (h : (s.searchesOf request rule)[v]? = some d)
    (h' : (s.searchesOf request rule')[v']? = some d') (hlabel : d.label = d'.label) :
    rule.code = rule'.code ∧ v = v' := by
  rw [label_of_searchesOf h, label_of_searchesOf h', Option.some_inj] at hlabel
  exact Marker.mk.inj (Marker.label_injective hlabel)

theorem nodup_labels_searchesOf : ((s.searchesOf request rule).map Descriptor.label).Nodup := by
  refine List.pairwise_map.mpr (List.pairwise_iff_getElem.mpr ?_)
  intro v v' hv hv' hlt hlabel
  obtain ⟨-, rfl⟩ := label_searchesOf_inj (List.getElem?_eq_getElem hv)
    (List.getElem?_eq_getElem hv') hlabel
  exact Nat.lt_irrefl v hlt

theorem disjoint_labels_searchesOf (hcodes : rule.code ≠ rule'.code) :
    ((s.searchesOf request rule).map Descriptor.label).Disjoint
      ((s.searchesOf request rule').map Descriptor.label) := by
  rw [List.disjoint_left]
  intro label hlabel hlabel'
  obtain ⟨d, hd, rfl⟩ := List.mem_map.mp hlabel
  obtain ⟨d', hd', heq⟩ := List.mem_map.mp hlabel'
  obtain ⟨v, hv⟩ := List.mem_iff_getElem?.mp hd
  obtain ⟨v', hv'⟩ := List.mem_iff_getElem?.mp hd'
  exact hcodes (label_searchesOf_inj hv hv' heq.symm).1

theorem nodup_labels_of_sweep {rules : List Rule} (hcodes : (rules.map (·.code)).Nodup) :
    ((rules.flatMap (s.searchesOf request)).map Descriptor.label).Nodup := by
  rw [List.map_flatMap, List.nodup_flatMap]
  refine ⟨fun rule _ => nodup_labels_searchesOf, ?_⟩
  exact (List.pairwise_map.mp hcodes).imp disjoint_labels_searchesOf

end searchesOf

/-! ### The notes of a sweep -/

/-- The evaluation of a rule adds notes on the searches of the rule only. -/
theorem evaluateRule_recorded_preserves {rule : Rule} {o : Observation} {context : RequestContext}
    {P : Exchange → Prop}
    (hP : ∀ ds, rule.generate s.catalog s.options o context = .ok ds →
      ∀ w answer, P ⟨ds, w, answer⟩) (base : Option String) (maxResults : UInt32) :
    (s.recorded.evaluateRule rule o base context maxResults).Preserves
      fun world => ∀ x ∈ world.2, P x := by
  unfold evaluateRule run
  split_ifs
  · refine Step.Preserves.ofExcept_bind _ fun ds hds => ?_
    refine Step.Preserves.bind (SearchBackend.execute_preserves ?_ _ _) fun results => ?_
    · exact fun w world hworld => s.backend.search_recorded_forall hworld (hP ds hds w _)
    · intro world hworld
      have hnotes := ResultSet.addSurvivors_beside_preserves s.identityState base (some rule.code)
        world.2 .empty results.hits.toList world rfl
      exact fun x hx => hworld x (hnotes ▸ hx)
  · exact Step.Preserves.pure _

theorem findDuplicates_recorded_erases (request : SweepRequest) (rules : List Rule) :
    Step.Erases Prod.fst (s.recorded.findDuplicates request rules)
      (s.findDuplicates request rules) := by
  unfold findDuplicates
  rw [sweep_eq_mapM, sweep_eq_mapM]
  refine (Step.Erases.mapM (fun rule world => ?_) _).bind fun reports => .pure _
  have herases := s.evaluateRule_recorded_erases rule (s.observe request.values)
    (some request.baseIdentityKey) { sourceFields := request.attributesFilter } 0 world
  rw [run_sweepRule, run_sweepRule, herases]
  rfl

/-- A sweep leaves notes on the searches of its rules only, each batch as a whole. -/
theorem findDuplicates_recorded_preserves (request : SweepRequest) (rules : List Rule) :
    (s.recorded.findDuplicates request rules).Preserves
      fun world => ∀ x ∈ world.2, ∃ rule ∈ rules, s.searchesOf request rule = x.searches := by
  unfold findDuplicates
  rw [sweep_eq_mapM]
  refine (Step.Preserves.mapM fun rule hrule => ?_).bind fun reports => .pure _
  refine s.evaluateRule_recorded_preserves ?_ (some request.baseIdentityKey) 0
  exact fun ds hds _ _ => ⟨rule, List.mem_mergeSort.mp hrule, s.searchesOf_eq hds⟩

/-! ### Labels that identify -/

/-- Labels identify the searches of a sweep: each has a label with the code of its rule, no two have the
same, and the notes are on whole batches of these, so that a label in them tells the batch and the place
in it.  A batch is noted once for each window. -/
structure LabelsIdentify (request : SweepRequest) (rules : List Rule) (log : List Exchange) :
    Prop where
  labelled : ∀ rule ∈ rules, ∀ d ∈ s.searchesOf request rule,
    ∃ v, d.label = some (Marker.label ⟨rule.code, v⟩)
  distinct : ((rules.flatMap (s.searchesOf request)).map Descriptor.label).Nodup
  noted : ∀ x ∈ log, ∃ rule ∈ rules, s.searchesOf request rule = x.searches
  identified : ∀ x ∈ log, ∀ x' ∈ log, ∀ (v v' : ℕ) (d d' : Descriptor), x.searches[v]? = some d →
    x'.searches[v']? = some d' → d.label = d'.label → x.searches = x'.searches ∧ v = v'

theorem LabelsIdentify.of_noted {request : SweepRequest} {rules : List Rule} {log : List Exchange}
    (hcodes : (rules.map (·.code)).Nodup)
    (hnoted : ∀ x ∈ log, ∃ rule ∈ rules, s.searchesOf request rule = x.searches) :
    s.LabelsIdentify request rules log := by
  constructor
  case labelled => exact fun rule _ d hd => exists_label_of_mem_searchesOf hd
  case distinct => exact nodup_labels_of_sweep hcodes
  case noted => exact hnoted
  case identified =>
    intro x hx x' hx' v v' d d' hd hd' hlabel
    obtain ⟨rule, hrule, hsearches⟩ := hnoted x hx
    obtain ⟨rule', hrule', hsearches'⟩ := hnoted x' hx'
    rw [← hsearches] at hd ⊢
    rw [← hsearches'] at hd' ⊢
    obtain ⟨hcode, hplace⟩ := label_searchesOf_inj hd hd' hlabel
    obtain rfl : rule = rule' := List.inj_on_of_nodup_map hcodes hrule hrule' hcode
    exact ⟨rfl, hplace⟩

/-- A label tells the code and the number of its marker, whatever signs and digits the code has, and so
it tells which search of a sweep it is on: when rules with different codes are evaluated, no two of
their searches have one label, whatever the parties answer.  The notes of the sweep, which has the same
result without them, hold the searches that were made. -/
theorem labels_identify_searches :
    (∀ m m' : Marker, m.label = m'.label → m.ruleCode = m'.ruleCode ∧ m.variant = m'.variant) ∧
    ∀ {σ : Type} (s : DuplicateService σ) (request : SweepRequest) (rules : List Rule) (world : σ),
      (rules.map (·.code)).Nodup → ∃ result next log,
        (s.recorded.findDuplicates request rules).run.run (world, []) = (result, next, log) ∧
        (s.findDuplicates request rules).run.run world = (result, next) ∧
        s.LabelsIdentify request rules log := by
  refine ⟨fun m m' h => Marker.mk.inj (Marker.label_injective h), ?_⟩
  intro σ s request rules world hcodes
  have herases := s.findDuplicates_recorded_erases request rules (world, [])
  have hnoted := s.findDuplicates_recorded_preserves request rules (world, [])
    (List.forall_mem_nil _)
  generalize (s.recorded.findDuplicates request rules).run.run (world, []) = outcome
    at herases hnoted
  obtain ⟨result, next, log⟩ := outcome
  exact ⟨result, next, log, rfl, herases, .of_noted s hcodes hnoted⟩

/-- Two rules with the same searches.  The code of the second one is the first label of the other. -/
def mimicRules : List Rule := [eitherRule, { eitherRule with code := "R#0" }]

/-- Their searches are asked for under four labels. -/
theorem labels_identify_searches_mimicRules :
    ∃ result next log,
      (eitherService.recorded.findDuplicates
        { values := eitherValues, baseIdentityKey := "a" } mimicRules).run.run ([], []) =
          (result, next, log) ∧
      log.map (fun x => x.searches.map Descriptor.label) =
        [[some "R#0", some "R#1"], [some "R#0#0", some "R#0#1"]] ∧
      eitherService.LabelsIdentify { values := eitherValues, baseIdentityKey := "a" } mimicRules
        log := by
  have hlabels : ((eitherService.recorded.findDuplicates
      { values := eitherValues, baseIdentityKey := "a" } mimicRules).run.run ([], [])).2.2.map
        (fun x => x.searches.map Descriptor.label) =
      [[some "R#0", some "R#1"], [some "R#0#0", some "R#0#1"]] := by
    have hobserve : eitherService.recorded.observe eitherValues = eitherObservation :=
      observe_eitherValues
    rw [findDuplicates, hobserve, List.mergeSort_of_pairwise (by decide)]
    decide +kernel
  obtain ⟨result, next, log, hrun, -, hidentify⟩ := labels_identify_searches.2 eitherService
    { values := eitherValues, baseIdentityKey := "a" } mimicRules [] (by decide)
  rw [hrun] at hlabels
  exact ⟨result, next, log, hrun, hlabels, hidentify⟩

end DuplicateService

end Lookalike
