import Lookalike.Proofs.Labels
import Lookalike.Proofs.RecordedServices

/-! # Where matches come from

The searches of a rule are numbered in order, and a hit gets the label of each search whose answer
contains it.  So the labels of a match name exactly the searches that found it, through all rounds and
after the filter, as long as the backend does not put markers of its own on hits.

Main statement: `evaluateRule_traced`. -/

namespace Lookalike

/-! ### Traces -/

/-- The hits of the backend carry no markers of their own. -/
def SearchBackend.Unmarked {σ : Type} (backend : SearchBackend σ) : Prop :=
  backend.PagesHave fun _ page => ∀ h ∈ page.hits, h.markers = ∅

/-- The markers of a result set are the labels of the searches of a rule that found its hits: each hit
has one at least, it has the label of a number exactly if that is the number of a search that found it
in some round, and the set has the labels of the searches that found some of its hits. -/
structure ResultSet.Traced (code : String) (searches : ℕ) (log : List Exchange) (s : ResultSet) :
    Prop where
  marked : ∀ k h, s.get? k = some h → ∃ m, m ∈ h.markers
  labels : ∀ k h, s.get? k = some h → ∀ m ∈ h.markers, ∃ v, m = Marker.label ⟨code, v⟩
  label_iff : ∀ k h, s.get? k = some h → ∀ v,
    Marker.label ⟨code, v⟩ ∈ h.markers ↔ v < searches ∧ FoundBy log v k
  markers : ∀ m, m ∈ s.markers ↔
    ∃ v < searches, m = Marker.label ⟨code, v⟩ ∧ ∃ k, s.contains k = true ∧ FoundBy log v k

namespace DuplicateService

variable {σ : Type} {s : DuplicateService σ} {rule : Rule} {o : Observation}
  {context : RequestContext} {maxResults : UInt32} {ds : List Descriptor} {log : List Exchange}
  {results found : ResultSet}

namespace Evaluated

/-- What the searches of a rule found, with the labels of their numbers. -/
theorem mem_findings (h : s.Evaluated rule o context maxResults ds log results found) {f : Finding} :
    f ∈ (log.flatMap Exchange.answered).flatMap Answered.findings ↔
      ∃ v < ds.length, ∃ x ∈ log, ∃ hit ∈ x.hitsAt v, f = ⟨some (Marker.label ⟨rule.code, v⟩), hit⟩ := by
  rw [List.flatMap_assoc, List.mem_flatMap]
  simp only [Exchange.mem_findings]
  constructor
  · rintro ⟨x, hx, v, d, hd, hit, hhit, rfl⟩
    rw [h.logged.searches x hx] at hd
    have hv : v < ds.length := (List.getElem?_eq_some_iff.mp hd).1
    rw [Rule.label_of_generate h.generated hd]
    exact ⟨v, hv, x, hx, hit, hhit, rfl⟩
  · rintro ⟨v, hv, x, hx, hit, hhit, rfl⟩
    have hd : ds[v]? = some ds[v] := List.getElem?_eq_getElem hv
    refine ⟨x, hx, v, ds[v], ?_, hit, hhit, ?_⟩
    · rw [h.logged.searches x hx, hd]
    · rw [Rule.label_of_generate h.generated hd]

theorem exists_entry (h : s.Evaluated rule o context maxResults ds log results found) {k : String}
    {hit : ScoredHit} (hget : found.get? k = some hit) :
    ∃ entry, Summarizes ((log.flatMap Exchange.answered).flatMap Answered.findings) k entry ∧
      hit.markers = entry.markers := by
  obtain ⟨survives, hkeeps⟩ := h.kept
  obtain ⟨entry, hentry, -, rfl⟩ := (hkeeps.hits k hit).mp hget
  exact ⟨entry, h.logged.gathers.hits.summary k entry (KeyMap.mem_toList.mp hentry), rfl⟩

variable (hunmarked : s.backend.Unmarked)
  (h : s.Evaluated rule o context maxResults ds log results found)
include hunmarked h

theorem mem_markers {k : String} {hit : ScoredHit} (hget : found.get? k = some hit) (m : String) :
    m ∈ hit.markers ↔ ∃ v < ds.length, m = Marker.label ⟨rule.code, v⟩ ∧ FoundBy log v k := by
  obtain ⟨entry, hsummary, hmarkers⟩ := h.exists_entry hget
  have hnone {x : Exchange} {v : ℕ} {hit : ScoredHit} (hx : x ∈ log) (hhit : hit ∈ x.hitsAt v) :
      hit.markers = ∅ := by
    obtain ⟨page, hpage, hhit⟩ := x.mem_hitsAt.mp hhit
    exact hunmarked.of_gives (h.logged.given x hx) hpage hit hhit
  rw [hmarkers, hsummary.markers]
  constructor
  · rintro ⟨f, hf, hkey, hcarries⟩
    obtain ⟨v, hv, x, hx, hit, hhit, rfl⟩ := h.mem_findings.mp hf
    refine ⟨v, hv, ?_, x, hx, hit, hhit, hkey⟩
    rcases hcarries with hown | hlabel
    · have hown : m ∈ hit.markers := hown
      rw [hnone hx hhit] at hown
      exact absurd hown (KeySet.not_mem_empty m)
    · exact (Option.some.inj hlabel).symm
  · rintro ⟨v, hv, rfl, x, hx, hit, hhit, hkey⟩
    exact ⟨_, h.mem_findings.mpr ⟨v, hv, x, hx, hit, hhit, rfl⟩, hkey, Or.inr rfl⟩

theorem traced : found.Traced rule.code ds.length log := by
  obtain ⟨survives, hkeeps⟩ := h.kept
  constructor
  case marked =>
    intro k hit hget
    obtain ⟨entry, hsummary, -⟩ := h.exists_entry hget
    obtain ⟨earlier, f, later, hsplit, hkey, -⟩ := hsummary.first
    have hf : f ∈ (log.flatMap Exchange.answered).flatMap Answered.findings := by
      rw [hsplit]
      exact List.mem_append_right _ List.mem_cons_self
    obtain ⟨v, hv, x, hx, found, hfound, rfl⟩ := h.mem_findings.mp hf
    exact ⟨_, (h.mem_markers hunmarked hget _).mpr ⟨v, hv, rfl, x, hx, found, hfound, hkey⟩⟩
  case labels =>
    intro k hit hget m hm
    obtain ⟨v, -, hlabel, -⟩ := (h.mem_markers hunmarked hget m).mp hm
    exact ⟨v, hlabel⟩
  case label_iff =>
    intro k hit hget v
    rw [h.mem_markers hunmarked hget]
    constructor
    · rintro ⟨w, hw, hlabel, hfound⟩
      obtain rfl := Marker.label_inj.mp hlabel
      exact ⟨hw, hfound⟩
    · rintro ⟨hv, hfound⟩
      exact ⟨v, hv, rfl, hfound⟩
  case markers =>
    intro m
    rw [hkeeps.markers]
    constructor
    · rintro ⟨k, hit, hget, hm⟩
      obtain ⟨v, hv, hlabel, hfound⟩ := (h.mem_markers hunmarked hget m).mp hm
      exact ⟨v, hv, hlabel, k, ResultSet.contains_iff.mpr ⟨hit, hget⟩, hfound⟩
    · rintro ⟨v, hv, hlabel, k, hcontains, hfound⟩
      obtain ⟨hit, hget⟩ := ResultSet.contains_iff.mp hcontains
      exact ⟨k, hit, hget, (h.mem_markers hunmarked hget m).mpr ⟨v, hv, hlabel, hfound⟩⟩

end Evaluated

/-- The matches of a rule can be traced to its searches, whatever the observation, the identity state
and the answers of the backend, as long as the hits of these carry no markers of their own.  The notes
of the evaluation, which has the same result without them, hold the answers to the searches of the rule,
and the markers of the matches are exactly the labels of the searches that found them. -/
theorem evaluateRule_traced (s : DuplicateService σ) (hunmarked : s.backend.Unmarked) (rule : Rule)
    (o : Observation) (base : Option String) (context : RequestContext) (maxResults : UInt32)
    (world : σ) :
    ∃ result next log,
      (s.recorded.evaluateRule rule o base context maxResults).run.run (world, []) =
        (result, next, log) ∧
      (s.evaluateRule rule o base context maxResults).run.run world = (result, next) ∧
      ∀ found, result = .ok found → ∃ ds,
        rule.generate s.catalog s.options o context = .ok ds ∧
        (∀ x ∈ log, x.searches = ds ∧ s.backend.Gives x) ∧
        found.Traced rule.code ds.length log := by
  obtain ⟨result, next, log, hrecorded, hrun, hfound⟩ :=
    s.run_evaluateRule_recorded rule o base context maxResults world
  refine ⟨result, next, log, hrecorded, hrun, fun found hresult => ?_⟩
  obtain ⟨ds, results, hevaluated⟩ := hfound found hresult
  refine ⟨ds, hevaluated.generated, fun x hx => ?_, hevaluated.traced hunmarked⟩
  exact ⟨hevaluated.logged.searches x hx, hevaluated.logged.given x hx⟩

end DuplicateService

/-! ### Scripted traces -/

theorem ScriptedBackend.unmarked_backend (b : ScriptedBackend) : b.backend.Unmarked := by
  refine SearchBackend.pagesHave_scripted b fun d w hit hhit => ?_
  obtain ⟨entry, -, rfl⟩ := List.mem_map.mp hhit
  rfl

namespace DuplicateService

/-- The two identities that are not merged remain, and each with the labels of the searches that found
it. -/
theorem evaluateRule_traced_eitherService :
    ∃ found next log,
      (eitherService.recorded.evaluateRule eitherRule eitherObservation none {} 0).run.run ([], []) =
        (.ok found, next, log) ∧
      found.hits.keys = ["b", "c"] ∧ found.markers.toList = ["R#0", "R#1"] ∧
      found.Traced "R" 2 log := by
  have hkeys : ((eitherService.evaluateRule eitherRule eitherObservation none {} 0).run.run []).1.map
      (fun found => (found.hits.keys, found.markers.toList)) = .ok (["b", "c"], ["R#0", "R#1"]) := by
    decide +kernel
  have hsearches : (eitherRule.generate eitherService.catalog eitherService.options eitherObservation
      {}).map List.length = .ok 2 := by decide +kernel
  obtain ⟨result, next, log, hrecorded, hrun, hfound⟩ := evaluateRule_traced eitherService
    (ScriptedBackend.unmarked_backend _) eitherRule eitherObservation none {} 0 []
  rw [hrun] at hkeys
  cases result with
  | error e => cases hkeys
  | ok found =>
      obtain ⟨hhits, hmarkers⟩ := Prod.ext_iff.mp (Except.ok.inj hkeys)
      obtain ⟨ds, hgenerated, -, htraced⟩ := hfound found rfl
      rw [hgenerated] at hsearches
      have hlength : ds.length = 2 := Except.ok.inj hsearches
      rw [hlength] at htraced
      exact ⟨found, next, log, hrecorded, hhits, hmarkers, htraced⟩

end DuplicateService

end Lookalike
