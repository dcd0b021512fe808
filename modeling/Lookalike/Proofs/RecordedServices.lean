import Lookalike.Proofs.CleanReports

/-! # Recorded services

`DuplicateService.recorded` notes what the backend of a service is asked, with the answers, and changes
nothing else (`evaluateRule_recorded_erases`).  The notes of an evaluation tell where its matches come
from, whatever the parties answer: `SearchBackend.Logged` says what a run of a batch leaves behind, and
`DuplicateService.Evaluated` what the evaluation of a rule does.

Main statement: `run_evaluateRule_recorded`. -/

namespace Lookalike

/-! ### Steps that keep notes -/

theorem forall_result_error {ε α : Type} {e : ε} {P : α → Prop} :
    ∀ a, Except.error e = .ok a → P a := by
  intro a h
  cases h

namespace Step

variable {σ τ α β ε : Type}

/-- The step comes to another one, which only sees what a projection shows of the world. -/
def Erases (π : τ → σ) (x : Step τ α) (y : Step σ α) : Prop :=
  ∀ world, y.run.run (π world) = ((x.run.run world).1, π (x.run.run world).2)

/-- The step keeps a property of the world. -/
def Preserves (x : Step σ α) (I : σ → Prop) : Prop := ∀ world, I world → I (x.run.run world).2

namespace Erases

variable {π : τ → σ}

theorem pure (a : α) : Erases π (Pure.pure a) (Pure.pure a) := fun _ => rfl

theorem throw (e : ServiceError) :
    Erases π (MonadExcept.throw e : Step τ α) (MonadExcept.throw e) := fun _ => rfl

theorem ofExcept (toService : ε → ServiceError) (result : Except ε α) :
    Erases π (Step.ofExcept toService result) (Step.ofExcept toService result) := fun _ => rfl

theorem ask (toService : ε → ServiceError) {question : StateM τ (Except ε α)}
    {question' : StateM σ (Except ε α)}
    (h : ∀ world, question'.run (π world) = ((question.run world).1, π (question.run world).2)) :
    Erases π (Step.ask toService question) (Step.ask toService question') := by
  intro world
  show ((question'.run (π world)).1.mapError toService, (question'.run (π world)).2) = _
  rw [h world]
  rfl

theorem bind {x : Step τ α} {y : Step σ α} {f : α → Step τ β} {g : α → Step σ β}
    (hx : Erases π x y) (hf : ∀ a, Erases π (f a) (g a)) : Erases π (x >>= f) (y >>= g) := by
  intro world
  rw [run_bind, run_bind, hx world]
  rcases x.run.run world with ⟨e | a, next⟩
  · rfl
  · exact hf a next

theorem mapM {f : α → Step τ β} {g : α → Step σ β} (h : ∀ a, Erases π (f a) (g a)) (xs : List α) :
    Erases π (xs.mapM f) (xs.mapM g) := by
  induction xs with
  | nil => exact pure []
  | cons a xs ih =>
      rw [List.mapM_cons, List.mapM_cons]
      exact (h a).bind fun b => ih.bind fun bs => pure (b :: bs)

end Erases

namespace Preserves

variable {I : σ → Prop}

theorem pure (a : α) : (Pure.pure a : Step σ α).Preserves I := fun _ h => h

theorem throw (e : ServiceError) : (MonadExcept.throw e : Step σ α).Preserves I := fun _ h => h

theorem ofExcept (toService : ε → ServiceError) (result : Except ε α) :
    (Step.ofExcept toService result : Step σ α).Preserves I := fun _ h => h

theorem ask (toService : ε → ServiceError) {question : StateM σ (Except ε α)}
    (h : ∀ world, I world → I (question.run world).2) :
    (Step.ask toService question).Preserves I := h

theorem bind {x : Step σ α} {f : α → Step σ β} (hx : x.Preserves I)
    (hf : ∀ a, (f a).Preserves I) : (x >>= f).Preserves I := by
  intro world hI
  have hnext := hx world hI
  rw [run_bind]
  generalize x.run.run world = outcome at hnext
  rcases outcome with ⟨e | a, next⟩
  · exact hnext
  · exact hf a next hnext

theorem ofExcept_bind (toService : ε → ServiceError) {result : Except ε α} {f : α → Step σ β}
    (hf : ∀ a, result = .ok a → (f a).Preserves I) :
    (Step.ofExcept toService result >>= f).Preserves I := by
  cases result with
  | error e => exact throw (toService e)
  | ok a =>
      rw [ofExcept_ok, pure_bind]
      exact hf a rfl

theorem mapM {f : α → Step σ β} {xs : List α} (h : ∀ a ∈ xs, (f a).Preserves I) :
    (xs.mapM f).Preserves I := by
  induction xs with
  | nil => exact pure []
  | cons a xs ih =>
      obtain ⟨ha, hxs⟩ := List.forall_mem_cons.mp h
      rw [List.mapM_cons]
      exact ha.bind fun b => (ih hxs).bind fun bs => pure (b :: bs)

end Preserves
end Step

/-! ### Parties that keep notes -/

/-- A backend that answers as another one does, which only sees what a projection shows. -/
def SearchBackend.Erases {σ τ : Type} (π : τ → σ) (backend : SearchBackend τ)
    (backend' : SearchBackend σ) : Prop :=
  ∀ ds w world, (backend'.search ds w).run (π world) =
    (((backend.search ds w).run world).1, π ((backend.search ds w).run world).2)

namespace SearchBackend

variable {σ τ : Type} {π : τ → σ} {backend : SearchBackend τ} {backend' : SearchBackend σ}

theorem recorded_erases (backend : SearchBackend σ) :
    backend.recorded.Erases Prod.fst backend := fun _ _ _ => rfl

theorem runRound_erases (h : backend.Erases π backend') (ds : List Descriptor) (s : ResultSet)
    (w : Window) : Step.Erases π (backend.runRound ds s w) (backend'.runRound ds s w) :=
  (Step.Erases.ask _ (h ds w)).bind fun _ => .ofExcept _ _

theorem runRounds_erases (h : backend.Erases π backend') (ds : List Descriptor) (s : ResultSet)
    (ws : List Window) : Step.Erases π (backend.runRounds ds s ws) (backend'.runRounds ds s ws) := by
  induction ws generalizing s with
  | nil => exact .pure s
  | cons w ws ih => exact (runRound_erases h ds s w).bind fun merged => ih merged.2

theorem execute_erases (h : backend.Erases π backend') (ds : List Descriptor)
    (pageSize maxResults : UInt32) :
    Step.Erases π (backend.execute ds pageSize maxResults)
      (backend'.execute ds pageSize maxResults) := by
  unfold execute
  split_ifs
  · exact .pure _
  · exact .throw _
  · refine (runRound_erases h ds _ _).bind fun ⟨total, merged⟩ => ?_
    dsimp only
    rw [runFrom_eq_runRounds, runFrom_eq_runRounds]
    exact runRounds_erases h ds _ _

section Preserves

variable {backend : SearchBackend σ} {ds : List Descriptor} {I : σ → Prop}

theorem runRound_preserves (h : ∀ w world, I world → I ((backend.search ds w).run world).2)
    (s : ResultSet) (w : Window) : (backend.runRound ds s w).Preserves I :=
  (Step.Preserves.ask _ (h w)).bind fun _ => .ofExcept _ _

theorem runRounds_preserves (h : ∀ w world, I world → I ((backend.search ds w).run world).2)
    (s : ResultSet) (ws : List Window) : (backend.runRounds ds s ws).Preserves I := by
  induction ws generalizing s with
  | nil => exact .pure s
  | cons w ws ih => exact (runRound_preserves h s w).bind fun merged => ih merged.2

/-- A run of a batch keeps what its searches keep. -/
theorem execute_preserves (h : ∀ w world, I world → I ((backend.search ds w).run world).2)
    (pageSize maxResults : UInt32) : (backend.execute ds pageSize maxResults).Preserves I := by
  unfold execute
  split_ifs
  · exact .pure _
  · exact .throw _
  · refine (runRound_preserves h _ _).bind fun ⟨total, merged⟩ => ?_
    dsimp only
    rw [runFrom_eq_runRounds]
    exact runRounds_preserves h _ _

end Preserves
end SearchBackend

namespace IdentityState

variable {σ : Type} (state : IdentityState σ) (ν : Type)

/-- The identity state beside notes that it leaves alone. -/
def beside : IdentityState (σ × ν) where
  isExcluded candidate base := fun (world, notes) =>
    let (answer, next) := (state.isExcluded candidate base).run world
    (answer, (next, notes))
  isMerged candidate := fun (world, notes) =>
    let (answer, next) := (state.isMerged candidate).run world
    (answer, (next, notes))

theorem drops_beside_erases (base : Option String) (key : String) :
    Step.Erases Prod.fst ((state.beside ν).drops base key) (state.drops base key) := by
  have hmerged : Step.Erases Prod.fst
      (Step.ask StateError.toService ((state.beside ν).isMerged key))
      (Step.ask StateError.toService (state.isMerged key)) := .ask _ fun _ => rfl
  unfold drops
  cases base with
  | none => exact hmerged
  | some base =>
      dsimp only
      split_ifs
      · exact .pure true
      · refine (Step.Erases.ask _ fun _ => rfl).bind fun excluded => ?_
        cases excluded with
        | false => exact hmerged
        | true => exact .pure true

variable {ν}

theorem drops_beside_preserves (notes : ν) (base : Option String) (key : String) :
    ((state.beside ν).drops base key).Preserves (fun world => world.2 = notes) := by
  have hmerged : (Step.ask StateError.toService ((state.beside ν).isMerged key)).Preserves
      (fun world => world.2 = notes) := .ask _ fun _ h => h
  unfold drops
  cases base with
  | none => exact hmerged
  | some base =>
      dsimp only
      split_ifs
      · exact .pure true
      · refine (Step.Preserves.ask _ fun _ h => h).bind fun excluded => ?_
        cases excluded with
        | false => exact hmerged
        | true => exact .pure true

end IdentityState

namespace ResultSet

variable {σ ν : Type} (state : IdentityState σ) (base ruleCode : Option String)

theorem addSurvivors_beside_erases (s : ResultSet) (entries : List (String × ScoredHit)) :
    Step.Erases Prod.fst (addSurvivors (state.beside ν) base ruleCode s entries)
      (addSurvivors state base ruleCode s entries) := by
  induction entries generalizing s with
  | nil => exact .pure s
  | cons e entries ih => exact (state.drops_beside_erases ν base e.1).bind fun dropped => ih _

theorem addSurvivors_beside_preserves (notes : ν) (s : ResultSet)
    (entries : List (String × ScoredHit)) :
    (addSurvivors (state.beside ν) base ruleCode s entries).Preserves
      (fun world => world.2 = notes) := by
  induction entries generalizing s with
  | nil => exact .pure s
  | cons e entries ih =>
      exact (state.drops_beside_preserves notes base e.1).bind fun dropped => ih _

end ResultSet

namespace DuplicateService

variable {σ : Type} (s : DuplicateService σ)

/-- The service with notes of what its backend is asked, in order. -/
def recorded : DuplicateService (σ × List Exchange) where
  matching := s.matching
  failureMode := s.failureMode
  options := s.options
  catalog := s.catalog
  backend := s.backend.recorded
  identityState := s.identityState.beside _
  registry := s.registry

theorem evaluateRule_recorded_erases (rule : Rule) (o : Observation) (base : Option String)
    (context : RequestContext) (maxResults : UInt32) :
    Step.Erases Prod.fst (s.recorded.evaluateRule rule o base context maxResults)
      (s.evaluateRule rule o base context maxResults) := by
  unfold evaluateRule run
  split_ifs
  · refine (Step.Erases.ofExcept _ _).bind fun ds => ?_
    refine (SearchBackend.execute_erases s.backend.recorded_erases ds _ _).bind fun results => ?_
    exact ResultSet.addSurvivors_beside_erases s.identityState base _ .empty _
  · exact .pure _

end DuplicateService

/-! ### Notes of a batch -/

namespace Exchange

variable (x : Exchange)

/-- The pages of the answer, none after a failure. -/
def pages : List SearchPage :=
  match x.answer with
  | .ok pages => pages
  | .error _ => []

/-- The searches with the pages that answer them. -/
def answered : List Answered := x.searches.zip x.pages

/-- The hits in the answer to the search at a position. -/
def hitsAt (v : ℕ) : List ScoredHit :=
  match x.pages[v]? with
  | some page => page.hits
  | none => []

/-- The answer to the search at a position contains an identity. -/
def Contains (v : ℕ) (key : String) : Prop := ∃ h ∈ x.hitsAt v, h.identityKey = key

theorem mem_hitsAt {v : ℕ} {h : ScoredHit} :
    h ∈ x.hitsAt v ↔ ∃ page, x.pages[v]? = some page ∧ h ∈ page.hits := by
  unfold hitsAt
  cases x.pages[v]? <;> simp

theorem mem_answered {a : Answered} :
    a ∈ x.answered ↔ ∃ v : ℕ, x.searches[v]? = some a.1 ∧ x.pages[v]? = some a.2 := by
  rw [answered, List.mem_iff_getElem?]
  simp only [List.getElem?_zip_eq_some]

theorem mem_findings {f : Finding} :
    f ∈ x.answered.flatMap Answered.findings ↔
      ∃ (v : ℕ) (d : Descriptor), x.searches[v]? = some d ∧ ∃ h ∈ x.hitsAt v, f = ⟨d.label, h⟩ := by
  simp only [List.mem_flatMap, mem_answered, Answered.findings, List.mem_map, mem_hitsAt]
  constructor
  · rintro ⟨⟨d, page⟩, ⟨v, hd, hpage⟩, h, hh, rfl⟩
    exact ⟨v, d, hd, h, ⟨page, hpage, hh⟩, rfl⟩
  · rintro ⟨v, d, hd, h, ⟨page, hpage, hh⟩, rfl⟩
    exact ⟨(d, page), ⟨v, hd, hpage⟩, h, hh, rfl⟩

end Exchange

/-- Some answer to the search at a place contains an identity. -/
def FoundBy (log : List Exchange) (v : ℕ) (key : String) : Prop := ∃ x ∈ log, x.Contains v key

/-- What merging the answers in order gives is the summary of the answers. -/
theorem Gathers.replay {log : List Exchange} {answers : List Answered} {s results : ResultSet}
    (hs : Gathers answers s) (h : replay s log = .ok results) :
    Gathers (answers ++ log.flatMap Exchange.answered) results := by
  induction log generalizing answers s with
  | nil =>
      obtain rfl : s = results := Except.ok.inj h
      rwa [List.flatMap_nil, List.append_nil]
  | cons x log ih =>
      rw [Lookalike.replay] at h
      cases hmerge : mergeAnswer s x.searches x.answer with
      | error e =>
          rw [hmerge] at h
          cases h
      | ok merged =>
          rw [hmerge] at h
          obtain ⟨pages, hpages, hmerged⟩ := SearchBackend.addPages_of_mergeAnswer _ hmerge
          have hanswered : x.answered = x.searches.zip pages := by
            rw [Exchange.answered, Exchange.pages, hpages]
          rw [List.flatMap_cons, ← List.append_assoc, hanswered]
          exact ih (hmerged ▸ hs.addPages _) h

namespace SearchBackend

variable {σ : Type} (backend : SearchBackend σ)

/-- The backend gives the answer of an exchange, in some world. -/
def Gives (x : Exchange) : Prop :=
  ∃ world, ((backend.search x.searches x.window).run world).1 = x.answer

/-- The pages that the backend gives for a window have a property. -/
def PagesHave (P : Window → SearchPage → Prop) : Prop :=
  ∀ ds w world pages, ((backend.search ds w).run world).1 = .ok pages → ∀ page ∈ pages, P w page

theorem PagesHave.of_gives {backend : SearchBackend σ} {P : Window → SearchPage → Prop}
    (h : backend.PagesHave P) {x : Exchange} (hx : backend.Gives x) {v : ℕ} {page : SearchPage}
    (hpage : x.pages[v]? = some page) : P x.window page := by
  obtain ⟨world, hanswer⟩ := hx
  unfold Exchange.pages at hpage
  cases hpages : x.answer with
  | error e =>
      rw [hpages] at hpage
      cases hpage
  | ok pages =>
      rw [hpages] at hpage hanswer
      exact h _ _ world pages hanswer page (List.mem_of_getElem? hpage)

/-- Scripted pages have what the windows of the scripted hits have. -/
theorem pagesHave_scripted (b : ScriptedBackend) {P : Window → SearchPage → Prop}
    (h : ∀ d w, P w (b.page d w)) : b.backend.PagesHave P := by
  intro ds w calls pages hpages page hpage
  have hanswer : b.answer calls.length ds w = .ok pages := hpages
  unfold ScriptedBackend.answer at hanswer
  split_ifs at hanswer
  · rw [← Except.ok.inj hanswer] at hpage
    cases hpage
  · rw [← Except.ok.inj hanswer] at hpage
    obtain ⟨d, -, rfl⟩ := List.mem_map.mp hpage
    exact h d w

/-- What a run of a batch that succeeds leaves behind: its notes are on the searches of the batch and
hold true answers, its windows together ask for no more hits of a search than a cap, and its result is
the summary of the answers. -/
structure Logged (ds : List Descriptor) (cap : ℕ) (log : List Exchange) (results : ResultSet) :
    Prop where
  searches : ∀ x ∈ log, x.searches = ds
  given : ∀ x ∈ log, backend.Gives x
  capped : 0 < cap → (log.map (·.window.size)).sum ≤ cap
  gathers : Gathers (log.flatMap Exchange.answered) results

theorem Logged.nil (ds : List Descriptor) (cap : ℕ) : backend.Logged ds cap [] .empty :=
  ⟨List.forall_mem_nil _, List.forall_mem_nil _, fun _ => Nat.zero_le _, .empty⟩

/-- Notes keep a property that the note on the next question has. -/
theorem search_recorded_forall {P : Exchange → Prop} {ds : List Descriptor} {w : Window}
    {world : σ × List Exchange} (h : ∀ x ∈ world.2, P x)
    (hnext : P ⟨ds, w, ((backend.search ds w).run world.1).1⟩) :
    ∀ x ∈ ((backend.recorded.search ds w).run world).2.2, P x := by
  intro x hx
  rcases List.mem_append.mp hx with hx | hx
  · exact h x hx
  · rwa [List.mem_singleton.mp hx]

theorem run_execute_logged (ds : List Descriptor) (pageSize maxResults : UInt32) (world : σ) :
    ∃ result next log,
      (backend.recorded.execute ds pageSize maxResults).run.run (world, []) = (result, next, log) ∧
      ∀ results, result = .ok results → backend.Logged ds maxResults.toNat log results := by
  by_cases hnone : ds = []
  · subst hnone
    refine ⟨.ok .empty, world, [], rfl, fun results hresults => ?_⟩
    obtain rfl : ResultSet.empty = results := Except.ok.inj hresults
    exact .nil backend _ _
  by_cases hpage : pageSize = 0
  · have hds : ¬ ds.isEmpty = true := fun h => hnone (List.isEmpty_iff.mp h)
    rw [execute, if_neg hds, if_pos hpage]
    exact ⟨_, world, [], rfl, forall_result_error⟩
  obtain ⟨result, next, first, rest, hrun, -, hfollows⟩ :=
    backend.run_execute_recorded ds hnone hpage maxResults world
  have hnoted (w : Window) (world : σ × List Exchange) (h : ∀ x ∈ world.2, backend.Gives x) :
      ∀ x ∈ ((backend.recorded.search ds w).run world).2.2, backend.Gives x :=
    backend.search_recorded_forall h ⟨world.1, rfl⟩
  have hgiven := execute_preserves hnoted pageSize maxResults (world, []) (List.forall_mem_nil _)
  have hpages := pagesThrough_pagePlan (toNat_pos_of_ne_zero hpage) pageSize.toNat_lt_size
    (first.bound_lt maxResults.toNat) (first.bound_le maxResults.toNat)
  rw [hrun] at hgiven
  refine ⟨result, next, first :: rest, hrun, fun results hresults => ?_⟩
  constructor
  case searches => exact hfollows.searches
  case given => exact hgiven
  case capped =>
    intro hcap
    have hsizes := hpages.capped hcap
    rwa [← hfollows.complete ⟨results, hresults⟩, List.map_map] at hsizes
  case gathers => exact Gathers.empty.replay (hfollows.replayed.trans hresults)

end SearchBackend

/-! ### Survivors -/

namespace ResultSet

variable {σ : Type}

theorem Keeps.congr {ruleCode : Option String} {survives survives' : String → Prop}
    {entries : List (String × ScoredHit)} {s : ResultSet} (h : Keeps survives ruleCode entries s)
    (heq : ∀ e ∈ entries, survives e.1 ↔ survives' e.1) : Keeps survives' ruleCode entries s := by
  refine ⟨fun k found => (h.hits k found).trans ?_, h.markers, h.maxScore⟩
  constructor
  · rintro ⟨g, hg, hk, hfound⟩
    exact ⟨g, hg, (heq _ hg).mp hk, hfound⟩
  · rintro ⟨g, hg, hk, hfound⟩
    exact ⟨g, hg, (heq _ hg).mpr hk, hfound⟩

/-- Whatever the identity state answers, the filter keeps some of the entries.  As no entry has the key of
another, an answer decides for its entry alone. -/
theorem addSurvivors_ensures_some (state : IdentityState σ) (base ruleCode : Option String)
    {before entries : List (String × ScoredHit)} (hkeys : KeysIncrease (before ++ entries))
    (hfiled : ∀ e ∈ entries, e.2.identityKey = e.1) {survives : String → Prop} {s : ResultSet}
    (hs : Keeps survives ruleCode before s) :
    (addSurvivors state base ruleCode s entries).Ensures fun t =>
      ∃ survives, Keeps survives ruleCode (before ++ entries) t := by
  induction entries generalizing before survives s with
  | nil => exact .pure ⟨survives, by rwa [List.append_nil]⟩
  | cons e entries ih =>
      have hrest : ∀ e ∈ entries, e.2.identityKey = e.1 :=
        fun d hd => hfiled d (List.mem_cons_of_mem e hd)
      rw [List.append_cons] at hkeys ⊢
      have hfirst := (List.pairwise_append.mp hkeys).1
      refine Step.Ensures.bind (P := fun _ => True) (fun _ _ _ => trivial) fun dropped _ => ?_
      let judged (k : String) : Prop := if k = e.1 then dropped = false else survives k
      have hbefore : Keeps judged ruleCode before s := by
        refine hs.congr fun d hd => ?_
        have hlt := (List.pairwise_append.mp hfirst).2.2 d hd e List.mem_cons_self
        have hne : d.1 ≠ e.1 := fun heq => String.lt_irrefl _ (heq ▸ hlt)
        simp only [judged, if_neg hne]
      have hjudged : dropped = false ↔ judged e.1 := by simp only [judged, if_pos]
      exact ih hkeys hrest (hbefore.judge hfirst (hfiled e List.mem_cons_self) hjudged)

end ResultSet

/-! ### Evaluations -/

namespace DuplicateService

variable {σ : Type} (s : DuplicateService σ)

/-- What the evaluation of a rule that succeeds leaves behind: the searches of the rule, the notes of
their run, and the matches, which are what the filter keeps of the result of that run. -/
structure Evaluated (rule : Rule) (o : Observation) (context : RequestContext)
    (maxResults : UInt32) (ds : List Descriptor) (log : List Exchange) (results found : ResultSet) :
    Prop where
  generated : rule.generate s.catalog s.options o context = .ok ds
  logged : s.backend.Logged ds (s.cap maxResults).toNat log results
  kept : ∃ survives, found.Keeps survives (some rule.code) results.hits.toList

theorem Evaluated.of_not_canApply {rule : Rule} {o : Observation} (h : ¬ rule.canApply o = true)
    (context : RequestContext) (maxResults : UInt32) :
    s.Evaluated rule o context maxResults [] [] .empty .empty := by
  refine ⟨?_, .nil _ _ _, fun _ => True, .empty⟩
  rw [Rule.generate, Rule.workingSets, if_neg h]
  rfl

theorem run_run_recorded (ds : List Descriptor) (base ruleCode : Option String)
    (maxResults : UInt32) (world : σ) :
    ∃ result next log,
      (s.recorded.run ds base ruleCode maxResults).run.run (world, []) = (result, next, log) ∧
      ∀ found, result = .ok found → ∃ results,
        s.backend.Logged ds (s.cap maxResults).toNat log results ∧
          ∃ survives, found.Keeps survives ruleCode results.hits.toList := by
  obtain ⟨outcome, middle, log, hexecute, hlogged⟩ :=
    s.backend.run_execute_logged ds s.matching.pageSize (s.cap maxResults) world
  have hbatch : (s.recorded.backend.execute ds s.recorded.matching.pageSize
      (s.recorded.cap maxResults)).run.run (world, []) = (outcome, middle, log) := hexecute
  rw [run, Step.run_bind, hbatch]
  cases outcome with
  | error e => exact ⟨.error e, middle, log, rfl, forall_result_error⟩
  | ok results =>
      have hresults := hlogged results rfl
      have hnotes := ResultSet.addSurvivors_beside_preserves s.identityState base ruleCode log .empty
        results.hits.toList (middle, log) rfl
      have hfiled : ∀ e ∈ results.hits.toList, e.2.identityKey = e.1 := fun e he =>
        (hresults.gathers.hits.summary e.1 e.2 (KeyMap.mem_toList.mp he)).key
      have hkeys : KeysIncrease ([] ++ results.hits.toList) := results.hits.increasing
      have hnone : ResultSet.empty.Keeps (fun _ => True) ruleCode [] := .empty
      have hkept := ResultSet.addSurvivors_ensures_some (s.identityState.beside (List Exchange)) base
        ruleCode hkeys hfiled hnone (middle, log)
      refine ⟨_, _, log, Prod.ext rfl (Prod.ext rfl hnotes), fun found hfound => ?_⟩
      exact ⟨results, hresults, hkept found hfound⟩

/-- The evaluation of a rule with notes has the result that it has without, and a success leaves behind
what `Evaluated` says. -/
theorem run_evaluateRule_recorded (rule : Rule) (o : Observation) (base : Option String)
    (context : RequestContext) (maxResults : UInt32) (world : σ) :
    ∃ result next log,
      (s.recorded.evaluateRule rule o base context maxResults).run.run (world, []) =
        (result, next, log) ∧
      (s.evaluateRule rule o base context maxResults).run.run world = (result, next) ∧
      ∀ found, result = .ok found →
        ∃ ds results, s.Evaluated rule o context maxResults ds log results found := by
  have herases := s.evaluateRule_recorded_erases rule o base context maxResults (world, [])
  suffices h : ∃ result next log,
      (s.recorded.evaluateRule rule o base context maxResults).run.run (world, []) =
        (result, next, log) ∧
      ∀ found, result = .ok found →
        ∃ ds results, s.Evaluated rule o context maxResults ds log results found by
    obtain ⟨result, next, log, hrun, hfound⟩ := h
    rw [hrun] at herases
    exact ⟨result, next, log, hrun, herases, hfound⟩
  by_cases happlies : rule.canApply o = true
  · rw [evaluateRule, if_pos happlies, Step.run_bind]
    cases hgenerate : rule.generate s.catalog s.options o context with
    | error e =>
        have hgenerate' : rule.generate s.recorded.catalog s.recorded.options o context = .error e :=
          hgenerate
        rw [hgenerate']
        exact ⟨_, world, [], rfl, forall_result_error⟩
    | ok ds =>
        have hgenerate' : rule.generate s.recorded.catalog s.recorded.options o context = .ok ds :=
          hgenerate
        obtain ⟨result, next, log, hrun, hfound⟩ :=
          s.run_run_recorded ds base (some rule.code) maxResults world
        rw [hgenerate']
        refine ⟨result, next, log, hrun, fun found hresult => ?_⟩
        obtain ⟨results, hlogged, hkept⟩ := hfound found hresult
        exact ⟨ds, results, hgenerate, hlogged, hkept⟩
  · rw [evaluateRule, if_neg happlies]
    refine ⟨.ok .empty, world, [], rfl, fun found hfound => ?_⟩
    obtain rfl : ResultSet.empty = found := Except.ok.inj hfound
    exact ⟨[], .empty, .of_not_canApply s happlies context maxResults⟩

/-! ### A rule with two searches -/

/-- A rule that searches for an e-mail address and for a birth date. -/
def eitherRule : Rule where
  code := "R"
  checkedAttributes := [⟨"email", none⟩, ⟨"birthDate", none⟩]
  nbFilledAttributes := 1
  nbEqualAttributes := 1

/-- Stand-ins with that rule.  The first search finds two identities, of which the second is merged; the
other search finds a third one and the first again. -/
def eitherService : DuplicateService (List (List Descriptor × Window)) :=
  { standIn
      { byMarker := .ofList
          [("R#0", [("b", .zero), ("a", .zero)]), ("R#1", [("c", .zero), ("b", .zero)])] }
      { merged := ["a"] } with
    registry := ⟨⟨[eitherRule]⟩⟩ }

def eitherValues : List (String × String) := [("birthDate", "1970"), ("email", "a@b")]

def eitherObservation : Observation :=
  (Observation.empty.push (.resolve eitherService.catalog "birthDate" "1970")).push
    (.resolve eitherService.catalog "email" "a@b")

theorem observe_eitherValues : eitherService.observe eitherValues = eitherObservation := by
  rw [observe, Observation.ofValues_of_pairwise (by decide +kernel) (by decide +kernel)]
  rfl

end DuplicateService

end Lookalike
