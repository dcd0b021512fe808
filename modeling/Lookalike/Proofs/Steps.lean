import Lookalike.Proofs.Gathering
import Lookalike.Proofs.Recording
import Lookalike.Survivors

/-! # What steps come to

A step of matching may change the world and may fail.  `Step.Ensures` says what holds of every value
that it gives, and `Step.Yields` that it has the same result in every world; both go through the
composition of steps.

Main statements: `execute_ensures_gathers`, that every run of a batch that succeeds leaves a summary of
some answers, whatever the backend does; `execute_steady` and `survivors_steady`, that parties which
answer by what they are asked make for steps with one result. -/

namespace Lookalike
namespace Step

variable {σ α β ε : Type}

/-- Every value that the step gives, in whatever world, has a property. -/
def Ensures (x : Step σ α) (P : α → Prop) : Prop :=
  ∀ world a, (x.run.run world).1 = .ok a → P a

/-- The step has one result, in whatever world. -/
def Yields (x : Step σ α) (r : Except ServiceError α) : Prop :=
  ∀ world, (x.run.run world).1 = r

/-- The result of the step does not depend on the world. -/
def Steady (x : Step σ α) : Prop := ∃ r, x.Yields r

theorem ext {x y : Step σ α} (h : ∀ world, x.run.run world = y.run.run world) : x = y := funext h

/-! ### What is ensured -/

namespace Ensures

variable {x : Step σ α} {P Q : α → Prop}

theorem mono (h : x.Ensures P) (hPQ : ∀ a, P a → Q a) : x.Ensures Q :=
  fun world a hrun => hPQ a (h world a hrun)

theorem pure {a : α} (h : P a) : (Pure.pure a : Step σ α).Ensures P := by
  intro world b hrun
  have hrun : (Except.ok a : Except ServiceError α) = .ok b := hrun
  injection hrun with hab
  rwa [← hab]

theorem throw (e : ServiceError) : (MonadExcept.throw e : Step σ α).Ensures P := by
  intro world a hrun
  have hrun : (Except.error e : Except ServiceError α) = .ok a := hrun
  cases hrun

theorem bind {f : α → Step σ β} {R : β → Prop} (h : x.Ensures P)
    (hf : ∀ a, P a → (f a).Ensures R) : (x >>= f).Ensures R := by
  intro world b hrun
  rw [run_bind] at hrun
  cases hx : (x.run.run world) with
  | mk result next =>
      rw [hx] at hrun
      cases result with
      | error e => cases hrun
      | ok a => exact hf a (h world a (by rw [hx])) next b hrun

theorem mapM {f : α → Step σ β} {R : α → β → Prop} (hf : ∀ a, (f a).Ensures (R a))
    (xs : List α) : (xs.mapM f).Ensures fun bs => ∀ b ∈ bs, ∃ a ∈ xs, R a b := by
  induction xs with
  | nil =>
      rw [List.mapM_nil]
      exact pure fun b hb => absurd hb List.not_mem_nil
  | cons a xs ih =>
      rw [List.mapM_cons]
      refine (hf a).bind fun b hb => ih.bind fun bs hbs => pure fun c hc => ?_
      rcases List.mem_cons.mp hc with rfl | hc
      · exact ⟨a, List.mem_cons_self, hb⟩
      · obtain ⟨d, hd, hR⟩ := hbs c hc
        exact ⟨d, List.mem_cons_of_mem a hd, hR⟩

end Ensures

/-! ### One result -/

namespace Yields

variable {x : Step σ α} {r : Except ServiceError α}

theorem pure (a : α) : (Pure.pure a : Step σ α).Yields (.ok a) := fun _ => rfl

theorem throw (e : ServiceError) : (MonadExcept.throw e : Step σ α).Yields (.error e) :=
  fun _ => rfl

theorem ask {toService : ε → ServiceError} {question : StateM σ (Except ε α)} {answer : Except ε α}
    (h : ∀ world, (question.run world).1 = answer) :
    (Step.ask toService question).Yields (answer.mapError toService) :=
  fun world => congrArg (Except.mapError toService) (h world)

theorem bind {f : α → Step σ β} {g : α → Except ServiceError β} (h : x.Yields r)
    (hf : ∀ a, (f a).Yields (g a)) : (x >>= f).Yields (r >>= g) := by
  intro world
  rw [run_bind, ← h world]
  rcases x.run.run world with ⟨e | a, next⟩
  · rfl
  · exact hf a next

theorem bind_ok {f : α → Step σ β} {a : α} {q : Except ServiceError β} (h : x.Yields (.ok a))
    (hf : (f a).Yields q) : (x >>= f).Yields q := by
  intro world
  have ha := h world
  rw [run_bind]
  cases hx : x.run.run world with
  | mk result next =>
      rw [hx] at ha
      obtain rfl : result = .ok a := ha
      exact hf next

theorem bind_error {f : α → Step σ β} {e : ServiceError} (h : x.Yields (.error e)) :
    (x >>= f).Yields (.error e) := by
  intro world
  have he := h world
  rw [run_bind]
  cases hx : x.run.run world with
  | mk result next =>
      rw [hx] at he
      obtain rfl : result = .error e := he
      rfl

theorem map (h : x.Yields r) (f : α → β) : (x >>= fun a => Pure.pure (f a)).Yields (r.map f) := by
  intro world
  rw [run_bind, ← h world]
  rcases x.run.run world with ⟨e | a, next⟩
  · rfl
  · rfl

theorem mapM {f : α → Step σ β} {g : α → Except ServiceError β} (hf : ∀ a, (f a).Yields (g a))
    (xs : List α) : (xs.mapM f).Yields (xs.mapM g) := by
  induction xs with
  | nil => exact pure []
  | cons a xs ih =>
      rw [List.mapM_cons, List.mapM_cons]
      exact (hf a).bind fun b => ih.bind fun bs => pure (b :: bs)

end Yields

theorem Yields.ensures {x : Step σ α} {r : Except ServiceError α} {P : α → Prop} (h : x.Yields r)
    (hP : ∀ a, r = .ok a → P a) : x.Ensures P :=
  fun world a hrun => hP a ((h world).symm.trans hrun)

namespace Steady

theorem pure (a : α) : (Pure.pure a : Step σ α).Steady := ⟨_, Yields.pure a⟩

theorem throw (e : ServiceError) : (MonadExcept.throw e : Step σ α).Steady := ⟨_, Yields.throw e⟩

theorem ofExcept (toService : ε → ServiceError) (result : Except ε α) :
    (Step.ofExcept toService result : Step σ α).Steady := ⟨_, fun _ => rfl⟩

theorem ask (toService : ε → ServiceError) {question : StateM σ (Except ε α)} {answer : Except ε α}
    (h : ∀ world, (question.run world).1 = answer) : (Step.ask toService question).Steady :=
  ⟨_, Yields.ask h⟩

theorem bind {x : Step σ α} {f : α → Step σ β} (h : x.Steady) (hf : ∀ a, (f a).Steady) :
    (x >>= f).Steady := by
  obtain ⟨r, hr⟩ := h
  choose g hg using hf
  exact ⟨r >>= g, hr.bind hg⟩

end Steady
end Step

/-! ### Parties that answer by what they are asked -/

/-- The backend answers a batch by its searches and its window alone. -/
def SearchBackend.AnswersBy {σ : Type} (backend : SearchBackend σ)
    (reply : List Descriptor → Window → Except BackendError (List SearchPage)) : Prop :=
  ∀ ds w world, ((backend.search ds w).run world).1 = reply ds w

/-- The identity state answers by the keys that it is asked for alone. -/
structure IdentityState.AnswersBy {σ : Type} (state : IdentityState σ)
    (excluded : String → String → Except StateError Bool)
    (merged : String → Except StateError Bool) : Prop where
  isExcluded : ∀ candidate base world,
    ((state.isExcluded candidate base).run world).1 = excluded candidate base
  isMerged : ∀ candidate world, ((state.isMerged candidate).run world).1 = merged candidate

/-- A scripted backend that neither fails nor drops its answers tells the pages of a window. -/
theorem ScriptedBackend.answersBy {b : ScriptedBackend} (hfail : b.failOnCall = none)
    (hdrop : b.dropResponses = false) :
    b.backend.AnswersBy fun ds w => .ok (ds.map fun d => b.page d w) := by
  intro ds w calls
  show b.answer calls.length ds w = _
  rw [answer, hfail, hdrop]
  rfl

theorem MemoryState.answersBy (m : MemoryState) (σ : Type) :
    (m.identityState σ).AnswersBy
      (fun candidate base => if m.failing then .error ⟨"exclusion store offline"⟩
        else .ok (m.excluded.contains (candidate, base)))
      (fun candidate => if m.failing then .error ⟨"merge store offline"⟩
        else .ok (m.merged.contains candidate)) :=
  ⟨fun _ _ _ => rfl, fun _ _ => rfl⟩

namespace SearchBackend

variable {σ : Type}

section Steady

variable {backend : SearchBackend σ} (ds : List Descriptor)
  {reply : List Descriptor → Window → Except BackendError (List SearchPage)}

theorem runRound_steady (h : backend.AnswersBy reply) (s : ResultSet) (w : Window) :
    (backend.runRound ds s w).Steady :=
  (Step.Steady.ask _ (h ds w)).bind fun _ => Step.Steady.ofExcept _ _

theorem runRounds_steady (h : backend.AnswersBy reply) (s : ResultSet) (ws : List Window) :
    (backend.runRounds ds s ws).Steady := by
  induction ws generalizing s with
  | nil => exact Step.Steady.pure s
  | cons w ws ih => exact (runRound_steady ds h s w).bind fun merged => ih merged.2

theorem execute_steady (h : backend.AnswersBy reply) (pageSize maxResults : UInt32) :
    (backend.execute ds pageSize maxResults).Steady := by
  unfold execute
  split_ifs
  · exact Step.Steady.pure _
  · exact Step.Steady.throw _
  · refine (runRound_steady ds h _ _).bind fun ⟨total, merged⟩ => ?_
    dsimp only
    rw [runFrom_eq_runRounds]
    exact runRounds_steady ds h _ _

end Steady

/-! ### Runs of a batch -/

variable (backend : SearchBackend σ) (ds : List Descriptor)

theorem addPages_of_mergeAnswer {s merged : ResultSet} {total : UInt64}
    {answer : Except BackendError (List SearchPage)}
    (h : mergeAnswer s ds answer = .ok (total, merged)) :
    ∃ pages, answer = .ok pages ∧ merged = s.addPages (ds.zip pages) := by
  cases answer with
  | error e => cases h
  | ok pages =>
      refine ⟨pages, rfl, ?_⟩
      unfold mergeAnswer ResultSet.mergeRound at h
      dsimp only at h
      split_ifs at h
      · cases h
      · cases h
      · injection h with h
        exact (congrArg Prod.snd h).symm

theorem runRound_ensures_gathers {answers : List Answered} {s : ResultSet}
    (hs : Gathers answers s) (w : Window) :
    (backend.runRound ds s w).Ensures fun merged => ∃ more, Gathers (answers ++ more) merged.2 := by
  intro world merged hrun
  rw [run_runRound] at hrun
  obtain ⟨pages, -, hmerged⟩ := addPages_of_mergeAnswer ds hrun
  exact ⟨ds.zip pages, hmerged ▸ hs.addPages _⟩

theorem runRounds_ensures_gathers {answers : List Answered} {s : ResultSet}
    (hs : Gathers answers s) (ws : List Window) :
    (backend.runRounds ds s ws).Ensures fun merged => ∃ all, Gathers all merged := by
  induction ws generalizing answers s with
  | nil => exact .pure ⟨answers, hs⟩
  | cons w ws ih =>
      refine (runRound_ensures_gathers backend ds hs w).bind fun merged ⟨more, hmore⟩ => ?_
      exact ih hmore

/-- A run of a batch leaves the summary of some answers, whatever the backend does. -/
theorem execute_ensures_gathers (pageSize maxResults : UInt32) :
    (backend.execute ds pageSize maxResults).Ensures fun s => ∃ answers, Gathers answers s := by
  unfold execute
  split_ifs
  · exact .pure ⟨[], .empty⟩
  · exact .throw _
  · refine (runRound_ensures_gathers backend ds .empty _).bind fun ⟨total, merged⟩ ⟨more, hmore⟩ => ?_
    dsimp only
    rw [runFrom_eq_runRounds]
    exact runRounds_ensures_gathers backend ds hmore _

end SearchBackend

/-! ### Hits that survive -/

/-- What the look-ups of a candidate come to: whether it is dropped, or the first failure. -/
def verdict (excluded : String → String → Except StateError Bool)
    (merged : String → Except StateError Bool) (base : Option String) (key : String) :
    Except StateError Bool :=
  match base with
  | none => merged key
  | some base =>
      if key = base then .ok true
      else
        match excluded key base with
        | .error e => .error e
        | .ok true => .ok true
        | .ok false => merged key

section Survivors

variable {σ : Type} {state : IdentityState σ}
  {excluded : String → String → Except StateError Bool} {merged : String → Except StateError Bool}

theorem IdentityState.drops_yields (hstate : state.AnswersBy excluded merged)
    (base : Option String) (key : String) :
    (state.drops base key).Yields
      ((verdict excluded merged base key).mapError StateError.toService) := by
  have hmerged : (Step.ask StateError.toService (state.isMerged key)).Yields
      ((merged key).mapError StateError.toService) := .ask (hstate.isMerged key)
  unfold drops verdict
  cases base with
  | none => exact hmerged
  | some b =>
      dsimp only
      split_ifs with hkey
      · exact .pure true
      · have hanswer : (Step.ask StateError.toService (state.isExcluded key b)).Yields
            ((excluded key b).mapError StateError.toService) := .ask (hstate.isExcluded key b)
        have hnext (dropped : Bool) :
            (if dropped = true then pure true else Step.ask StateError.toService (state.isMerged key) :
              Step σ Bool).Yields
            (if dropped = true then .ok true else (merged key).mapError StateError.toService) := by
          cases dropped with
          | true => exact .pure true
          | false => exact hmerged
        have hboth := hanswer.bind hnext
        cases hexcluded : excluded key b with
        | error e => rwa [hexcluded] at hboth
        | ok answer =>
            rw [hexcluded] at hboth
            cases answer with
            | true => exact hboth
            | false => exact hboth

theorem IdentityState.drops_steady (h : state.AnswersBy excluded merged) (base : Option String)
    (key : String) : (state.drops base key).Steady :=
  ⟨_, drops_yields h base key⟩

theorem ResultSet.addSurvivors_steady (h : state.AnswersBy excluded merged)
    (base ruleCode : Option String) (s : ResultSet) (entries : List (String × ScoredHit)) :
    (addSurvivors state base ruleCode s entries).Steady := by
  induction entries generalizing s with
  | nil => exact .pure s
  | cons e entries ih => exact (IdentityState.drops_steady h base e.1).bind fun dropped => ih _

theorem ResultSet.survivors_steady (h : state.AnswersBy excluded merged)
    (base ruleCode : Option String) (results : ResultSet) :
    (results.survivors state base ruleCode).Steady :=
  addSurvivors_steady h base ruleCode .empty _

end Survivors

end Lookalike
