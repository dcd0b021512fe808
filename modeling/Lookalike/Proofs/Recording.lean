import Lookalike.Proofs.Gathering
import Lookalike.Proofs.Windows

/-! # Recorded runs

`SearchBackend.recorded` notes every question that a backend is asked, with the answer.  What a run
asks can then be read off the notes, whatever the answers are, and noting changes nothing else.

Main statement: `execute_recorded`.  A run of a batch asks for the windows that the first answer and
the cap determine, in order and no further than the first failure, and its result is what merging the
answers gives. -/

namespace Lookalike

/-! ### Notes -/

/-- A question to a backend with its answer. -/
structure Exchange where
  searches : List Descriptor
  window : Window
  answer : Except BackendError (List SearchPage)

/-- What merging the answer to a round makes of a set; also the largest total. -/
def mergeAnswer (s : ResultSet) (ds : List Descriptor)
    (answer : Except BackendError (List SearchPage)) : Except ServiceError (UInt64 × ResultSet) :=
  match answer with
  | .error e => .error e.toService
  | .ok pages => (s.mergeRound ds pages).mapError .aggregation

/-- What merging the answers in order makes of a set, up to the first failure. -/
def replay (s : ResultSet) : List Exchange → Except ServiceError ResultSet
  | [] => .ok s
  | x :: xs =>
      match mergeAnswer s x.searches x.answer with
      | .error e => .error e
      | .ok (_, merged) => replay merged xs

/-- How far a run pages after a first answer: to the total that no other of the answer exceeds, but not
past the cap nor past what 32 bits hold; not at all after a failure or without pages. -/
inductive Exchange.Reaches (x : Exchange) (maxResults : ℕ) : ℕ → Prop
  | failed {e : BackendError} (hanswer : x.answer = .error e) : Reaches x maxResults 0
  | empty (hanswer : x.answer = .ok []) : Reaches x maxResults 0
  | total {pages : List SearchPage} {p : SearchPage} (hanswer : x.answer = .ok pages) (hp : p ∈ pages)
      (hlargest : ∀ q ∈ pages, q.total ≤ p.total) :
      Reaches x maxResults (min
        (if 0 < maxResults then min p.total.toNat maxResults else p.total.toNat) (UInt32.size - 1))

/-- The bound that an exchange reaches. -/
def Exchange.bound (x : Exchange) (maxResults : ℕ) : ℕ :=
  match x.answer with
  | .error _ => 0
  | .ok pages =>
      let total := (ResultSet.largestTotal pages).toNat
      min (if 0 < maxResults then min total maxResults else total) (UInt32.size - 1)

namespace SearchBackend

variable {σ : Type}

/-- The backend with notes of what it was asked, in order. -/
def recorded (backend : SearchBackend σ) : SearchBackend (σ × List Exchange) where
  search ds w := fun (world, notes) =>
    let (answer, next) := (backend.search ds w).run world
    (answer, (next, notes ++ [⟨ds, w, answer⟩]))

end SearchBackend

/-- Exchanges that go through windows for some searches until the windows or the answers end it. -/
structure Follows (ds : List Descriptor) (s : ResultSet) (ws : List Window) (xs : List Exchange)
    (result : Except ServiceError ResultSet) : Prop where
  searches : ∀ x ∈ xs, x.searches = ds
  windows : xs.map (·.window) <+: ws
  replayed : replay s xs = result
  unbroken : ∃ t, replay s xs.dropLast = .ok t
  complete : (∃ t, result = .ok t) → xs.map (·.window) = ws

namespace Follows

variable {ds : List Descriptor} {s : ResultSet} {ws : List Window} {w : Window}
  {answer : Except BackendError (List SearchPage)}

theorem nil : Follows ds s [] [] (.ok s) :=
  ⟨fun _ h => absurd h List.not_mem_nil, List.prefix_rfl, rfl, ⟨s, rfl⟩, fun _ => rfl⟩

theorem failed {e : ServiceError} (he : mergeAnswer s ds answer = .error e) :
    Follows ds s (w :: ws) [⟨ds, w, answer⟩] (.error e) := by
  refine ⟨?_, ⟨ws, rfl⟩, ?_, ⟨s, rfl⟩, ?_⟩
  · intro x hx
    rw [List.mem_singleton.mp hx]
  · unfold replay
    dsimp only
    rw [he]
  · rintro ⟨t, ht⟩
    cases ht

theorem cons {total : UInt64} {merged : ResultSet}
    (hm : mergeAnswer s ds answer = .ok (total, merged)) {xs : List Exchange}
    {result : Except ServiceError ResultSet} (h : Follows ds merged ws xs result) :
    Follows ds s (w :: ws) (⟨ds, w, answer⟩ :: xs) result := by
  have hreplay (ys : List Exchange) : replay s (⟨ds, w, answer⟩ :: ys) = replay merged ys := by
    rw [replay]
    dsimp only
    rw [hm]
  obtain ⟨hsearches, hwindows, hreplayed, ⟨t, ht⟩, hcomplete⟩ := h
  refine ⟨?_, ?_, ?_, ?_, ?_⟩
  · intro x hx
    rcases List.mem_cons.mp hx with rfl | hx
    · rfl
    · exact hsearches x hx
  · exact List.cons_prefix_cons.mpr ⟨rfl, hwindows⟩
  · rw [hreplay, hreplayed]
  · cases xs with
    | nil => exact ⟨s, rfl⟩
    | cons y ys =>
        refine ⟨t, ?_⟩
        rw [List.dropLast_cons_cons, hreplay, ht]
  · intro hok
    rw [List.map_cons, hcomplete hok]

end Follows

namespace Exchange

variable (x : Exchange)

theorem bound_lt (maxResults : ℕ) : x.bound maxResults < UInt32.size := by
  have hsize : 0 < UInt32.size := by decide
  unfold bound
  cases x.answer with
  | error e => exact hsize
  | ok pages =>
      dsimp only
      omega

theorem bound_le (maxResults : ℕ) (hcap : 0 < maxResults) : x.bound maxResults ≤ maxResults := by
  unfold bound
  cases x.answer with
  | error e => exact Nat.zero_le _
  | ok pages =>
      dsimp only
      rw [if_pos hcap]
      omega

theorem reaches_bound (maxResults : ℕ) : x.Reaches maxResults (x.bound maxResults) := by
  unfold bound
  cases hanswer : x.answer with
  | error e => exact .failed hanswer
  | ok pages =>
      by_cases hnone : pages = []
      · subst hnone
        have hzero : (ResultSet.largestTotal []).toNat = 0 := rfl
        simp only [hzero, Nat.zero_min, ite_self]
        exact .empty hanswer
      · obtain ⟨p, hp, htotal⟩ := ResultSet.largestTotal_mem hnone
        dsimp only
        rw [← htotal]
        refine .total hanswer hp fun q hq => ?_
        rw [htotal]
        exact ResultSet.le_largestTotal hq

/-- The run pages as far as the first answer tells. -/
theorem toNat_pageBound_of_ok {x : Exchange} {s merged : ResultSet} {ds : List Descriptor}
    {total : UInt64} (h : mergeAnswer s ds x.answer = .ok (total, merged)) (maxResults : UInt32) :
    (pageBound maxResults total).toNat = x.bound maxResults.toNat := by
  unfold bound
  cases hx : x.answer with
  | error e =>
      rw [hx] at h
      cases h
  | ok pages =>
      have htotal : total = ResultSet.largestTotal pages := by
        rw [hx] at h
        unfold mergeAnswer ResultSet.mergeRound at h
        dsimp only at h
        split_ifs at h
        · cases h
        · cases h
        · injection h with h
          exact (congrArg Prod.fst h).symm
      rw [toNat_pageBound, htotal]
      rfl

end Exchange

/-! ### Steps of a run -/

namespace Step

variable {σ α β : Type}

theorem run_bind (x : Step σ α) (f : α → Step σ β) (world : σ) :
    ((x >>= f).run).run world =
      match x.run.run world with
      | (.ok a, next) => (f a).run.run next
      | (.error e, next) => (.error e, next) := by
  rw [ExceptT.run_bind, StateT.run_bind]
  rcases x.run.run world with ⟨e | a, next⟩
  · rfl
  · rfl

end Step

namespace SearchBackend

variable {σ : Type} (backend : SearchBackend σ) (ds : List Descriptor)

theorem run_runRound (s : ResultSet) (w : Window) (world : σ) :
    (backend.runRound ds s w).run.run world =
      (mergeAnswer s ds ((backend.search ds w).run world).1,
        ((backend.search ds w).run world).2) := by
  rw [runRound, Step.run_bind]
  have hask : (Step.ask BackendError.toService (backend.search ds w)).run.run world =
      (((backend.search ds w).run world).1.mapError BackendError.toService,
        ((backend.search ds w).run world).2) := rfl
  rw [hask]
  rcases (backend.search ds w).run world with ⟨e | pages, next⟩
  · rfl
  · rfl

theorem run_search_recorded (w : Window) (world : σ) (notes : List Exchange) :
    (backend.recorded.search ds w).run (world, notes) =
      (((backend.search ds w).run world).1, ((backend.search ds w).run world).2,
        notes ++ [⟨ds, w, ((backend.search ds w).run world).1⟩]) := rfl

theorem run_runRounds_recorded (ws : List Window) (s : ResultSet) (world : σ)
    (notes : List Exchange) :
    ∃ result next xs,
      (backend.recorded.runRounds ds s ws).run.run (world, notes) = (result, next, notes ++ xs) ∧
      (backend.runRounds ds s ws).run.run world = (result, next) ∧
      Follows ds s ws xs result := by
  induction ws generalizing s world notes with
  | nil => exact ⟨.ok s, world, [], by rw [List.append_nil]; rfl, rfl, .nil⟩
  | cons w ws ih =>
      rw [runRounds, runRounds, Step.run_bind, Step.run_bind, run_runRound, run_runRound,
        run_search_recorded]
      rcases (backend.search ds w).run world with ⟨answer, next⟩
      dsimp only
      cases hmerge : mergeAnswer s ds answer with
      | error e => exact ⟨.error e, next, [⟨ds, w, answer⟩], rfl, rfl, .failed hmerge⟩
      | ok merged =>
          obtain ⟨result, last, xs, hrecorded, hrun, hfollows⟩ :=
            ih merged.2 next (notes ++ [⟨ds, w, answer⟩])
          refine ⟨result, last, ⟨ds, w, answer⟩ :: xs, ?_, hrun, .cons hmerge hfollows⟩
          rw [List.append_assoc, List.singleton_append] at hrecorded
          exact hrecorded

/-- A run of a batch goes through the windows that the first answer determines. -/
theorem run_execute_recorded {pageSize : UInt32} (hsome : ds ≠ []) (hpage : pageSize ≠ 0)
    (maxResults : UInt32) (world : σ) :
    ∃ result next first rest,
      (backend.recorded.execute ds pageSize maxResults).run.run (world, []) =
        (result, next, first :: rest) ∧
      (backend.execute ds pageSize maxResults).run.run world = (result, next) ∧
      Follows ds .empty
        (pagePlan pageSize.toNat maxResults.toNat (first.bound maxResults.toNat))
        (first :: rest) result := by
  have hds : ¬ ds.isEmpty = true := fun h => hsome (List.isEmpty_iff.mp h)
  unfold execute
  rw [if_neg hds, if_neg hds, if_neg hpage, if_neg hpage, Step.run_bind, Step.run_bind,
    run_runRound, run_runRound, run_search_recorded]
  rcases (backend.search ds (firstWindow pageSize maxResults)).run world with ⟨answer, next⟩
  dsimp only
  generalize hfirst : (⟨ds, firstWindow pageSize maxResults, answer⟩ : Exchange) = first
  have hplan : pagePlan pageSize.toNat maxResults.toNat (first.bound maxResults.toNat) =
      firstWindow pageSize maxResults ::
        windowsFrom pageSize.toNat (first.bound maxResults.toNat) pageSize.toNat := by
    rw [pagePlan, firstWindow_eq]
  cases hmerge : mergeAnswer .empty ds answer with
  | error e =>
      refine ⟨.error e, next, first, [], rfl, rfl, ?_⟩
      rw [hplan, ← hfirst]
      exact .failed hmerge
  | ok merged =>
      obtain ⟨total, merged⟩ := merged
      have hbound : (pageBound maxResults total).toNat = first.bound maxResults.toNat := by
        rw [← hfirst]
        exact Exchange.toNat_pageBound_of_ok hmerge maxResults
      obtain ⟨result, last, rest, hrecorded, hrun, hfollows⟩ :=
        backend.run_runRounds_recorded ds (windowsFrom pageSize.toNat
          (first.bound maxResults.toNat) pageSize.toNat) merged next [first]
      rw [← hbound, ← runFrom_eq_runRounds] at hrecorded hrun
      refine ⟨result, last, first, rest, hrecorded, hrun, ?_⟩
      rw [hplan]
      rw [← hfirst] at hfollows ⊢
      exact .cons hmerge hfollows

/-- What a run of a batch asks, and what it makes of the answers, for every backend.  Without searches
it asks nothing.  Otherwise the first answer and the cap determine windows that page through the hits;
the run asks for them in order, for all of them if it succeeds, and ends at the first failure of an
answer or a merge; its result is what merging the answers in order gives. -/
theorem execute_recorded (pageSize maxResults : UInt32) (world : σ) :
    ∃ result next log,
      (backend.recorded.execute ds pageSize maxResults).run.run (world, []) = (result, next, log) ∧
      (backend.execute ds pageSize maxResults).run.run world = (result, next) ∧
      (ds = [] → result = .ok .empty ∧ log = [] ∧ next = world) ∧
      (ds ≠ [] → pageSize ≠ 0 → ∃ first bound ws, log.head? = some first ∧
        first.Reaches maxResults.toNat bound ∧
        PagesThrough pageSize.toNat maxResults.toNat bound ws ∧
        Follows ds .empty ws log result) := by
  by_cases hnone : ds = []
  · subst hnone
    exact ⟨.ok .empty, world, [], rfl, rfl, fun _ => ⟨rfl, rfl, rfl⟩, fun h => absurd rfl h⟩
  by_cases hpage : pageSize = 0
  · subst hpage
    have hds : ¬ ds.isEmpty = true := fun h => hnone (List.isEmpty_iff.mp h)
    unfold execute
    rw [if_neg hds, if_neg hds, if_pos rfl, if_pos rfl]
    exact ⟨.error (.invalidRequest .zeroPageSize), world, [], rfl, rfl, fun h => absurd h hnone,
      fun _ h => absurd rfl h⟩
  obtain ⟨result, next, first, rest, hrecorded, hrun, hfollows⟩ :=
    backend.run_execute_recorded ds hnone hpage maxResults world
  refine ⟨result, next, first :: rest, hrecorded, hrun, fun h => absurd h hnone, fun _ _ => ?_⟩
  exact ⟨first, _, _, rfl, first.reaches_bound _, pagesThrough_pagePlan (toNat_pos_of_ne_zero hpage)
    pageSize.toNat_lt_size (first.bound_lt _) (first.bound_le _), hfollows⟩

end SearchBackend

end Lookalike
