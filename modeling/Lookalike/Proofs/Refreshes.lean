import Lookalike.Proofs.Recording
import Lookalike.Proofs.Registries

/-! # Refreshes of a registry

A registry is used over time: its rules are refreshed from a repository whose answers may be others at
every call, callers take snapshots and keep them, and codes are looked up.  `Serves` says what one such
use comes to, with the answers of the repository that it rests on: a refresh swaps the whole snapshot
for one of the rules that were got, one for each listed code, or leaves it where the listing or any of
the look-ups fails.

Main statements: `RuleRegistry.refreshes_iff` for one refresh, `RuleRegistry.Session.run_serves` for a
registry over time. -/

namespace Lookalike

/-! ### Rules in order -/

/-- The rules of a list by priority, then by code; equal ones stay in the order of the list. -/
structure RuleSnapshot.Orders (s : RuleSnapshot) (rules : List Rule) : Prop where
  perm : s.rules.Perm rules
  sorted : s.rules.Pairwise fun a b =>
    a.priority < b.priority ∨ a.priority = b.priority ∧ a.code ≤ b.code
  stable : ∀ priority code,
    (s.rules.filter fun r => r.priority = priority ∧ r.code = code) =
      rules.filter fun r => r.priority = priority ∧ r.code = code

namespace RuleSnapshot

theorem sorted_iff (rules : List Rule) :
    (rules.Pairwise fun a b => ruleLe a b = true) ↔ rules.Pairwise fun a b =>
      a.priority < b.priority ∨ a.priority = b.priority ∧ a.code ≤ b.code := by
  simp only [ruleLe_iff]

theorem orders_ofRules (rules : List Rule) : (ofRules rules).Orders rules where
  perm := perm_ofRules rules
  sorted := (sorted_iff _).mp (List.pairwise_mergeSort ruleLe_trans ruleLe_total rules)
  stable := by
    intro priority code
    refine filter_mergeSort ruleLe_trans ruleLe_total (fun a b ha hb => ?_) rules
    obtain ⟨hapriority, hacode⟩ := of_decide_eq_true ha
    obtain ⟨hbpriority, hbcode⟩ := of_decide_eq_true hb
    rw [ruleLe_iff, hapriority, hbpriority, hacode, hbcode]
    exact Or.inr ⟨rfl, String.le_refl code⟩

theorem ruleLe_antisymm {a b : Rule} (hab : ruleLe a b = true) (hba : ruleLe b a = true) :
    a.priority = b.priority ∧ a.code = b.code := by
  rcases (ruleLe_iff a b).mp hab with hlt | ⟨hpriority, hle⟩
  · rcases (ruleLe_iff b a).mp hba with hgt | ⟨heq, -⟩ <;> omega
  · rcases (ruleLe_iff b a).mp hba with hgt | ⟨-, hge⟩
    · omega
    · exact ⟨hpriority, String.le_antisymm hle hge⟩

/-- Sorted lists are told apart by the order of the rules that have one priority and one code. -/
theorem eq_of_filter_eq {xs ys : List Rule} (hxs : xs.Pairwise fun a b => ruleLe a b = true)
    (hys : ys.Pairwise fun a b => ruleLe a b = true) (hperm : xs.Perm ys)
    (hstable : ∀ priority code, (xs.filter fun r => r.priority = priority ∧ r.code = code) =
      ys.filter fun r => r.priority = priority ∧ r.code = code) : xs = ys := by
  induction xs generalizing ys with
  | nil => exact hperm.nil_eq
  | cons x xs ih =>
      cases ys with
      | nil => exact absurd hperm.symm.nil_eq (List.cons_ne_nil x xs).symm
      | cons y ys =>
          obtain ⟨hx, hxtail⟩ := List.pairwise_cons.mp hxs
          obtain ⟨hy, hytail⟩ := List.pairwise_cons.mp hys
          have hself (r : Rule) : ruleLe r r = true := (ruleLe_iff r r).mpr (Or.inr ⟨rfl, String.le_refl _⟩)
          have hle : ruleLe x y = true := by
            rcases List.mem_cons.mp (hperm.mem_iff.mpr List.mem_cons_self) with rfl | hmem
            · exact hself y
            · exact hx y hmem
          have hge : ruleLe y x = true := by
            rcases List.mem_cons.mp (hperm.mem_iff.mp List.mem_cons_self) with rfl | hmem
            · exact hself x
            · exact hy x hmem
          obtain ⟨hpriority, hcode⟩ := ruleLe_antisymm hle hge
          have hheads := hstable y.priority y.code
          rw [List.filter_cons, List.filter_cons, if_pos (decide_eq_true ⟨hpriority, hcode⟩),
            if_pos (decide_eq_true ⟨rfl, rfl⟩)] at hheads
          obtain ⟨rfl, -⟩ := List.cons.inj hheads
          refine congrArg (x :: ·) (ih hxtail hytail hperm.cons_inv fun priority code => ?_)
          have htails := hstable priority code
          rw [List.filter_cons, List.filter_cons] at htails
          split_ifs at htails
          · exact (List.cons.inj htails).2
          · exact htails

theorem Orders.unique {s t : RuleSnapshot} {rules : List Rule} (hs : s.Orders rules)
    (ht : t.Orders rules) : s = t := by
  have hrules : s.rules = t.rules :=
    eq_of_filter_eq ((sorted_iff _).mpr hs.sorted) ((sorted_iff _).mpr ht.sorted)
      (hs.perm.trans ht.perm.symm)
      fun priority code => (hs.stable priority code).trans (ht.stable priority code).symm
  cases s
  cases t
  exact congrArg RuleSnapshot.mk hrules

/-- A rule is the first that has a code. -/
def Finds (s : RuleSnapshot) (code : String) (rule : Rule) : Prop :=
  rule.code = code ∧ ∃ before after, s.rules = before ++ rule :: after ∧ ∀ r ∈ before, r.code ≠ code

theorem get?_eq_some_iff {s : RuleSnapshot} {code : String} {rule : Rule} :
    s.get? code = some rule ↔ s.Finds code rule := by
  simp [get?, List.find?_eq_some_iff_append, Finds]

end RuleSnapshot

/-! ### Answers of a repository -/

namespace RuleRepository

variable {σ : Type} (repository : RuleRepository σ)

/-- The repository has a rule for each of some codes when it is asked for them in order. -/
inductive Gets : σ → List String → List Rule → σ → Prop where
  | nil {world : σ} : Gets world [] [] world
  | cons {world next last : σ} {code : String} {codes : List String} {rule : Rule} {rules : List Rule}
      (first : (repository.get code).run.run world = (.ok rule, next))
      (rest : Gets next codes rules last) : Gets world (code :: codes) (rule :: rules) last

/-- The repository fails for one of some codes when it is asked for them in order. -/
inductive FailsToGet : σ → List String → ServiceError → σ → Prop where
  | here {world last : σ} {code : String} {codes : List String} {e : ServiceError}
      (failed : (repository.get code).run.run world = (.error e, last)) :
      FailsToGet world (code :: codes) e last
  | later {world next last : σ} {code : String} {codes : List String} {rule : Rule} {e : ServiceError}
      (first : (repository.get code).run.run world = (.ok rule, next))
      (rest : FailsToGet next codes e last) : FailsToGet world (code :: codes) e last

variable {repository}

theorem Gets.length_eq {world last : σ} {codes : List String} {rules : List Rule}
    (h : repository.Gets world codes rules last) : rules.length = codes.length := by
  induction h with
  | nil => rfl
  | cons _ _ ih => rw [List.length_cons, List.length_cons, ih]

theorem Gets.run_fetch {world last : σ} {codes : List String} {rules : List Rule}
    (h : repository.Gets world codes rules last) :
    (RuleRegistry.fetch repository codes).run.run world = (.ok rules, last) := by
  induction h with
  | nil => rfl
  | cons first _ ih =>
      rw [RuleRegistry.fetch, Step.run_bind, first]
      dsimp only
      rw [Step.run_bind, ih]
      rfl

theorem FailsToGet.run_fetch {world last : σ} {codes : List String} {e : ServiceError}
    (h : repository.FailsToGet world codes e last) :
    (RuleRegistry.fetch repository codes).run.run world = (.error e, last) := by
  induction h with
  | here failed => rw [RuleRegistry.fetch, Step.run_bind, failed]
  | later first _ ih =>
      rw [RuleRegistry.fetch, Step.run_bind, first]
      dsimp only
      rw [Step.run_bind, ih]

/-- Rules are got one after the other, up to the first failure. -/
theorem gets_or_failsToGet (repository : RuleRepository σ) (codes : List String) (world : σ) :
    (∃ rules last, repository.Gets world codes rules last) ∨
      ∃ e last, repository.FailsToGet world codes e last := by
  induction codes generalizing world with
  | nil => exact .inl ⟨[], world, .nil⟩
  | cons code codes ih =>
      rcases hget : (repository.get code).run.run world with ⟨e | rule, next⟩
      · exact .inr ⟨e, next, .here hget⟩
      · rcases ih next with ⟨rules, last, hgets⟩ | ⟨e, last, hfails⟩
        · exact .inl ⟨rule :: rules, last, .cons hget hgets⟩
        · exact .inr ⟨e, last, .later hget hfails⟩

end RuleRepository

namespace RuleRegistry

variable {σ : Type} (repository : RuleRepository σ)

/-! ### Refreshes -/

/-- What a refresh comes to, from one world to another: a new snapshot of the rules that were got, one
for each listed code, with their number, or a failure and the old snapshot. -/
inductive Refreshes (registry : RuleRegistry) (world : σ) :
    Except ServiceError ℕ → RuleRegistry → σ → Prop where
  | swapped {codes : List String} {rules : List Rule} {snapshot : RuleSnapshot} {next last : σ}
      (listed : repository.listCodes.run.run world = (.ok codes, next))
      (got : repository.Gets next codes rules last) (orders : snapshot.Orders rules)
      (counted : snapshot.rules.length = codes.length) :
      Refreshes registry world (.ok snapshot.rules.length) ⟨snapshot⟩ last
  | notListed {e : ServiceError} {last : σ}
      (failed : repository.listCodes.run.run world = (.error e, last)) :
      Refreshes registry world (.error e) registry last
  | notGot {codes : List String} {e : ServiceError} {next last : σ}
      (listed : repository.listCodes.run.run world = (.ok codes, next))
      (failed : repository.FailsToGet next codes e last) :
      Refreshes registry world (.error e) registry last

variable {repository} {registry : RuleRegistry} {world : σ}

theorem run_refresh_of_ok {snapshot : RuleSnapshot} {last : σ}
    (h : (take repository).run.run world = (.ok snapshot, last)) :
    (registry.refresh repository).run world = ((.ok snapshot.size, ⟨snapshot⟩), last) := by
  rw [refresh, StateT.run_bind, h]
  rfl

theorem run_refresh_of_error {e : ServiceError} {last : σ}
    (h : (take repository).run.run world = (.error e, last)) :
    (registry.refresh repository).run world = ((.error e, registry), last) := by
  rw [refresh, StateT.run_bind, h]
  rfl

theorem run_take_of_gets {codes : List String} {rules : List Rule} {next last : σ}
    (hlisted : repository.listCodes.run.run world = (.ok codes, next))
    (hgot : repository.Gets next codes rules last) :
    (take repository).run.run world = (.ok (.ofRules rules), last) := by
  rw [take, Step.run_bind, hlisted]
  dsimp only
  rw [Step.run_bind, hgot.run_fetch]
  rfl

/-- What a refresh comes to is what its run gives. -/
theorem Refreshes.run_eq {result : Except ServiceError ℕ} {registry' : RuleRegistry} {last : σ}
    (h : registry.Refreshes repository world result registry' last) :
    (registry.refresh repository).run world = ((result, registry'), last) := by
  cases h with
  | swapped listed got orders counted =>
      rw [run_refresh_of_ok (run_take_of_gets listed got), orders.unique (RuleSnapshot.orders_ofRules _)]
      rfl
  | notListed failed =>
      refine run_refresh_of_error ?_
      rw [take, Step.run_bind, failed]
  | notGot listed failed =>
      refine run_refresh_of_error ?_
      rw [take, Step.run_bind, listed]
      dsimp only
      rw [Step.run_bind, failed.run_fetch]

theorem exists_refreshes (repository : RuleRepository σ) (registry : RuleRegistry) (world : σ) :
    ∃ result registry' last, registry.Refreshes repository world result registry' last := by
  rcases hlist : repository.listCodes.run.run world with ⟨e | codes, next⟩
  · exact ⟨_, _, _, .notListed hlist⟩
  · rcases repository.gets_or_failsToGet codes next with ⟨rules, last, hgets⟩ | ⟨e, last, hfails⟩
    · have hcounted := (RuleSnapshot.perm_ofRules rules).length_eq.trans hgets.length_eq
      exact ⟨_, _, _, .swapped hlist hgets (RuleSnapshot.orders_ofRules rules) hcounted⟩
    · exact ⟨_, _, _, .notGot hlist hfails⟩

/-- A refresh swaps the whole snapshot or nothing. -/
theorem refreshes_iff {result : Except ServiceError ℕ} {registry' : RuleRegistry} {last : σ} :
    registry.Refreshes repository world result registry' last ↔
      (registry.refresh repository).run world = ((result, registry'), last) := by
  refine ⟨Refreshes.run_eq, fun hrun => ?_⟩
  obtain ⟨result₁, registry₁, last₁, h⟩ := exists_refreshes repository registry world
  rw [h.run_eq] at hrun
  cases hrun
  exact h

/-! ### Uses of a registry -/

/-- A registry over time: the world with its repository, the registry, and the snapshots that were
given out so far. -/
structure Session (σ : Type) where
  world : σ
  registry : RuleRegistry
  held : List RuleSnapshot := []

/-- What may be done with a registry; the world may also change by itself. -/
inductive Use (σ : Type) where
  | change (world : σ)
  | refresh
  | snapshot
  | get (code : String)
  | get? (code : String)

/-- What a use gives. -/
inductive Outcome where
  | nothing
  | count (result : Except ServiceError ℕ)
  | snapshot (s : RuleSnapshot)
  | rule (result : Except ServiceError Rule)
  | rule? (found : Option Rule)

/-- A use with the sessions before and after it. -/
structure Served (σ : Type) where
  before : Session σ
  use : Use σ
  outcome : Outcome
  after : Session σ

namespace Served

/-- The snapshot that was given out. -/
def given? (x : Served σ) : Option RuleSnapshot :=
  match x.outcome with
  | .snapshot s => some s
  | _ => none

/-- The snapshot that was swapped in. -/
def swappedIn? (x : Served σ) : Option RuleSnapshot :=
  match x.outcome with
  | .count (.ok _) => some x.after.registry.snapshot
  | _ => none

end Served

namespace Session

variable (repository) (s : Session σ)

/-- One use of a registry. -/
def serve : Use σ → Outcome × Session σ
  | .change world => (.nothing, { s with world })
  | .refresh =>
      let ((result, registry), world) := (s.registry.refresh repository).run s.world
      (.count result, { s with registry, world })
  | .snapshot => (.snapshot s.registry.snapshot, { s with held := s.held ++ [s.registry.snapshot] })
  | .get code => (.rule (s.registry.get code), s)
  | .get? code => (.rule? (s.registry.get? code), s)

/-- Uses one after the other, with a log; also the session after them. -/
def run (s : Session σ) : List (Use σ) → List (Served σ) × Session σ
  | [] => ([], s)
  | use :: uses =>
      let (outcome, next) := s.serve repository use
      let (log, last) := run next uses
      (⟨s, use, outcome, next⟩ :: log, last)

/-- What one use comes to.  Only a refresh changes the registry; both look-ups go by the current
snapshot. -/
inductive Serves (s : Session σ) : Use σ → Outcome → Session σ → Prop where
  | changed (world : σ) : Serves s (.change world) .nothing { s with world }
  | refreshed {result : Except ServiceError ℕ} {registry : RuleRegistry} {world : σ}
      (refreshes : s.registry.Refreshes repository s.world result registry world) :
      Serves s .refresh (.count result) { s with registry, world }
  | given : Serves s .snapshot (.snapshot s.registry.snapshot)
      { s with held := s.held ++ [s.registry.snapshot] }
  | got {code : String} {rule : Rule} (finds : s.registry.snapshot.Finds code rule) :
      Serves s (.get code) (.rule (.ok rule)) s
  | notGot {code : String} (missing : ∀ r ∈ s.registry.snapshot.rules, r.code ≠ code) :
      Serves s (.get code) (.rule (.error (.ruleNotFound code))) s
  | found {code : String} {rule : Rule} (finds : s.registry.snapshot.Finds code rule) :
      Serves s (.get? code) (.rule? (some rule)) s
  | notFound {code : String} (missing : ∀ r ∈ s.registry.snapshot.rules, r.code ≠ code) :
      Serves s (.get? code) (.rule? none) s

/-- What the uses of a registry come to.  Each is served in the session that the one before has left.
In the end the callers hold every snapshot that they were given, as it was then, and the current
snapshot is the one that was swapped in last, or that of the start. -/
structure Logs (uses : List (Use σ)) (log : List (Served σ)) (last : Session σ) : Prop where
  uses : log.map (·.use) = uses
  chained : log.map (·.before) ++ [last] = s :: log.map (·.after)
  served : ∀ x ∈ log, x.before.Serves repository x.use x.outcome x.after
  held : last.held = s.held ++ log.filterMap (·.given?)
  current : last.registry.snapshot = (log.filterMap (·.swappedIn?)).getLastD s.registry.snapshot

variable {repository s}

theorem Serves.serve_eq {use : Use σ} {outcome : Outcome} {after : Session σ}
    (h : s.Serves repository use outcome after) : s.serve repository use = (outcome, after) := by
  cases h with
  | changed world => rfl
  | refreshed refreshes => rw [serve, refreshes.run_eq]
  | given => rfl
  | got finds =>
      have hget : s.registry.get? _ = some _ := RuleSnapshot.get?_eq_some_iff.mpr finds
      rw [serve, get, hget]
  | notGot missing => rw [serve, get_eq_error missing]
  | found finds =>
      have hget : s.registry.get? _ = some _ := RuleSnapshot.get?_eq_some_iff.mpr finds
      rw [serve, hget]
  | notFound missing =>
      have hget : s.registry.get? _ = none := RuleSnapshot.get?_eq_none_iff.mpr missing
      rw [serve, hget]

theorem exists_serves (repository : RuleRepository σ) (s : Session σ) (use : Use σ) :
    ∃ outcome after, s.Serves repository use outcome after := by
  cases use with
  | change world => exact ⟨_, _, .changed world⟩
  | refresh =>
      obtain ⟨result, registry, world, h⟩ := exists_refreshes repository s.registry s.world
      exact ⟨_, _, .refreshed h⟩
  | snapshot => exact ⟨_, _, .given⟩
  | get code =>
      cases hget : s.registry.snapshot.get? code with
      | none => exact ⟨_, _, .notGot (RuleSnapshot.get?_eq_none_iff.mp hget)⟩
      | some rule => exact ⟨_, _, .got (RuleSnapshot.get?_eq_some_iff.mp hget)⟩
  | get? code =>
      cases hget : s.registry.snapshot.get? code with
      | none => exact ⟨_, _, .notFound (RuleSnapshot.get?_eq_none_iff.mp hget)⟩
      | some rule => exact ⟨_, _, .found (RuleSnapshot.get?_eq_some_iff.mp hget)⟩

/-- One use comes to what its relation says, and to nothing else. -/
theorem serves_iff {use : Use σ} {outcome : Outcome} {after : Session σ} :
    s.Serves repository use outcome after ↔ s.serve repository use = (outcome, after) := by
  refine ⟨Serves.serve_eq, fun hserve => ?_⟩
  obtain ⟨outcome₁, after₁, h⟩ := exists_serves repository s use
  rw [h.serve_eq] at hserve
  cases hserve
  exact h

/-- A use adds what it gives out to what is held, and what it swaps in is current. -/
theorem Serves.changes {use : Use σ} {outcome : Outcome} {after : Session σ}
    (h : s.Serves repository use outcome after) :
    after.held = s.held ++ (Served.given? ⟨s, use, outcome, after⟩).toList ∧
      after.registry.snapshot =
        (Served.swappedIn? ⟨s, use, outcome, after⟩).getD s.registry.snapshot := by
  cases h with
  | refreshed refreshes =>
      refine ⟨(List.append_nil _).symm, ?_⟩
      cases refreshes <;> rfl
  | given => exact ⟨rfl, rfl⟩
  | _ => exact ⟨(List.append_nil _).symm, rfl⟩

theorem Logs.cons {use : Use σ} {outcome : Outcome} {next last : Session σ} {uses : List (Use σ)}
    {log : List (Served σ)} (h : s.Serves repository use outcome next)
    (hrest : next.Logs repository uses log last) :
    s.Logs repository (use :: uses) (⟨s, use, outcome, next⟩ :: log) last := by
  obtain ⟨hheld, hcurrent⟩ := h.changes
  constructor
  case uses => rw [List.map_cons, hrest.uses]
  case chained => rw [List.map_cons, List.map_cons, List.cons_append, hrest.chained]
  case served => exact List.forall_mem_cons.mpr ⟨h, hrest.served⟩
  case held =>
    rw [hrest.held, hheld, List.append_assoc, List.filterMap_cons]
    cases Served.given? ⟨s, use, outcome, next⟩ <;> rfl
  case current =>
    rw [hrest.current, hcurrent, List.filterMap_cons]
    cases Served.swappedIn? ⟨s, use, outcome, next⟩ with
    | none => rfl
    | some snapshot => exact (List.getLastD_cons ..).symm

/-- A registry swaps whole snapshots or nothing, however its repository answers and whatever is done
with it.  Each use comes to what `Serves` says and to nothing else, and so does each of a run: after a
refresh the current snapshot is that of the rules that were got for all listed codes, in order, with
their number as the answer, or the one before, if the listing or a look-up fails.  Snapshots that were
given out stay as they are, and codes are looked up in the current one. -/
theorem run_serves (repository : RuleRepository σ) (s : Session σ) (uses : List (Use σ)) :
    (∀ (t : Session σ) use outcome after,
      t.Serves repository use outcome after ↔ t.serve repository use = (outcome, after)) ∧
    s.Logs repository uses (s.run repository uses).1 (s.run repository uses).2 := by
  refine ⟨fun t use outcome after => serves_iff, ?_⟩
  induction uses generalizing s with
  | nil => exact ⟨rfl, rfl, List.forall_mem_nil _, (List.append_nil _).symm, rfl⟩
  | cons use uses ih =>
      exact .cons (serves_iff.mpr rfl) (ih (s.serve repository use).2)

end Session
end RuleRegistry
end Lookalike
