import Lookalike.Proofs.Registries
import Lookalike.Proofs.Steps
import Lookalike.Service

/-! # Strict and lenient sweeps

A sweep evaluates each rule as if it were alone and makes a report of each result; the failure mode
only says what it makes of a failure (`FailureMode.record`).  `SweepsBy` says what the sweeps of both
modes come to, given what each rule comes to alone.

Main statement: `findDuplicates_sweepsBy`.  For parties that answer by what they are asked the lenient
sweep reports every rule, and the strict one says the same or ends with the first failure. -/

namespace Lookalike

/-! ### Order of evaluation -/

/-- Rules by priority; those of one priority stay as they were given. -/
structure ByPriority (rules ordered : List Rule) : Prop where
  perm : ordered.Perm rules
  sorted : ordered.Pairwise fun a b => a.priority ≤ b.priority
  stable : ∀ p, (ordered.filter fun r => r.priority = p) = rules.filter fun r => r.priority = p

namespace DuplicateService

theorem sweepLe_iff (a b : Rule) : sweepLe a b = true ↔ a.priority ≤ b.priority := by
  rw [sweepLe, decide_eq_true_iff]

theorem sweepLe_trans (a b c : Rule) (hab : sweepLe a b = true) (hbc : sweepLe b c = true) :
    sweepLe a c = true := by
  rw [sweepLe_iff] at hab hbc ⊢
  exact Int.le_trans hab hbc

theorem sweepLe_total (a b : Rule) : (sweepLe a b || sweepLe b a) = true := by
  rw [Bool.or_eq_true, sweepLe_iff, sweepLe_iff]
  exact Int.le_total a.priority b.priority

theorem sorted_mergeSort_sweepLe (rules : List Rule) :
    (rules.mergeSort sweepLe).Pairwise fun a b => a.priority ≤ b.priority :=
  (List.pairwise_mergeSort sweepLe_trans sweepLe_total rules).imp fun h => (sweepLe_iff _ _).mp h

theorem byPriority_mergeSort (rules : List Rule) : ByPriority rules (rules.mergeSort sweepLe) := by
  refine ⟨List.mergeSort_perm rules sweepLe, sorted_mergeSort_sweepLe rules, fun p => ?_⟩
  refine filter_mergeSort sweepLe_trans sweepLe_total (fun a b ha hb => ?_) rules
  rw [sweepLe_iff, of_decide_eq_true ha, of_decide_eq_true hb]

/-- Rules of different priorities have one order, however they are given. -/
theorem mergeSort_eq_of_perm {rules rules' : List Rule} (hperm : rules'.Perm rules)
    (hdistinct : (rules.map (·.priority)).Nodup) :
    rules'.mergeSort sweepLe = rules.mergeSort sweepLe := by
  refine List.Perm.eq_of_pairwise (fun a b ha hb hab hba => ?_)
    (sorted_mergeSort_sweepLe rules') (sorted_mergeSort_sweepLe rules)
    ((List.mergeSort_perm rules' _).trans (hperm.trans (List.mergeSort_perm rules _).symm))
  have ha : a ∈ rules := hperm.mem_iff.mp (List.mem_mergeSort.mp ha)
  have hb : b ∈ rules := List.mem_mergeSort.mp hb
  exact List.inj_on_of_nodup_map hdistinct ha hb (Int.le_antisymm hab hba)

end DuplicateService

/-! ### Reports of single rules -/

/-- What a sweep makes of the result of a rule: a failure ends a strict sweep. -/
def FailureMode.record : FailureMode → Except ServiceError ResultSet → Except ServiceError RuleOutcome
  | _, .ok results => .ok (.found results)
  | .strict, .error e => .error e
  | .lenient, .error e => .ok (.failed e.message)

/-- The report of a rule with an outcome. -/
def Rule.report (rule : Rule) (outcome : RuleOutcome) : RuleReport :=
  ⟨rule.code, rule.priority, outcome⟩

/-- What a report says of the result of a rule. -/
def RuleOutcome.ofResult : Except ServiceError ResultSet → RuleOutcome
  | .ok results => .found results
  | .error e => .failed e.message

namespace DuplicateService

variable {σ : Type} (s : DuplicateService σ)

/-- What evaluating a rule comes to in a sweep. -/
def sweepRule (o : Observation) (base : String) (context : RequestContext) (rule : Rule) :
    Step σ RuleReport :=
  ExceptT.mk do
    let result ← (s.evaluateRule rule o (some base) context 0).run
    pure ((s.failureMode.record result).map rule.report)

theorem run_sweepRule (o : Observation) (base : String) (context : RequestContext) (rule : Rule)
    (world : σ) :
    (s.sweepRule o base context rule).run.run world =
      ((s.failureMode.record
          ((s.evaluateRule rule o (some base) context 0).run.run world).1).map rule.report,
        ((s.evaluateRule rule o (some base) context 0).run.run world).2) := rfl

theorem sweep_eq_mapM (o : Observation) (base : String) (context : RequestContext)
    (rules : List Rule) :
    s.sweep o base context rules = rules.mapM (s.sweepRule o base context) := by
  induction rules with
  | nil => rfl
  | cons rule rules ih =>
      rw [sweep, ih, List.mapM_cons]
      refine Step.ext fun world => ?_
      rw [Step.run_bind, Step.run_bind, run_sweepRule, ExceptT.run_mk, StateT.run_bind]
      rcases (s.evaluateRule rule o (some base) context 0).run.run world with ⟨e | results, next⟩
      · cases s.failureMode
        · rfl
        · rfl
      · rfl

end DuplicateService

/-! ### Results in order -/

section mapM

variable {ε α β : Type} {f : α → Except ε β}

theorem mapM_eq_ok_of_forall {g : α → β} {xs : List α} (h : ∀ x ∈ xs, f x = .ok (g x)) :
    xs.mapM f = .ok (xs.map g) := by
  induction xs with
  | nil => rfl
  | cons x xs ih =>
      rw [List.mapM_cons, h x List.mem_cons_self, ih fun y hy => h y (List.mem_cons_of_mem x hy)]
      rfl

theorem mapM_cons_eq_error_iff {x : α} {xs : List α} {e : ε} :
    (x :: xs).mapM f = .error e ↔
      f x = .error e ∨ ∃ b, f x = .ok b ∧ xs.mapM f = .error e := by
  rw [List.mapM_cons]
  cases f x with
  | error e' => simp [bind, Except.bind]
  | ok b => cases xs.mapM f <;> simp [bind, Except.bind, pure, Except.pure]

theorem exists_mapM_cons_eq_ok_iff {x : α} {xs : List α} :
    (∃ bs, (x :: xs).mapM f = .ok bs) ↔
      (∃ b, f x = .ok b) ∧ ∃ bs, xs.mapM f = .ok bs := by
  rw [List.mapM_cons]
  cases f x with
  | error e' => simp [bind, Except.bind]
  | ok b => cases xs.mapM f <;> simp [bind, Except.bind, pure, Except.pure]

/-- The failure of some steps is that of the first of them that fails. -/
theorem mapM_eq_error_iff {xs : List α} {e : ε} :
    xs.mapM f = .error e ↔ ∃ before x after, xs = before ++ x :: after ∧
      (∀ y ∈ before, ∃ b, f y = .ok b) ∧ f x = .error e := by
  induction xs with
  | nil =>
      constructor
      · intro h
        cases h
      · rintro ⟨before, x, after, h, -⟩
        cases before <;> cases h
  | cons x xs ih =>
      rw [mapM_cons_eq_error_iff, ih]
      constructor
      · rintro (hx | ⟨b, hx, before, y, after, rfl, hbefore, hy⟩)
        · exact ⟨[], x, xs, rfl, fun y hy => absurd hy List.not_mem_nil, hx⟩
        · exact ⟨x :: before, y, after, rfl, List.forall_mem_cons.mpr ⟨⟨b, hx⟩, hbefore⟩, hy⟩
      · rintro ⟨before, y, after, hsplit, hbefore, hy⟩
        cases before with
        | nil =>
            obtain ⟨rfl, -⟩ := List.cons.inj hsplit
            exact Or.inl hy
        | cons z before =>
            obtain ⟨rfl, rfl⟩ := List.cons.inj hsplit
            obtain ⟨⟨b, hb⟩, hbefore⟩ := List.forall_mem_cons.mp hbefore
            exact Or.inr ⟨b, hb, before, y, after, rfl, hbefore, hy⟩

theorem exists_mapM_eq_ok_iff {xs : List α} :
    (∃ bs, xs.mapM f = .ok bs) ↔ ∀ x ∈ xs, ∃ b, f x = .ok b := by
  induction xs with
  | nil => exact ⟨fun _ x hx => absurd hx List.not_mem_nil, fun _ => ⟨[], rfl⟩⟩
  | cons x xs ih => rw [exists_mapM_cons_eq_ok_iff, List.forall_mem_cons, ih]

end mapM

/-! ### What sweeps come to -/

/-- A question to one of the parties of a service. -/
inductive Question where
  | search (searches : List Descriptor) (window : Window)
  | excluded (candidate base : String)
  | merged (candidate : String)

/-- The report on rules with the results that they come to. -/
def DuplicateReport.ofResults (results : Rule → Except ServiceError ResultSet)
    (ordered : List Rule) : DuplicateReport :=
  ⟨ordered.map fun rule => rule.report (.ofResult (results rule))⟩

namespace DuplicateService

variable {σ : Type} (s : DuplicateService σ)

/-- The service with another failure mode. -/
def inMode (mode : FailureMode) : DuplicateService σ := { s with failureMode := mode }

/-- An answer of a party with a note of the question. -/
def noting {α : Type} (question : Question) (answer : StateM σ α) :
    StateM (σ × List Question) α := fun (world, notes) =>
  let (a, next) := answer.run world
  (a, (next, notes ++ [question]))

/-- The service with notes of what its parties are asked, in order. -/
def noted : DuplicateService (σ × List Question) where
  matching := s.matching
  failureMode := s.failureMode
  options := s.options
  catalog := s.catalog
  backend.search ds w := noting (.search ds w) (s.backend.search ds w)
  identityState.isExcluded candidate base :=
    noting (.excluded candidate base) (s.identityState.isExcluded candidate base)
  identityState.isMerged candidate :=
    noting (.merged candidate) (s.identityState.isMerged candidate)
  registry := s.registry

/-- The evaluation of a rule for a request, by itself. -/
def evaluateFor (request : SweepRequest) (rule : Rule) : Step σ ResultSet :=
  s.evaluateRule rule (s.observe request.values) (some request.baseIdentityKey)
    { sourceFields := request.attributesFilter } 0

/-- What the sweeps of a request come to, given the result of each rule by itself and how the strict
sweep ends.  The lenient sweep succeeds and reports each rule once, in a stable order by priority, with
the outcome that the rule has by itself.  The strict one succeeds exactly if all rules do, and then says
the same; otherwise it fails as the first rule in that order that fails.  A rule that cannot apply has
no matches and asks the parties nothing.  Where the priorities differ, the order in which the rules are
given makes no difference. -/
structure SweepsBy (request : SweepRequest) (rules ordered : List Rule)
    (results : Rule → Except ServiceError ResultSet)
    (ending : Except ServiceError DuplicateReport) : Prop where
  order : ByPriority rules ordered
  evaluated : ∀ rule, (s.evaluateFor request rule).Yields (results rule)
  lenient : ((s.inMode .lenient).findDuplicates request rules).Yields
    (.ok (.ofResults results ordered))
  strict : ((s.inMode .strict).findDuplicates request rules).Yields ending
  ok_iff : (∃ report, ending = .ok report) ↔ ∀ rule ∈ rules, ∃ found, results rule = .ok found
  report : ∀ report, ending = .ok report → report = .ofResults results ordered
  error_iff : ∀ e, ending = .error e ↔ ∃ before rule after, ordered = before ++ rule :: after ∧
    (∀ r ∈ before, ∃ found, results r = .ok found) ∧ results rule = .error e
  inapplicable : ∀ rule, rule.canApply (s.observe request.values) = false →
    results rule = .ok .empty ∧ ∀ world notes,
      (s.noted.evaluateFor request rule).run.run (world, notes) = (.ok .empty, (world, notes))
  unordered : (rules.map (·.priority)).Nodup → ∀ rules', rules'.Perm rules → ∀ mode,
    (s.inMode mode).findDuplicates request rules' = (s.inMode mode).findDuplicates request rules

variable {s} {reply : List Descriptor → Window → Except BackendError (List SearchPage)}
  {excluded : String → String → Except StateError Bool} {merged : String → Except StateError Bool}

theorem run_steady (hbackend : s.backend.AnswersBy reply)
    (hstate : s.identityState.AnswersBy excluded merged) (ds : List Descriptor)
    (base ruleCode : Option String) (maxResults : UInt32) :
    (s.run ds base ruleCode maxResults).Steady :=
  (SearchBackend.execute_steady ds hbackend _ _).bind fun results =>
    results.survivors_steady hstate base ruleCode

theorem evaluateRule_steady (hbackend : s.backend.AnswersBy reply)
    (hstate : s.identityState.AnswersBy excluded merged) (rule : Rule) (o : Observation)
    (base : Option String) (context : RequestContext) (maxResults : UInt32) :
    (s.evaluateRule rule o base context maxResults).Steady := by
  unfold evaluateRule
  split_ifs
  · exact (Step.Steady.ofExcept _ _).bind fun ds => run_steady hbackend hstate ds _ _ _
  · exact .pure _

theorem evaluateFor_of_not_canApply (s : DuplicateService σ) {request : SweepRequest} {rule : Rule}
    (h : rule.canApply (s.observe request.values) = false) :
    s.evaluateFor request rule = pure .empty := by
  rw [evaluateFor, evaluateRule, if_neg (Bool.not_eq_true _ ▸ h)]

/-- A sweep makes a report of what each rule comes to by itself, in order. -/
theorem findDuplicates_yields {request : SweepRequest}
    {results : Rule → Except ServiceError ResultSet}
    (hresults : ∀ rule, (s.evaluateFor request rule).Yields (results rule)) (mode : FailureMode)
    (rules : List Rule) :
    ((s.inMode mode).findDuplicates request rules).Yields
      (((rules.mergeSort sweepLe).mapM fun rule =>
        (mode.record (results rule)).map rule.report).map DuplicateReport.mk) := by
  have hrule (rule : Rule) : ((s.inMode mode).sweepRule (s.observe request.values)
      request.baseIdentityKey { sourceFields := request.attributesFilter } rule).Yields
        ((mode.record (results rule)).map rule.report) := by
    intro world
    rw [run_sweepRule]
    exact congrArg (fun result => (mode.record result).map rule.report) (hresults rule world)
  rw [findDuplicates, sweep_eq_mapM]
  exact (Step.Yields.mapM hrule (rules.mergeSort sweepLe)).map DuplicateReport.mk

/-! ### Modes -/

theorem record_lenient (result : Except ServiceError ResultSet) :
    FailureMode.lenient.record result = .ok (.ofResult result) := by
  cases result <;> rfl

theorem record_of_ok {mode : FailureMode} {result : Except ServiceError ResultSet}
    {found : ResultSet} (h : result = .ok found) : mode.record result = .ok (.ofResult result) := by
  subst h
  cases mode <;> rfl

theorem map_record_strict_eq_error_iff {result : Except ServiceError ResultSet} {rule : Rule}
    {e : ServiceError} :
    (FailureMode.strict.record result).map rule.report = .error e ↔ result = .error e := by
  cases result <;> simp [FailureMode.record, Except.map]

theorem exists_map_record_strict_eq_ok_iff {result : Except ServiceError ResultSet} {rule : Rule} :
    (∃ report, (FailureMode.strict.record result).map rule.report = .ok report) ↔
      ∃ found, result = .ok found := by
  cases result <;> simp [FailureMode.record, Except.map]

section Modes

variable (results : Rule → Except ServiceError ResultSet) (ordered : List Rule)

/-- The reports of rules in order with the results that they come to, or the failure that ends the
sweep. -/
def sweepResults (mode : FailureMode) : Except ServiceError DuplicateReport :=
  (ordered.mapM fun rule => (mode.record (results rule)).map rule.report).map DuplicateReport.mk

theorem sweepResults_lenient :
    sweepResults results ordered .lenient = .ok (.ofResults results ordered) := by
  rw [sweepResults, mapM_eq_ok_of_forall fun rule _ => by rw [record_lenient]; rfl]
  rfl

theorem exists_sweepResults_strict_iff :
    (∃ report, sweepResults results ordered .strict = .ok report) ↔
      ∀ rule ∈ ordered, ∃ found, results rule = .ok found := by
  have hmap {x : Except ServiceError (List RuleReport)} :
      (∃ report, x.map DuplicateReport.mk = .ok report) ↔ ∃ reports, x = .ok reports := by
    cases x <;> simp [Except.map]
  simp only [sweepResults, hmap, exists_mapM_eq_ok_iff, exists_map_record_strict_eq_ok_iff]

/-- Where no rule fails, the mode makes no difference. -/
theorem sweepResults_of_ok (mode : FailureMode)
    (h : ∀ rule ∈ ordered, ∃ found, results rule = .ok found) :
    sweepResults results ordered mode = .ok (.ofResults results ordered) := by
  have hrule : ∀ rule ∈ ordered, (mode.record (results rule)).map rule.report =
      .ok (rule.report (.ofResult (results rule))) := by
    intro rule hrule
    obtain ⟨found, hfound⟩ := h rule hrule
    rw [record_of_ok hfound]
    rfl
  rw [sweepResults, mapM_eq_ok_of_forall hrule]
  rfl

theorem sweepResults_strict_eq_error_iff (e : ServiceError) :
    sweepResults results ordered .strict = .error e ↔ ∃ before rule after,
      ordered = before ++ rule :: after ∧ (∀ r ∈ before, ∃ found, results r = .ok found) ∧
        results rule = .error e := by
  have hmap {x : Except ServiceError (List RuleReport)} :
      x.map DuplicateReport.mk = .error e ↔ x = .error e := by
    cases x <;> simp [Except.map]
  simp only [sweepResults, hmap, mapM_eq_error_iff, map_record_strict_eq_error_iff,
    exists_map_record_strict_eq_ok_iff]

end Modes

/-- Every rule comes to something by itself, and one that cannot apply to no matches. -/
theorem exists_evaluateFor_yields (hbackend : s.backend.AnswersBy reply)
    (hstate : s.identityState.AnswersBy excluded merged) (request : SweepRequest) (rule : Rule) :
    ∃ result, (s.evaluateFor request rule).Yields result ∧
      (rule.canApply (s.observe request.values) = false → result = .ok .empty) := by
  cases happlies : rule.canApply (s.observe request.values) with
  | false =>
      refine ⟨.ok .empty, ?_, fun _ => rfl⟩
      rw [s.evaluateFor_of_not_canApply happlies]
      exact .pure _
  | true =>
      obtain ⟨result, hresult⟩ := evaluateRule_steady hbackend hstate rule
        (s.observe request.values) (some request.baseIdentityKey)
        { sourceFields := request.attributesFilter } 0
      exact ⟨result, hresult, nofun⟩

/-- For parties that answer by what they are asked, the sweeps of both modes come to what the rules come
to by themselves. -/
theorem findDuplicates_sweepsBy (hbackend : s.backend.AnswersBy reply)
    (hstate : s.identityState.AnswersBy excluded merged) (request : SweepRequest)
    (rules : List Rule) :
    ∃ ordered results ending, s.SweepsBy request rules ordered results ending := by
  choose results hresults hnone using exists_evaluateFor_yields hbackend hstate request
  generalize hordered : rules.mergeSort sweepLe = ordered
  have horder : ByPriority rules ordered := hordered ▸ byPriority_mergeSort rules
  have hsweep (mode : FailureMode) : ((s.inMode mode).findDuplicates request rules).Yields
      (sweepResults results ordered mode) := hordered ▸ findDuplicates_yields hresults mode rules
  have hstrict := exists_sweepResults_strict_iff results ordered
  refine ⟨ordered, results, sweepResults results ordered .strict, ?_⟩
  constructor
  case order => exact horder
  case evaluated => exact hresults
  case lenient =>
    rw [← sweepResults_lenient]
    exact hsweep .lenient
  case strict => exact hsweep .strict
  case ok_iff =>
    rw [hstrict]
    simp only [horder.perm.mem_iff]
  case report =>
    intro report hreport
    rw [sweepResults_of_ok results ordered .strict (hstrict.mp ⟨report, hreport⟩)] at hreport
    injection hreport with hreport
    exact hreport.symm
  case error_iff => exact sweepResults_strict_eq_error_iff results ordered
  case inapplicable =>
    intro rule hrule
    refine ⟨hnone rule hrule, ?_⟩
    intro world notes
    rw [s.noted.evaluateFor_of_not_canApply hrule]
    rfl
  case unordered =>
    intro hdistinct rules' hperm mode
    rw [findDuplicates, findDuplicates, mergeSort_eq_of_perm hperm hdistinct]

/-- A service of stand-ins for the attributes of a person, with the usual settings. -/
def standIn (b : ScriptedBackend) (m : MemoryState) :
    DuplicateService (List (List Descriptor × Window)) :=
  ofParts {} CatalogTable.person.catalog .empty b.backend (m.identityState _)

/-- Four rules of which two share a priority, one has more attributes to agree than there are, and one
cannot apply. -/
def mixedRules : List Rule :=
  [{ code := "mail", priority := 2, checkedAttributes := [⟨"email", none⟩], nbEqualAttributes := 1 },
    { code := "both", priority := 1, checkedAttributes := [⟨"email", none⟩, ⟨"firstName", none⟩],
      nbFilledAttributes := 1, nbEqualAttributes := 2 },
    { code := "none", priority := 3 },
    { code := "born", priority := 1, checkedAttributes := [⟨"birthDate", none⟩],
      nbEqualAttributes := 1 }]

/-- The sweeps of mixed rules by stand-ins. -/
theorem findDuplicates_sweepsBy_standIn : ∃ ordered results ending,
    (standIn { unmarked := [("k", .zero)] } { merged := ["k"] }).SweepsBy
      { values := [("email", "a@b"), ("birthDate", "1970")], baseIdentityKey := "l" } mixedRules
      ordered results ending :=
  findDuplicates_sweepsBy (ScriptedBackend.answersBy rfl rfl) (MemoryState.answersBy _ _) _ _

end DuplicateService

end Lookalike
