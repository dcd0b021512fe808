import Lookalike.Proofs.CleanReports

/-! # What the filter does

The filter looks up every candidate but the base identity, in the order of the keys.  `Judged` says that
the look-ups of a candidate succeed and `FailsWith` that one of them fails; `verdict` is what they come to.
If all candidates are judged, the filter adds those that survive to the empty set one after the other
(`addSurvivors_of_judged`), and otherwise it ends with the first failure (`addSurvivors_of_failed`).  A set
of survivors has the same survivors again, since they are added as they were before.

Main statement: `survivors_exact`. -/

namespace Lookalike

variable {σ : Type} {excluded : String → String → Except StateError Bool}
  {merged : String → Except StateError Bool} {base : Option String} {key : String}

/-! ### Look-ups -/

/-- The look-ups of a candidate succeed: that of an exclusion, if there is a base identity, and that of a
merge, unless the candidate is excluded. -/
structure Judged (excluded : String → String → Except StateError Bool)
    (merged : String → Except StateError Bool) (base : Option String) (key : String) : Prop where
  exclusion : ∀ b ∈ base, ∃ answer, excluded key b = .ok answer
  merge : (∀ b ∈ base, excluded key b ≠ .ok true) → ∃ answer, merged key = .ok answer

/-- One of the look-ups of a candidate fails: that of an exclusion, or that of a merge if the candidate is
not excluded. -/
inductive FailsWith (excluded : String → String → Except StateError Bool)
    (merged : String → Except StateError Bool) (base : Option String) (key : String) :
    StateError → Prop
  | exclusion {b : String} {e : StateError} (hbase : base = some b) (h : excluded key b = .error e) :
      FailsWith excluded merged base key e
  | merge {e : StateError} (hexcluded : ∀ b ∈ base, excluded key b = .ok false)
      (h : merged key = .error e) : FailsWith excluded merged base key e

section verdict

theorem judged_some_iff {b : String} :
    Judged excluded merged (some b) key ↔
      excluded key b = .ok true ∨ excluded key b = .ok false ∧ ∃ answer, merged key = .ok answer := by
  constructor
  · rintro ⟨hexcluded, hmerged⟩
    obtain ⟨answer, hanswer⟩ := hexcluded b rfl
    cases answer with
    | true => exact Or.inl hanswer
    | false => exact Or.inr ⟨hanswer, hmerged fun c hc => by
        rw [← Option.some.inj hc, hanswer]
        simp⟩
  · rintro (hanswer | ⟨hanswer, hmerged⟩)
    · exact ⟨fun c hc => ⟨true, Option.some.inj hc ▸ hanswer⟩, fun hnot => absurd hanswer (hnot b rfl)⟩
    · exact ⟨fun c hc => ⟨false, Option.some.inj hc ▸ hanswer⟩, fun _ => hmerged⟩

theorem failsWith_some_iff {b : String} {e : StateError} :
    FailsWith excluded merged (some b) key e ↔
      excluded key b = .error e ∨ excluded key b = .ok false ∧ merged key = .error e := by
  constructor
  · rintro (⟨hbase, h⟩ | ⟨hexcluded, h⟩)
    · exact Or.inl (Option.some.inj hbase ▸ h)
    · exact Or.inr ⟨hexcluded b rfl, h⟩
  · rintro (h | ⟨hexcluded, h⟩)
    · exact .exclusion rfl h
    · exact .merge (fun c hc => Option.some.inj hc ▸ hexcluded) h

theorem verdict_of_base (h : base = some key) : verdict excluded merged base key = .ok true := by
  rw [h, verdict, if_pos rfl]

theorem exists_verdict_iff (h : base ≠ some key) :
    (∃ dropped, verdict excluded merged base key = .ok dropped) ↔ Judged excluded merged base key := by
  cases base with
  | none => exact ⟨fun hanswer => ⟨nofun, fun _ => hanswer⟩, fun hjudged => hjudged.merge nofun⟩
  | some b =>
      have hkey : key ≠ b := fun heq => h (heq ▸ rfl)
      rw [judged_some_iff, verdict, if_neg hkey]
      cases excluded key b with
      | error e => simp
      | ok answer => cases answer <;> simp

theorem verdict_eq_error_iff (h : base ≠ some key) {e : StateError} :
    verdict excluded merged base key = .error e ↔ FailsWith excluded merged base key e := by
  cases base with
  | none =>
      refine ⟨fun hfailed => .merge nofun hfailed, ?_⟩
      rintro (⟨hbase, -⟩ | ⟨-, hfailed⟩)
      · cases hbase
      · exact hfailed
  | some b =>
      have hkey : key ≠ b := fun heq => h (heq ▸ rfl)
      rw [failsWith_some_iff, verdict, if_neg hkey]
      cases excluded key b with
      | error e => simp
      | ok answer => cases answer <;> simp

/-- All look-ups that are made for a candidate succeed; for the base identity none are made. -/
theorem exists_verdict_iff_judged :
    (∃ dropped, verdict excluded merged base key = .ok dropped) ↔
      (base ≠ some key → Judged excluded merged base key) := by
  by_cases hbase : base = some key
  · exact iff_of_true ⟨true, verdict_of_base hbase⟩ fun h => absurd hbase h
  · rw [exists_verdict_iff hbase]
    exact (imp_iff_right hbase).symm

end verdict

/-! ### Candidates one after the other -/

namespace ResultSet

/-- Adds the hits of some entries as survivors. -/
def addAll (ruleCode : Option String) (s : ResultSet) (entries : List (String × ScoredHit)) :
    ResultSet :=
  entries.foldl (fun s e => s.addSurvivor ruleCode e.2) s

/-- An entry whose hit carries the code of a rule, or none. -/
def recode (ruleCode : Option String) (e : String × ScoredHit) : String × ScoredHit :=
  (e.1, { e.2 with ruleCode })

/-- The entries that the look-ups tell to keep. -/
def surviving (excluded : String → String → Except StateError Bool)
    (merged : String → Except StateError Bool) (base : Option String)
    (entries : List (String × ScoredHit)) : List (String × ScoredHit) :=
  entries.filter fun e => decide (verdict excluded merged base e.1 = .ok false)

section addSurvivors

variable {state : IdentityState σ} (ruleCode : Option String)

theorem addSurvivors_of_judged (hstate : state.AnswersBy excluded merged)
    {entries : List (String × ScoredHit)}
    (hjudged : ∀ e ∈ entries, ∃ dropped, verdict excluded merged base e.1 = .ok dropped)
    (s : ResultSet) :
    (addSurvivors state base ruleCode s entries).Yields
      (.ok (s.addAll ruleCode (surviving excluded merged base entries))) := by
  induction entries generalizing s with
  | nil => exact .pure s
  | cons e entries ih =>
      obtain ⟨⟨dropped, hdropped⟩, hrest⟩ := List.forall_mem_cons.mp hjudged
      have hdrops := IdentityState.drops_yields hstate base e.1
      rw [hdropped] at hdrops
      refine hdrops.bind_ok ?_
      have hyields := ih hrest (if dropped = true then s else s.addSurvivor ruleCode e.2)
      cases dropped with
      | true => simpa [surviving, hdropped] using hyields
      | false => simpa [surviving, hdropped, addAll] using hyields

theorem addSurvivors_of_failed (hstate : state.AnswersBy excluded merged)
    {before : List (String × ScoredHit)} {e : String × ScoredHit} {failure : StateError}
    (hjudged : ∀ d ∈ before, ∃ dropped, verdict excluded merged base d.1 = .ok dropped)
    (hfailed : verdict excluded merged base e.1 = .error failure)
    (after : List (String × ScoredHit)) (s : ResultSet) :
    (addSurvivors state base ruleCode s (before ++ e :: after)).Yields
      (.error failure.toService) := by
  induction before generalizing s with
  | nil =>
      have hdrops := IdentityState.drops_yields hstate base e.1
      rw [hfailed] at hdrops
      exact hdrops.bind_error
  | cons d before ih =>
      obtain ⟨⟨dropped, hdropped⟩, hrest⟩ := List.forall_mem_cons.mp hjudged
      have hdrops := IdentityState.drops_yields hstate base d.1
      rw [hdropped] at hdrops
      exact hdrops.bind_ok (ih hrest _)

end addSurvivors

/-! ### Survivors of survivors -/

section addAll

variable {ruleCode : Option String} {before entries : List (String × ScoredHit)} {s : ResultSet}

/-- Survivors with keys above those of a set are listed behind its entries. -/
theorem toList_addAll (hkeys : KeysIncrease (before ++ entries))
    (hfiled : ∀ e ∈ entries, e.2.identityKey = e.1)
    (hs : s.hits.toList = before.map (recode ruleCode)) :
    (s.addAll ruleCode entries).hits.toList = (before ++ entries).map (recode ruleCode) := by
  induction entries generalizing before s with
  | nil => rwa [List.append_nil]
  | cons e entries ih =>
      obtain ⟨he, hrest⟩ := List.forall_mem_cons.mp hfiled
      rw [List.append_cons] at hkeys ⊢
      refine ih hkeys hrest ?_
      have hbelow : ∀ d ∈ s.hits.toList, d.1 < e.2.identityKey := by
        rw [hs, he]
        intro d hd
        obtain ⟨c, hc, rfl⟩ := List.mem_map.mp hd
        exact (List.pairwise_append.mp (List.pairwise_append.mp hkeys).1).2.2 c hc e
          List.mem_cons_self
      have hnew : s.hits.get? e.2.identityKey = none := by
        rw [Option.eq_none_iff_forall_ne_some]
        intro h hget
        exact String.lt_irrefl _ (hbelow _ (KeyMap.mem_toList.mpr hget))
      have hhits : (s.addSurvivor ruleCode e.2).hits =
          s.hits.insert e.2.identityKey { e.2 with ruleCode } := by
        unfold addSurvivor insert
        dsimp only
        rw [hnew]
      have hlisted : (s.hits.insert e.2.identityKey { e.2 with ruleCode }).toList =
          s.hits.toList ++ [(e.2.identityKey, { e.2 with ruleCode })] :=
        insertEntry_of_forall_lt _ hbelow
      rw [hhits, hlisted, hs, he, List.map_append]
      rfl

theorem keeps_addAll (hkeys : KeysIncrease (before ++ entries))
    (hfiled : ∀ e ∈ entries, e.2.identityKey = e.1)
    (hs : Keeps (Survives excluded merged base) ruleCode before s) :
    Keeps (Survives excluded merged base) ruleCode (before ++ entries)
      (s.addAll ruleCode (surviving excluded merged base entries)) := by
  induction entries generalizing before s with
  | nil => rwa [List.append_nil]
  | cons e entries ih =>
      obtain ⟨he, hrest⟩ := List.forall_mem_cons.mp hfiled
      rw [List.append_cons] at hkeys ⊢
      have hfirst := (List.pairwise_append.mp hkeys).1
      by_cases hverdict : verdict excluded merged base e.1 = .ok false
      · have hsurvives := verdict_eq_false_iff.mp hverdict
        have hadded : Keeps (Survives excluded merged base) ruleCode (before ++ [e])
            (s.addSurvivor ruleCode e.2) :=
          hs.judge hfirst he (iff_of_true (a := false = false) rfl hsurvives)
        simpa [surviving, hverdict, addAll] using ih hkeys hrest hadded
      · have hdropped := mt verdict_eq_false_iff.mpr hverdict
        simpa [surviving, hverdict] using ih hkeys hrest (hs.skip hdropped)

theorem addAll_recode (ruleCode : Option String) (s : ResultSet)
    (entries : List (String × ScoredHit)) :
    s.addAll ruleCode (entries.map (recode ruleCode)) = s.addAll ruleCode entries :=
  List.foldl_map

end addAll

/-! ### The filter -/

/-- Of look-ups in an increasing order the first failure is that of the least key that fails. -/
theorem mapM_eq_error_iff_least {ε β : Type} {f : String → Except ε β} {ks : List String}
    (hks : ks.Pairwise (· < ·)) {e : ε} :
    ks.mapM f = .error e ↔
      ∃ k ∈ ks, f k = .error e ∧ ∀ j ∈ ks, j < k → ∃ b, f j = .ok b := by
  rw [mapM_eq_error_iff]
  constructor
  · rintro ⟨before, k, after, rfl, hbefore, hk⟩
    refine ⟨k, by simp, hk, fun j hj hlt => ?_⟩
    rcases List.mem_append.mp hj with hj | hj
    · exact hbefore j hj
    · rcases List.mem_cons.mp hj with rfl | hj
      · exact absurd hlt (String.lt_irrefl j)
      · have hgt := (List.pairwise_cons.mp (List.pairwise_append.mp hks).2.1).1 j hj
        exact absurd (String.lt_trans hlt hgt) (String.lt_irrefl j)
  · rintro ⟨k, hk, hfailed, hleast⟩
    obtain ⟨before, after, rfl⟩ := List.append_of_mem hk
    refine ⟨before, k, after, rfl, fun j hj => ?_, hfailed⟩
    exact hleast j (by simp [hj]) ((List.pairwise_append.mp hks).2.2 j hj k List.mem_cons_self)

section survivors

variable {state : IdentityState σ} {results : ResultSet}

def lookups (excluded : String → String → Except StateError Bool)
    (merged : String → Except StateError Bool) (base : Option String) (ks : List String) :
    Except StateError (List Bool) :=
  ks.mapM (verdict excluded merged base)

theorem lookups_eq_ok_iff {ks : List String} :
    (∃ answers, lookups excluded merged base ks = .ok answers) ↔
      ∀ k ∈ ks, base ≠ some k → Judged excluded merged base k := by
  simp only [lookups, exists_mapM_eq_ok_iff, exists_verdict_iff_judged]

theorem lookups_eq_error_iff {ks : List String} (hks : ks.Pairwise (· < ·)) {e : StateError} :
    lookups excluded merged base ks = .error e ↔
      ∃ k ∈ ks, base ≠ some k ∧ FailsWith excluded merged base k e ∧
        ∀ j ∈ ks, j < k → base ≠ some j → Judged excluded merged base j := by
  simp only [lookups, mapM_eq_error_iff_least hks, exists_verdict_iff_judged]
  refine exists_congr fun k => and_congr_right fun _ => ?_
  rw [← and_assoc]
  refine and_congr_left fun _ => ?_
  by_cases hbase : base = some k
  · simp [hbase, verdict_of_base]
  · rw [verdict_eq_error_iff hbase]
    exact (and_iff_right hbase).symm

/-- The set of the hits that survive. -/
def kept (excluded : String → String → Except StateError Bool)
    (merged : String → Except StateError Bool) (base ruleCode : Option String)
    (results : ResultSet) : ResultSet :=
  empty.addAll ruleCode (surviving excluded merged base results.hits.toList)

theorem survivors_yields (hstate : state.AnswersBy excluded merged) (base ruleCode : Option String)
    (results : ResultSet) :
    (results.survivors state base ruleCode).Yields
      (match lookups excluded merged base results.hits.keys with
        | .ok _ => .ok (results.kept excluded merged base ruleCode)
        | .error e => .error e.toService) := by
  have hkeys : lookups excluded merged base results.hits.keys =
      results.hits.toList.mapM fun e => verdict excluded merged base e.1 :=
    List.mapM_map
  rw [hkeys]
  cases hanswers : results.hits.toList.mapM fun e => verdict excluded merged base e.1 with
  | ok answers =>
      exact addSurvivors_of_judged ruleCode hstate (exists_mapM_eq_ok_iff.mp ⟨answers, hanswers⟩) empty
  | error e =>
      obtain ⟨before, d, after, hsplit, hbefore, hfailed⟩ := mapM_eq_error_iff.mp hanswers
      have hyields := addSurvivors_of_failed ruleCode hstate hbefore hfailed after empty
      rw [← hsplit] at hyields
      exact hyields

theorem toList_kept (hfiled : ∀ e ∈ results.hits.toList, e.2.identityKey = e.1)
    (ruleCode : Option String) :
    (results.kept excluded merged base ruleCode).hits.toList =
      (surviving excluded merged base results.hits.toList).map (recode ruleCode) := by
  have hkeys : KeysIncrease ([] ++ surviving excluded merged base results.hits.toList) :=
    results.hits.increasing.filter _
  exact toList_addAll hkeys (fun e he => hfiled e (List.mem_filter.mp he).1) rfl

/-- All that is kept is kept again, and nothing changes on the way. -/
theorem survivors_kept (hstate : state.AnswersBy excluded merged)
    (hfiled : ∀ e ∈ results.hits.toList, e.2.identityKey = e.1) (base ruleCode : Option String) :
    ((results.kept excluded merged base ruleCode).survivors state base ruleCode).Yields
      (.ok (results.kept excluded merged base ruleCode)) := by
  have hkept : ∀ e ∈ (surviving excluded merged base results.hits.toList).map (recode ruleCode),
      verdict excluded merged base e.1 = .ok false := by
    intro e he
    obtain ⟨d, hd, rfl⟩ := List.mem_map.mp he
    exact of_decide_eq_true (List.mem_filter.mp hd).2
  have hall : surviving excluded merged base
      ((surviving excluded merged base results.hits.toList).map (recode ruleCode)) =
        (surviving excluded merged base results.hits.toList).map (recode ruleCode) :=
    List.filter_eq_self.mpr fun e he => decide_eq_true (hkept e he)
  have hyields := addSurvivors_of_judged ruleCode hstate (fun e he => ⟨false, hkept e he⟩) empty
  rw [hall, addAll_recode] at hyields
  rw [survivors, toList_kept hfiled]
  exact hyields

end survivors

/-- The filter keeps exactly the right hits.  For hits filed under their own keys and an identity state
that answers by key, it has one outcome.  It succeeds if and only if the look-ups of every candidate but
the base identity succeed, and else it fails as the first of them in the order of the keys does.  What it
gives are the hits of the candidates that are not the base identity, neither excluded nor merged, as they
were but for the code of the rule, with their markers and their greatest score; and these are what it gives
of them again. -/
theorem survivors_exact {state : IdentityState σ} {results : ResultSet}
    (hstate : state.AnswersBy excluded merged)
    (hfiled : ∀ k h, results.get? k = some h → h.identityKey = k) (base ruleCode : Option String) :
    ∃ outcome, (results.survivors state base ruleCode).Yields outcome ∧
      ((∃ s, outcome = .ok s) ↔
        ∀ k ∈ results.hits.keys, base ≠ some k → Judged excluded merged base k) ∧
      (∀ e, outcome = .error e ↔ ∃ failure, e = .identityState failure.message ∧
        ∃ k ∈ results.hits.keys, base ≠ some k ∧ FailsWith excluded merged base k failure ∧
          ∀ j ∈ results.hits.keys, j < k → base ≠ some j → Judged excluded merged base j) ∧
      ∀ s, outcome = .ok s →
        s.Keeps (Survives excluded merged base) ruleCode results.hits.toList ∧
        (s.survivors state base ruleCode).Yields (.ok s) := by
  have hentries : ∀ e ∈ results.hits.toList, e.2.identityKey = e.1 :=
    fun e he => hfiled e.1 e.2 (KeyMap.mem_toList.mp he)
  have hkeys : results.hits.keys.Pairwise (· < ·) := List.pairwise_map.mpr results.hits.increasing
  have hyields := survivors_yields hstate base ruleCode results
  refine ⟨_, hyields, ?succeeds, ?fails, ?keeps⟩
  case succeeds =>
    rw [← lookups_eq_ok_iff]
    cases lookups excluded merged base results.hits.keys <;> simp
  case fails =>
    intro e
    simp only [← lookups_eq_error_iff hkeys]
    cases lookups excluded merged base results.hits.keys with
    | ok answers => simp
    | error failure => simp [StateError.toService, eq_comm]
  case keeps =>
    intro s hs
    cases hanswers : lookups excluded merged base results.hits.keys with
    | error e =>
        rw [hanswers] at hs
        cases hs
    | ok answers =>
        rw [hanswers] at hs
        obtain rfl : results.kept excluded merged base ruleCode = s := Except.ok.inj hs
        have hincrease : KeysIncrease ([] ++ results.hits.toList) := results.hits.increasing
        exact ⟨keeps_addAll hincrease hentries .empty, survivors_kept hstate hentries base ruleCode⟩

def fourFound : ResultSet where
  hits := .ofList (["base", "excluded", "merged", "other"].map fun key =>
    (key, { identityKey := key, score := .zero, document := .null }))

/-- An identity state that fails wherever it need not be asked about the four. -/
def reluctantState : IdentityState Unit where
  isExcluded candidate _ := pure <|
    if candidate = "base" then .error ⟨"not asked for"⟩ else .ok (candidate == "excluded")
  isMerged candidate := pure <|
    if candidate = "base" ∨ candidate = "excluded" then .error ⟨"not asked for"⟩
    else .ok (candidate == "merged")

/-- It is not asked there, and one of the four is kept, again and again. -/
theorem survivors_exact_fourFound :
    (∀ k h, fourFound.get? k = some h → h.identityKey = k) ∧
      ∃ s, (fourFound.survivors reluctantState (some "base") (some "R")).Yields (.ok s) ∧
        s.hits.keys = ["other"] ∧
        (s.survivors reluctantState (some "base") (some "R")).Yields (.ok s) := by
  have hstate : reluctantState.AnswersBy
      (fun candidate _ =>
        if candidate = "base" then .error ⟨"not asked for"⟩ else .ok (candidate == "excluded"))
      (fun candidate =>
        if candidate = "base" ∨ candidate = "excluded" then .error ⟨"not asked for"⟩
        else .ok (candidate == "merged")) := ⟨fun _ _ _ => rfl, fun _ _ => rfl⟩
  have hentries : ∀ e ∈ fourFound.hits.toList, e.2.identityKey = e.1 := by decide +kernel
  have hfiled : ∀ k h, fourFound.get? k = some h → h.identityKey = k :=
    fun k h hget => hentries (k, h) (KeyMap.mem_toList.mpr hget)
  have hkeys : ((fourFound.survivors reluctantState (some "base") (some "R")).run.run ()).1.map
      (fun s => s.hits.keys) = .ok ["other"] := by decide +kernel
  obtain ⟨outcome, hyields, -, -, hkeep⟩ := survivors_exact hstate hfiled (some "base") (some "R")
  rw [hyields ()] at hkeys
  cases outcome with
  | error e => cases hkeys
  | ok s => exact ⟨hfiled, s, hyields, Except.ok.inj hkeys, (hkeep s rfl).2⟩

end ResultSet

end Lookalike
