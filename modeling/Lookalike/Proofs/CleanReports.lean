import Lookalike.Proofs.Sweeps

/-! # Clean reports

The filter keeps the entries that it need not drop, each under the key of its own hit, because the
entries of a merged set are filed under that key.  `Survives` says which entries these are when the
identity state answers by key, and `Keeps` what the set of survivors is; it is kept entry by entry
(`Keeps.skip`, `Keeps.add`), hence by the whole filter.

Main statement: `findDuplicates_clean`.  Whatever the backend answers, no report of a sweep has matches
with the base identity, an excluded or a merged one among them, or with a total that a dropped hit had
a part in. -/

namespace Lookalike

/-! ### Survivors -/

/-- A candidate need not be dropped: it is not the base identity, and it is neither excluded for that
nor merged. -/
structure Survives (excluded : String → String → Except StateError Bool)
    (merged : String → Except StateError Bool) (base : Option String) (key : String) : Prop where
  other : ∀ b ∈ base, key ≠ b
  notExcluded : ∀ b ∈ base, excluded key b = .ok false
  notMerged : merged key = .ok false

/-- A result set holds the entries of a list that need not be dropped, each with the code of a rule,
and its markers and its greatest score are theirs. -/
structure ResultSet.Keeps (survives : String → Prop) (ruleCode : Option String)
    (entries : List (String × ScoredHit)) (s : ResultSet) : Prop where
  hits : ∀ k h, s.get? k = some h ↔
    ∃ g, (k, g) ∈ entries ∧ survives k ∧ h = { g with ruleCode }
  markers : ∀ m, m ∈ s.markers ↔ ∃ k h, s.get? k = some h ∧ m ∈ h.markers
  maxScore : Binary64.IsMaximum s.maxScore (.zero :: s.hits.values.map (·.score))

/-- A result set for a base identity and a rule is clean: each entry is the hit of its own key, found
by that rule and neither the base identity nor excluded nor merged, and the totals are those of the
entries. -/
structure ResultSet.Clean (excluded : String → String → Except StateError Bool)
    (merged : String → Except StateError Bool) (base code : String) (s : ResultSet) : Prop where
  other : s.contains base = false
  filed : ∀ k h, s.get? k = some h → h.identityKey = k
  notExcluded : ∀ k, s.contains k = true → excluded k base = .ok false
  notMerged : ∀ k, s.contains k = true → merged k = .ok false
  ruleCode : ∀ k h, s.get? k = some h → h.ruleCode = some code
  markers : ∀ m, m ∈ s.markers ↔ ∃ k h, s.get? k = some h ∧ m ∈ h.markers
  maxScore : Binary64.IsMaximum s.maxScore (.zero :: s.hits.values.map (·.score))

namespace ResultSet

theorem contains_iff {s : ResultSet} {k : String} :
    s.contains k = true ↔ ∃ h, s.get? k = some h := Option.isSome_iff_exists

theorem mem_scores {s : ResultSet} {x : Binary64} :
    x ∈ s.hits.values.map (·.score) ↔ ∃ k h, s.get? k = some h ∧ h.score = x := by
  simp only [List.mem_map, KeyMap.mem_values]
  constructor
  · rintro ⟨h, ⟨k, hget⟩, hscore⟩
    exact ⟨k, h, hget, hscore⟩
  · rintro ⟨k, h, hget, hscore⟩
    exact ⟨h, ⟨k, hget⟩, hscore⟩

section addSurvivor

variable {s : ResultSet} {ruleCode : Option String} {h : ScoredHit}

theorem get?_addSurvivor (hnew : s.get? h.identityKey = none) (k : String) :
    (s.addSurvivor ruleCode h).get? k =
      if k = h.identityKey then some { h with ruleCode } else s.get? k := by
  have hnew : s.hits.get? h.identityKey = none := hnew
  unfold addSurvivor insert get?
  dsimp only
  rw [KeyMap.get?_insert, hnew]

theorem exists_get?_addSurvivor (hnew : s.get? h.identityKey = none) {P : ScoredHit → Prop} :
    (∃ k g, (s.addSurvivor ruleCode h).get? k = some g ∧ P g) ↔
      (∃ k g, s.get? k = some g ∧ P g) ∨ P { h with ruleCode } := by
  simp only [get?_addSurvivor hnew]
  constructor
  · rintro ⟨k, g, hget, hg⟩
    split_ifs at hget
    · rw [← Option.some.inj hget] at hg
      exact Or.inr hg
    · exact Or.inl ⟨k, g, hget, hg⟩
  · rintro (⟨k, g, hget, hg⟩ | hh)
    · refine ⟨k, g, ?_, hg⟩
      rw [if_neg, hget]
      rintro rfl
      rw [hnew] at hget
      cases hget
    · exact ⟨h.identityKey, _, if_pos rfl, hh⟩

end addSurvivor

namespace Keeps

variable {survives : String → Prop} {ruleCode : Option String}
  {entries : List (String × ScoredHit)} {s : ResultSet}

theorem empty : Keeps survives ruleCode [] .empty := by
  have hnone (k : String) (h : ScoredHit) : ResultSet.empty.get? k ≠ some h := by
    intro hget
    cases hget
  constructor
  case hits =>
    intro k h
    exact ⟨fun hget => absurd hget (hnone k h), fun ⟨g, hg, _⟩ => absurd hg List.not_mem_nil⟩
  case markers =>
    intro m
    exact ⟨fun hm => absurd hm (KeySet.not_mem_empty m), fun ⟨k, h, hget, _⟩ =>
      absurd hget (hnone k h)⟩
  case maxScore =>
    refine ⟨List.mem_cons_self, rfl, ?_⟩
    intro x hx
    rw [List.mem_singleton.mp hx]
    exact Binary64.lt_self _

theorem skip (hs : Keeps survives ruleCode entries s) {e : String × ScoredHit}
    (hdropped : ¬ survives e.1) : Keeps survives ruleCode (entries ++ [e]) s := by
  refine ⟨fun k h => (hs.hits k h).trans ?_, hs.markers, hs.maxScore⟩
  constructor
  · rintro ⟨g, hg, hk⟩
    exact ⟨g, List.mem_append_left _ hg, hk⟩
  · rintro ⟨g, hg, hk⟩
    rcases List.mem_append.mp hg with hg | hg
    · exact ⟨g, hg, hk⟩
    · rw [← List.mem_singleton.mp hg] at hdropped
      exact absurd hk.1 hdropped

theorem add (hs : Keeps survives ruleCode entries s) {h : ScoredHit}
    (hkept : survives h.identityKey) (hnew : s.get? h.identityKey = none) :
    Keeps survives ruleCode (entries ++ [(h.identityKey, h)]) (s.addSurvivor ruleCode h) := by
  constructor
  case hits =>
    intro k g
    rw [get?_addSurvivor hnew]
    split_ifs with hk
    · subst hk
      rw [Option.some.injEq]
      constructor
      · rintro rfl
        exact ⟨h, List.mem_append_right _ List.mem_cons_self, hkept, rfl⟩
      · rintro ⟨found, hfound, -, rfl⟩
        rcases List.mem_append.mp hfound with hfound | hfound
        · have hget := (hs.hits _ _).mpr ⟨found, hfound, hkept, rfl⟩
          rw [hnew] at hget
          cases hget
        · obtain rfl : found = h := (Prod.ext_iff.mp (List.mem_singleton.mp hfound)).2
          rfl
    · rw [hs.hits]
      constructor
      · rintro ⟨found, hfound, hrest⟩
        exact ⟨found, List.mem_append_left _ hfound, hrest⟩
      · rintro ⟨found, hfound, hrest⟩
        rcases List.mem_append.mp hfound with hfound | hfound
        · exact ⟨found, hfound, hrest⟩
        · exact absurd (Prod.ext_iff.mp (List.mem_singleton.mp hfound)).1 hk
  case markers =>
    intro m
    have hmarkers : (s.addSurvivor ruleCode h).markers = s.markers.union h.markers := rfl
    rw [hmarkers, KeySet.mem_union, hs.markers, exists_get?_addSurvivor hnew]
  case maxScore =>
    have hmax : (s.addSurvivor ruleCode h).maxScore = s.maxScore.max h.score := rfl
    rw [hmax]
    apply (hs.maxScore.max h.score).of_mem_iff
    intro x
    rw [List.cons_append, List.mem_cons, List.mem_cons, List.mem_append, List.mem_singleton,
      mem_scores, mem_scores, exists_get?_addSurvivor hnew, eq_comm (a := x) (b := h.score)]

/-- An entry with a new key is dropped or joins the set. -/
theorem judge (hs : Keeps survives ruleCode entries s) {e : String × ScoredHit}
    (hkeys : KeysIncrease (entries ++ [e])) (hfiled : e.2.identityKey = e.1) {dropped : Bool}
    (hdropped : dropped = false ↔ survives e.1) :
    Keeps survives ruleCode (entries ++ [e]) (if dropped then s else s.addSurvivor ruleCode e.2) := by
  cases dropped with
  | true => exact hs.skip fun hsurvives => by simpa using hdropped.mpr hsurvives
  | false =>
      have hnew : s.get? e.1 = none := by
        rw [Option.eq_none_iff_forall_ne_some]
        intro h hget
        obtain ⟨g, hg, -⟩ := (hs.hits e.1 h).mp hget
        have hlt := (List.pairwise_append.mp hkeys).2.2 _ hg e List.mem_cons_self
        exact String.lt_irrefl e.1 hlt
      obtain ⟨key, h⟩ := e
      obtain rfl : h.identityKey = key := hfiled
      exact hs.add (hdropped.mp rfl) hnew

end Keeps

/-! ### The filter -/

section Filter

variable {σ : Type} {state : IdentityState σ}
  {excluded : String → String → Except StateError Bool} {merged : String → Except StateError Bool}

theorem survives_none_iff {key : String} :
    Survives excluded merged none key ↔ merged key = .ok false :=
  ⟨fun h => h.notMerged, fun h => ⟨nofun, nofun, h⟩⟩

theorem survives_some_iff {base key : String} :
    Survives excluded merged (some base) key ↔
      key ≠ base ∧ excluded key base = .ok false ∧ merged key = .ok false := by
  constructor
  · intro h
    exact ⟨h.other base rfl, h.notExcluded base rfl, h.notMerged⟩
  · rintro ⟨hother, hexcluded, hmerged⟩
    exact ⟨fun b hb => Option.some.inj hb ▸ hother, fun b hb => Option.some.inj hb ▸ hexcluded,
      hmerged⟩

theorem verdict_eq_false_iff {base : Option String} {key : String} :
    verdict excluded merged base key = .ok false ↔ Survives excluded merged base key := by
  cases base with
  | none => exact survives_none_iff.symm
  | some b =>
      rw [survives_some_iff, verdict]
      split_ifs with hkey
      · simp [hkey]
      · cases excluded key b with
        | error e => simp [hkey]
        | ok answer => cases answer <;> simp [hkey]

/-- The look-ups of a candidate tell whether it survives. -/
theorem drops_ensures (hstate : state.AnswersBy excluded merged) (base : Option String)
    (key : String) :
    (state.drops base key).Ensures fun dropped =>
      (dropped = false ↔ Survives excluded merged base key) := by
  refine (IdentityState.drops_yields hstate base key).ensures fun dropped hdropped => ?_
  rw [← verdict_eq_false_iff]
  cases hverdict : verdict excluded merged base key with
  | error e =>
      rw [hverdict] at hdropped
      cases hdropped
  | ok answer =>
      rw [hverdict] at hdropped
      obtain rfl : answer = dropped := Except.ok.inj hdropped
      rw [Except.ok.injEq]

/-- The filter keeps the entries that survive, if each is filed under the key of its hit. -/
theorem addSurvivors_ensures_keeps (hstate : state.AnswersBy excluded merged)
    (base ruleCode : Option String) {before entries : List (String × ScoredHit)}
    (hkeys : KeysIncrease (before ++ entries))
    (hfiled : ∀ e ∈ entries, e.2.identityKey = e.1) {s : ResultSet}
    (hs : Keeps (Survives excluded merged base) ruleCode before s) :
    (addSurvivors state base ruleCode s entries).Ensures
      (Keeps (Survives excluded merged base) ruleCode (before ++ entries)) := by
  induction entries generalizing before s with
  | nil => exact .pure (by rwa [List.append_nil])
  | cons e entries ih =>
      have hrest : ∀ e ∈ entries, e.2.identityKey = e.1 :=
        fun d hd => hfiled d (List.mem_cons_of_mem e hd)
      rw [List.append_cons] at hkeys ⊢
      refine (drops_ensures hstate base e.1).bind fun dropped hdropped => ih hkeys hrest ?_
      exact hs.judge (List.pairwise_append.mp hkeys).1 (hfiled e List.mem_cons_self) hdropped

end Filter

theorem Keeps.clean {excluded : String → String → Except StateError Bool}
    {merged : String → Except StateError Bool} {base code : String} {results s : ResultSet}
    (hfiled : ∀ k h, results.get? k = some h → h.identityKey = k)
    (hs : Keeps (Survives excluded merged (some base)) (some code) results.hits.toList s) :
    s.Clean excluded merged base code := by
  have hsurvives {k : String} (hk : s.contains k = true) :
      Survives excluded merged (some base) k := by
    obtain ⟨h, hget⟩ := contains_iff.mp hk
    obtain ⟨g, -, hsurvives, -⟩ := (hs.hits k h).mp hget
    exact hsurvives
  constructor
  case other =>
    rw [← Bool.not_eq_true]
    intro hbase
    exact (hsurvives hbase).other base rfl rfl
  case filed =>
    intro k h hget
    obtain ⟨g, hg, -, rfl⟩ := (hs.hits k h).mp hget
    exact hfiled k g (KeyMap.mem_toList.mp hg)
  case notExcluded =>
    intro k hk
    exact (hsurvives hk).notExcluded base rfl
  case notMerged =>
    intro k hk
    exact (hsurvives hk).notMerged
  case ruleCode =>
    intro k h hget
    obtain ⟨g, -, -, rfl⟩ := (hs.hits k h).mp hget
    rfl
  case markers => exact hs.markers
  case maxScore => exact hs.maxScore

end ResultSet

/-! ### Reports -/

namespace DuplicateService

variable {σ : Type} (s : DuplicateService σ)
  {excluded : String → String → Except StateError Bool} {merged : String → Except StateError Bool}

/-- The survivors of a run are clean, whatever the backend answers. -/
theorem run_ensures_clean (hstate : s.identityState.AnswersBy excluded merged)
    (ds : List Descriptor) (base code : String) (maxResults : UInt32) :
    (s.run ds (some base) (some code) maxResults).Ensures (·.Clean excluded merged base code) := by
  refine (SearchBackend.execute_ensures_gathers s.backend ds _ _).bind fun results hresults => ?_
  obtain ⟨answers, hgathers⟩ := hresults
  have hfiled : ∀ k h, results.get? k = some h → h.identityKey = k :=
    fun k h hget => (hgathers.hits.summary k h hget).key
  have hentries : ∀ e ∈ results.hits.toList, e.2.identityKey = e.1 :=
    fun e he => hfiled e.1 e.2 (KeyMap.mem_toList.mp he)
  have hkeys : KeysIncrease ([] ++ results.hits.toList) := results.hits.increasing
  exact (ResultSet.addSurvivors_ensures_keeps hstate (some base) (some code) hkeys hentries
    .empty).mono fun survivors hkeeps => hkeeps.clean hfiled

theorem evaluateRule_ensures_clean (hstate : s.identityState.AnswersBy excluded merged)
    (rule : Rule) (o : Observation) (base : String) (context : RequestContext)
    (maxResults : UInt32) :
    (s.evaluateRule rule o (some base) context maxResults).Ensures
      (·.Clean excluded merged base rule.code) := by
  have hempty : ResultSet.empty.Clean excluded merged base rule.code := by
    have hkeeps : ResultSet.Keeps (Survives excluded merged (some base)) (some rule.code)
        ResultSet.empty.hits.toList .empty := .empty
    apply hkeeps.clean
    intro k h hget
    cases hget
  unfold evaluateRule
  split_ifs
  · refine Step.Ensures.bind (P := fun _ => True) (fun _ _ _ => trivial) fun ds _ => ?_
    exact s.run_ensures_clean hstate ds base rule.code maxResults
  · exact .pure hempty

/-- A report of a sweep says of each rule, in the order of evaluation, what is ensured of its
matches. -/
theorem sweepRule_ensures {o : Observation} {base : String} {context : RequestContext} {rule : Rule}
    {P : ResultSet → Prop} (h : (s.evaluateRule rule o (some base) context 0).Ensures P) :
    (s.sweepRule o base context rule).Ensures fun r =>
      r.code = rule.code ∧ r.priority = rule.priority ∧
        ∀ found, r.outcome = .found found → P found := by
  intro world r hrun
  rw [run_sweepRule] at hrun
  have hfound := h world
  cases hresult : ((s.evaluateRule rule o (some base) context 0).run.run world).1 with
  | ok results =>
      rw [hresult] at hrun
      obtain rfl : rule.report (.found results) = r := by
        cases hmode : s.failureMode <;> rw [hmode] at hrun <;> injection hrun
      refine ⟨rfl, rfl, fun found hfound' => ?_⟩
      injection hfound' with hfound'
      exact hfound' ▸ hfound results hresult
  | error e =>
      rw [hresult] at hrun
      cases hmode : s.failureMode with
      | strict =>
          rw [hmode] at hrun
          cases hrun
      | lenient =>
          rw [hmode] at hrun
          injection hrun with hrun
          subst hrun
          exact ⟨rfl, rfl, fun found hfound' => by cases hfound'⟩

/-- In every report of a sweep, for every rule that was found to have matches, these are clean,
whatever the backend answers. -/
theorem findDuplicates_clean (hstate : s.identityState.AnswersBy excluded merged)
    (request : SweepRequest) (rules : List Rule) :
    (s.findDuplicates request rules).Ensures fun report =>
      ∀ r ∈ report.rules, ∃ rule ∈ rules, r.code = rule.code ∧ r.priority = rule.priority ∧
        ∀ found, r.outcome = .found found →
          found.Clean excluded merged request.baseIdentityKey rule.code := by
  have hsweep := Step.Ensures.mapM (fun rule => s.sweepRule_ensures
    (s.evaluateRule_ensures_clean hstate rule (s.observe request.values) request.baseIdentityKey
      { sourceFields := request.attributesFilter } 0)) (rules.mergeSort sweepLe)
  rw [findDuplicates, sweep_eq_mapM]
  refine hsweep.bind fun reports hreports => .pure fun r hr => ?_
  obtain ⟨rule, hrule, hreport⟩ := hreports r hr
  exact ⟨rule, List.mem_mergeSort.mp hrule, hreport⟩

/-- The keys of the hits that a report lists for each rule. -/
def reportedKeys : Except ServiceError DuplicateReport → List (List String)
  | .error _ => []
  | .ok report => report.rules.map fun r =>
      match r.outcome with
      | .found results => results.hits.keys
      | .failed _ => []

/-- A sweep for one of four identities that share a value, another of which is excluded for it and a
third is merged. -/
def sweepOfFour : Step (List (List Descriptor × Window)) DuplicateReport :=
  (standIn
    { unmarked := [("base", .zero), ("excluded", .zero), ("merged", .zero), ("other", .zero)] }
    { excluded := [("excluded", "base")], merged := ["merged"] }).findDuplicates
    { values := [("email", "a@b")], baseIdentityKey := "base" }
    [{ code := "mail", checkedAttributes := [⟨"email", none⟩], nbEqualAttributes := 1 }]

/-- Only the fourth is reported. -/
theorem findDuplicates_clean_standIn :
    ∃ report, (sweepOfFour.run.run []).1 = .ok report ∧
      reportedKeys (.ok report) = [["other"]] ∧
      ∀ r ∈ report.rules, ∀ found, r.outcome = .found found →
        found.Clean (fun candidate base => .ok ([("excluded", "base")].contains (candidate, base)))
          (fun candidate => .ok (["merged"].contains candidate)) "base" "mail" := by
  have hkeys : reportedKeys (sweepOfFour.run.run []).1 = [["other"]] := by decide +kernel
  cases hrun : (sweepOfFour.run.run []).1 with
  | error e =>
      rw [hrun] at hkeys
      cases hkeys
  | ok report =>
      refine ⟨report, rfl, hrun ▸ hkeys, fun r hr found hfound => ?_⟩
      obtain ⟨rule, hrule, -, -, hclean⟩ :=
        findDuplicates_clean _ (MemoryState.answersBy _ _) _ _ [] report hrun r hr
      rw [List.mem_singleton.mp hrule] at hclean
      exact hclean found hfound

end DuplicateService

end Lookalike
