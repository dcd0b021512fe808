import Lookalike.Proofs.Gathering
import Lookalike.Proofs.Recording

/-! # Answers do not depend on the page size

A backend that holds fixed hits for its searches (`SearchBackend.Serves`) is asked for them page by
page.  Every page size finds the same hits, namely those within the cap, and what a result set
summarizes determines what it says (`Gathers.agrees`).

Main statement: `execute_agrees`.  A run of a batch answers what one merge of all hits within the cap
would answer. -/

namespace Lookalike

/-! ### Agreement -/

/-- Two result sets say the same: the same identities, with the same documents, markers and, as
numbers, scores. -/
structure ResultSet.Agrees (s t : ResultSet) : Prop where
  found : ∀ k, s.contains k = t.contains k
  entries : ∀ k g h, s.get? k = some g → t.get? k = some h →
    g.identityKey = h.identityKey ∧ g.document = h.document ∧ Binary64.Same g.score h.score ∧
      g.markers = h.markers
  markers : s.markers = t.markers
  maxScore : Binary64.Same s.maxScore t.maxScore

/-- A score that an answer reports is the score of one of its hits. -/
def Answered.Honest (a : Answered) : Prop := ∀ x ∈ a.2.maxScore, ∃ h ∈ a.2.hits, h.score = x

theorem Answered.mem_scores {a : Answered} (ha : a.Honest) {x : Binary64} :
    x ∈ a.scores ↔ ∃ f ∈ a.findings, f.hit.score = x := by
  unfold scores findings
  rw [List.mem_append, Option.mem_toList, List.mem_map]
  constructor
  · intro hx
    obtain ⟨h, hh, hscore⟩ := hx.elim (ha x) id
    exact ⟨_, List.mem_map_of_mem hh, hscore⟩
  · rintro ⟨f, hf, hscore⟩
    obtain ⟨h, hh, rfl⟩ := List.mem_map.mp hf
    exact Or.inr ⟨h, hh, hscore⟩

theorem Answered.label_of_mem {a : Answered} {f : Finding} (hf : f ∈ a.findings) :
    f.label = a.1.label := by
  obtain ⟨h, -, rfl⟩ := List.mem_map.mp hf
  rfl

theorem Answered.hits_ne_nil_iff {a : Answered} : a.2.hits ≠ [] ↔ ∃ f, f ∈ a.findings := by
  constructor
  · intro hsome
    obtain ⟨h, hh⟩ := List.exists_mem_of_ne_nil _ hsome
    exact ⟨_, List.mem_map_of_mem hh⟩
  · rintro ⟨f, hf⟩
    obtain ⟨h, hh, -⟩ := List.mem_map.mp hf
    exact List.ne_nil_of_mem hh

theorem Gathers.mem_markers {answers : List Answered} {s : ResultSet} (h : Gathers answers s)
    {m : String} :
    m ∈ s.markers ↔ ∃ f ∈ answers.flatMap Answered.findings, f.label = some m := by
  rw [h.markers]
  constructor
  · rintro ⟨a, ha, hlabel, hsome⟩
    obtain ⟨f, hf⟩ := Answered.hits_ne_nil_iff.mp hsome
    exact ⟨f, List.mem_flatMap.mpr ⟨a, ha, hf⟩, (Answered.label_of_mem hf).trans hlabel⟩
  · rintro ⟨f, hf, hlabel⟩
    obtain ⟨a, ha, hf⟩ := List.mem_flatMap.mp hf
    exact ⟨a, ha, (Answered.label_of_mem hf).symm.trans hlabel,
      Answered.hits_ne_nil_iff.mpr ⟨f, hf⟩⟩

theorem mem_scores_of_honest {answers : List Answered} (h : ∀ a ∈ answers, a.Honest)
    {x : Binary64} : x ∈ answers.flatMap Answered.scores ↔
      ∃ f ∈ answers.flatMap Answered.findings, f.hit.score = x := by
  constructor
  · intro hx
    obtain ⟨a, ha, hx⟩ := List.mem_flatMap.mp hx
    obtain ⟨f, hf, hscore⟩ := (Answered.mem_scores (h a ha)).mp hx
    exact ⟨f, List.mem_flatMap.mpr ⟨a, ha, hf⟩, hscore⟩
  · rintro ⟨f, hf, hscore⟩
    obtain ⟨a, ha, hf⟩ := List.mem_flatMap.mp hf
    exact List.mem_flatMap.mpr ⟨a, ha, (Answered.mem_scores (h a ha)).mpr ⟨f, hf, hscore⟩⟩

theorem Summarizes.mem {fs : List Finding} {k : String} {h : ScoredHit} (hs : Summarizes fs k h) :
    ∃ f ∈ fs, f.key = k ∧ h.score = f.hit.score ∧ h.document = f.hit.document := by
  obtain ⟨earlier, f, later, rfl, hkey, hscore, hdocument, -⟩ := hs.first
  exact ⟨f, List.mem_append_right _ List.mem_cons_self, hkey, hscore, hdocument⟩

/-- What was found, in whatever order, determines the summary of an identity, but for its document. -/
theorem Summarizes.alike {fs gs : List Finding} {k : String} {g h : ScoredHit}
    (hg : Summarizes fs k g) (hh : Summarizes gs k h) (hmem : ∀ f, f ∈ fs ↔ f ∈ gs) :
    g.identityKey = h.identityKey ∧ Binary64.Same g.score h.score ∧ g.markers = h.markers := by
  obtain ⟨e, he, hekey, hescore, -⟩ := hg.mem
  obtain ⟨f, hf, hfkey, hfscore, -⟩ := hh.mem
  refine ⟨by rw [hg.key, hh.key], ⟨?_, ?_⟩, KeySet.ext_mem fun m => ?_⟩
  · rw [hfscore]
    exact hg.greatest f ((hmem f).mpr hf) hfkey
  · rw [hescore]
    exact hh.greatest e ((hmem e).mp he) hekey
  · rw [hg.markers, hh.markers]
    simp only [hmem]

/-- What was found, in whatever order, determines the summary of an identity whose documents are
alike. -/
theorem Summarizes.agrees {fs gs : List Finding} {k : String} {g h : ScoredHit}
    (hg : Summarizes fs k g) (hh : Summarizes gs k h) (hmem : ∀ f, f ∈ fs ↔ f ∈ gs)
    {document : String → Json} (hdocument : ∀ f ∈ gs, f.hit.document = document f.key) :
    g.identityKey = h.identityKey ∧ g.document = h.document ∧ Binary64.Same g.score h.score ∧
      g.markers = h.markers := by
  obtain ⟨hkey, hscore, hmarkers⟩ := hg.alike hh hmem
  obtain ⟨e, he, hekey, -, hedocument⟩ := hg.mem
  obtain ⟨f, hf, hfkey, -, hfdocument⟩ := hh.mem
  refine ⟨hkey, ?_, hscore, hmarkers⟩
  rw [hedocument, hfdocument, hdocument e ((hmem e).mp he), hdocument f hf, hekey, hfkey]

/-- What was found, in whatever order, determines the answer if the documents of an identity are
alike. -/
theorem Gathers.agrees {as bs : List Answered} {s t : ResultSet} (hs : Gathers as s)
    (ht : Gathers bs t) (has : ∀ a ∈ as, a.Honest) (hbs : ∀ b ∈ bs, b.Honest)
    (hmem : ∀ f, f ∈ as.flatMap Answered.findings ↔ f ∈ bs.flatMap Answered.findings)
    {document : String → Json}
    (hdocument : ∀ f ∈ bs.flatMap Answered.findings, f.hit.document = document f.key) :
    s.Agrees t := by
  refine ⟨fun k => ?_, fun k g h hg hh => ?_, KeySet.ext_mem fun m => ?_, ?_⟩
  · rw [Bool.eq_iff_iff]
    refine (hs.hits.found k).trans (Iff.trans ?_ (ht.hits.found k).symm)
    simp only [hmem]
  · exact (hs.hits.summary k g hg).agrees (ht.hits.summary k h hh) hmem hdocument
  · rw [hs.mem_markers, ht.mem_markers]
    simp only [hmem]
  · refine hs.maxScore.same ht.maxScore fun x => ?_
    rw [List.mem_cons, List.mem_cons, mem_scores_of_honest has, mem_scores_of_honest hbs]
    simp only [hmem]

/-! ### Fixed hits -/

/-- A search with all hits that there are for it. -/
abbrev Stocked := Descriptor × List ScoredHit

namespace Stocked

variable (e : Stocked)

/-- The page for a window of the hits; it tells how many there are in all, and the greatest score on
it. -/
def page (w : Window) : SearchPage :=
  let hits := (e.2.drop w.offset).take w.size
  { total := UInt64.ofNat e.2.length
    maxScore := ScriptedBackend.greatest (hits.map (·.score))
    hits }

/-- The window of all hits within a cap; a cap of zero results means none. -/
def wholeWindow (maxResults : ℕ) : Window :=
  ⟨0, if 0 < maxResults then maxResults else e.2.length⟩

/-- The one page for all hits within a cap. -/
def whole (maxResults : ℕ) : SearchPage := e.page (e.wholeWindow maxResults)

/-- The answer for a window. -/
def answer (w : Window) : Answered := (e.1, e.page w)

theorem mem_hits_page {w : Window} {h : ScoredHit} :
    h ∈ (e.page w).hits ↔ ∃ i, w.Holds i ∧ e.2[i]? = some h := by
  unfold page Window.Holds
  dsimp only
  rw [List.mem_iff_getElem?]
  constructor
  · rintro ⟨j, hj⟩
    rw [List.getElem?_take] at hj
    split_ifs at hj with hlt
    rw [List.getElem?_drop] at hj
    exact ⟨w.offset + j, ⟨by omega, by omega⟩, hj⟩
  · rintro ⟨i, ⟨hle, hlt⟩, hi⟩
    refine ⟨i - w.offset, ?_⟩
    rw [List.getElem?_take, if_pos (by omega), List.getElem?_drop, Nat.add_sub_cancel' hle]
    exact hi

theorem mem_findings_answer {w : Window} {f : Finding} :
    f ∈ (e.answer w).findings ↔ ∃ i h, w.Holds i ∧ e.2[i]? = some h ∧ f = ⟨e.1.label, h⟩ := by
  unfold answer Answered.findings
  rw [List.mem_map]
  constructor
  · rintro ⟨h, hh, rfl⟩
    obtain ⟨i, hi, hget⟩ := e.mem_hits_page.mp hh
    exact ⟨i, h, hi, hget, rfl⟩
  · rintro ⟨i, h, hi, hget, rfl⟩
    exact ⟨h, e.mem_hits_page.mpr ⟨i, hi, hget⟩, rfl⟩

theorem mem_of_greatest {xs : List Binary64} {x : Binary64}
    (h : x ∈ ScriptedBackend.greatest xs) : x ∈ xs := by
  cases xs with
  | nil => cases h
  | cons y ys =>
      rw [← Option.some.inj h]
      exact Binary64.foldl_max_mem y ys

theorem honest_answer (w : Window) : (e.answer w).Honest := by
  intro x hx
  exact List.mem_map.mp (mem_of_greatest hx)

end Stocked

/-- A backend holds fixed hits for some searches: whatever happened before, it answers them with the
pages for the window. -/
def SearchBackend.Serves {σ : Type} (backend : SearchBackend σ) (stock : List Stocked) : Prop :=
  ∀ (w : Window) (world : σ),
    ((backend.search (stock.map (·.1)) w).run world).1 = .ok (stock.map (·.page w))

/-- A hit of some searches that is within a cap on the results. -/
def Wanted (stock : List Stocked) (maxResults : ℕ) (f : Finding) : Prop :=
  ∃ e ∈ stock, ∃ i h, (0 < maxResults → i < maxResults) ∧ e.2[i]? = some h ∧
    f = ⟨e.1.label, h⟩

/-- A result set is the summary of answers that hold exactly the hits within a cap. -/
structure Tells (stock : List Stocked) (maxResults : ℕ) (answers : List Answered)
    (s : ResultSet) : Prop where
  gathers : Gathers answers s
  honest : ∀ a ∈ answers, a.Honest
  findings : ∀ f, f ∈ answers.flatMap Answered.findings ↔ Wanted stock maxResults f

namespace Tells

variable {stock : List Stocked} {maxResults : ℕ} {as bs : List Answered} {s t : ResultSet}

theorem agrees (hs : Tells stock maxResults as s) (ht : Tells stock maxResults bs t)
    {document : String → Json}
    (hdocument : ∀ e ∈ stock, ∀ h ∈ e.2, h.document = document h.identityKey) : s.Agrees t := by
  have hmem (f : Finding) :
      f ∈ as.flatMap Answered.findings ↔ f ∈ bs.flatMap Answered.findings := by
    rw [hs.findings, ht.findings]
  have hfound : ∀ f ∈ bs.flatMap Answered.findings, f.hit.document = document f.key := by
    intro f hf
    obtain ⟨e, he, i, h, -, hget, rfl⟩ := (ht.findings f).mp hf
    exact hdocument e he h (List.mem_of_getElem? hget)
  exact hs.gathers.agrees ht.gathers hs.honest ht.honest hmem hfound

theorem isNaN_score (hs : Tells stock maxResults as s)
    (hnumber : ∀ e ∈ stock, ∀ h ∈ e.2, h.score.isNaN = false) {k : String} {h : ScoredHit}
    (hget : s.get? k = some h) : h.score.isNaN = false := by
  obtain ⟨f, hf, -, hscore, -⟩ := (hs.gathers.hits.summary k h hget).mem
  obtain ⟨e, he, i, found, -, hfound, rfl⟩ := (hs.findings f).mp hf
  rw [hscore]
  exact hnumber e he found (List.mem_of_getElem? hfound)

end Tells

/-! ### Merges of fixed hits -/

theorem ResultSet.addPages_append (s : ResultSet) (as bs : List Answered) :
    s.addPages (as ++ bs) = (s.addPages as).addPages bs := List.foldl_append

section Stock

variable {stock : List Stocked} {maxResults : ℕ}

theorem mergeRound_stock (hsome : stock ≠ []) (s : ResultSet) (page : Stocked → SearchPage) :
    s.mergeRound (stock.map (·.1)) (stock.map page) =
      .ok (ResultSet.largestTotal (stock.map page),
        s.addPages (stock.map fun e => (e.1, page e))) := by
  have hpages : ¬ (stock.map page).isEmpty = true := by simpa using hsome
  have hlength : ¬ (stock.map page).length ≠ (stock.map (·.1)).length := by simp
  rw [ResultSet.mergeRound, if_neg hpages, if_neg hlength, List.zip_map']

theorem length_le_largestTotal {e : Stocked} (he : e ∈ stock) (hlength : e.2.length < UInt32.size)
    (w : Window) : e.2.length ≤ (ResultSet.largestTotal (stock.map (·.page w))).toNat := by
  have htotal : (e.page w).total.toNat = e.2.length := by
    unfold Stocked.page
    exact UInt64.toNat_ofNat_of_lt' (by simp only [UInt32.size, UInt64.size] at *; omega)
  rw [← htotal]
  exact UInt64.le_iff_toNat_le.mp (ResultSet.le_largestTotal (List.mem_map_of_mem he))

/-- Answers for windows that hold the hits within a cap tell of these. -/
theorem Tells.of_windows {answers : List Answered} {windows : Stocked → List Window}
    (hanswers : ∀ a, a ∈ answers ↔ ∃ e ∈ stock, ∃ w ∈ windows e, e.answer w = a)
    (hholds : ∀ e ∈ stock, ∀ i < e.2.length,
      (∃ w ∈ windows e, w.Holds i) ↔ (0 < maxResults → i < maxResults)) :
    Tells stock maxResults answers (ResultSet.empty.addPages answers) := by
  refine ⟨by simpa using Gathers.empty.addPages answers, fun a ha => ?_, fun f => ?_⟩
  · obtain ⟨e, -, w, -, rfl⟩ := (hanswers a).mp ha
    exact e.honest_answer w
  · have hplace {e : Stocked} {i : ℕ} {h : ScoredHit} (hget : e.2[i]? = some h) :
        i < e.2.length := (List.getElem?_eq_some_iff.mp hget).1
    rw [List.mem_flatMap]
    constructor
    · rintro ⟨a, ha, hf⟩
      obtain ⟨e, he, w, hw, rfl⟩ := (hanswers a).mp ha
      obtain ⟨i, h, hi, hget, rfl⟩ := e.mem_findings_answer.mp hf
      exact ⟨e, he, i, h, (hholds e he i (hplace hget)).mp ⟨w, hw, hi⟩, hget, rfl⟩
    · rintro ⟨e, he, i, h, hcap, hget, rfl⟩
      obtain ⟨w, hw, hi⟩ := (hholds e he i (hplace hget)).mpr hcap
      exact ⟨e.answer w, (hanswers _).mpr ⟨e, he, w, hw, rfl⟩,
        e.mem_findings_answer.mpr ⟨i, h, hi, hget, rfl⟩⟩

/-- One merge of all hits within a cap tells of these. -/
theorem tells_whole : Tells stock maxResults (stock.map fun e => (e.1, e.whole maxResults))
    (ResultSet.empty.addPages (stock.map fun e => (e.1, e.whole maxResults))) := by
  have hanswers (a : Answered) : a ∈ (stock.map fun e => (e.1, e.whole maxResults)) ↔
      ∃ e ∈ stock, ∃ w ∈ [e.wholeWindow maxResults], e.answer w = a := by
    simp only [List.mem_map, List.mem_singleton, exists_eq_left]
    rfl
  refine .of_windows hanswers fun e _ i hi => ?_
  simp only [List.mem_singleton, exists_eq_left]
  unfold Window.Holds Stocked.wholeWindow
  dsimp only
  split_ifs with hcap
  · simp [hcap]
  · simp [hcap, hi]

/-- The windows of a run hold the hits within the cap. -/
theorem holds_pagePlan_iff {pageSize maxResults : UInt32} {total : UInt64} (hpage : pageSize ≠ 0)
    {i : ℕ} (htotal : i < total.toNat) (hlimit : i < windowLimit) :
    (∃ w ∈ pagePlan pageSize.toNat maxResults.toNat (pageBound maxResults total).toNat,
      w.Holds i) ↔ (0 < maxResults.toNat → i < maxResults.toNat) := by
  have hbound := toNat_pageBound maxResults total
  have hcap : 0 < maxResults.toNat → (pageBound maxResults total).toNat ≤ maxResults.toNat := by
    intro hpos
    rw [if_pos hpos] at hbound
    omega
  constructor
  · rintro ⟨w, hw, -, hlt⟩ hpos
    rcases List.mem_cons.mp hw with rfl | hw
    · rw [if_pos hpos] at hlt
      dsimp only at hlt
      omega
    · have := (mem_windowsFrom hw).2.2
      have := hcap hpos
      omega
  · intro hin
    refine pagePlan_covers (toNat_pos_of_ne_zero hpage) hcap ?_
    rw [hbound]
    split_ifs with hpos
    · have := hin hpos
      omega
    · omega

/-- The answers for some windows in turn. -/
def answersIn (stock : List Stocked) (ws : List Window) : List Answered :=
  ws.flatMap fun w => stock.map (·.answer w)

theorem answersIn_cons (w : Window) (ws : List Window) :
    answersIn stock (w :: ws) = stock.map (·.answer w) ++ answersIn stock ws := List.flatMap_cons

theorem mem_answersIn {ws : List Window} {a : Answered} :
    a ∈ answersIn stock ws ↔ ∃ e ∈ stock, ∃ w ∈ ws, e.answer w = a := by
  rw [answersIn, List.mem_flatMap]
  simp only [List.mem_map]
  constructor
  · rintro ⟨w, hw, e, he, ha⟩
    exact ⟨e, he, w, hw, ha⟩
  · rintro ⟨e, he, w, hw, ha⟩
    exact ⟨w, hw, e, he, ha⟩

/-- The answers of a run tell of the hits within the cap, if the run goes far enough. -/
theorem tells_pagePlan {pageSize maxResults : UInt32} {total : UInt64} (hpage : pageSize ≠ 0)
    (hlength : ∀ e ∈ stock, e.2.length < UInt32.size)
    (htotal : ∀ e ∈ stock, e.2.length ≤ total.toNat) :
    Tells stock maxResults.toNat
      (answersIn stock
        (pagePlan pageSize.toNat maxResults.toNat (pageBound maxResults total).toNat))
      (ResultSet.empty.addPages (answersIn stock
        (pagePlan pageSize.toNat maxResults.toNat (pageBound maxResults total).toNat))) := by
  refine .of_windows (fun a => mem_answersIn) fun e he i hi => ?_
  have hbound := hlength e he
  have hpast := htotal e he
  have hlimit : i < windowLimit := by
    rw [windowLimit]
    omega
  exact holds_pagePlan_iff hpage (by omega) hlimit

end Stock

/-! ### Runs on fixed hits -/

namespace SearchBackend

variable {σ : Type} {backend : SearchBackend σ} {stock : List Stocked}

theorem run_runRound_stock (hserves : backend.Serves stock) (hsome : stock ≠ []) (s : ResultSet)
    (w : Window) (world : σ) : ∃ next,
    (backend.runRound (stock.map (·.1)) s w).run.run world =
      (.ok (ResultSet.largestTotal (stock.map (·.page w)),
        s.addPages (stock.map (·.answer w))), next) := by
  refine ⟨((backend.search (stock.map (·.1)) w).run world).2, ?_⟩
  rw [run_runRound, hserves, mergeAnswer, mergeRound_stock hsome]
  rfl

/-- The rounds of some windows all succeed and add the answers for each in turn. -/
theorem run_runRounds_stock (hserves : backend.Serves stock) (hsome : stock ≠ [])
    (ws : List Window) (s : ResultSet) (world : σ) : ∃ next,
    (backend.runRounds (stock.map (·.1)) s ws).run.run world =
      (.ok (s.addPages (answersIn stock ws)), next) := by
  induction ws generalizing s world with
  | nil => exact ⟨world, rfl⟩
  | cons w ws ih =>
      obtain ⟨next, hround⟩ := run_runRound_stock hserves hsome s w world
      obtain ⟨last, hrounds⟩ := ih (s.addPages (stock.map (·.answer w))) next
      refine ⟨last, ?_⟩
      rw [runRounds, Step.run_bind, hround]
      dsimp only
      rw [hrounds, answersIn_cons, ResultSet.addPages_append]

/-- A run of a batch succeeds and tells of the hits within the cap. -/
theorem run_execute_stock (hserves : backend.Serves stock) (hsome : stock ≠ [])
    (hlength : ∀ e ∈ stock, e.2.length < UInt32.size) {pageSize : UInt32} (hpage : pageSize ≠ 0)
    (maxResults : UInt32) (world : σ) : ∃ answers s,
    ((backend.execute (stock.map (·.1)) pageSize maxResults).run.run world).1 = .ok s ∧
      Tells stock maxResults.toNat answers s := by
  have hds : ¬ (stock.map (·.1)).isEmpty = true := by simpa using hsome
  obtain ⟨next, hround⟩ :=
    run_runRound_stock hserves hsome .empty (firstWindow pageSize maxResults) world
  generalize hfirst : firstWindow pageSize maxResults = first at hround
  generalize htotal : ResultSet.largestTotal (stock.map (·.page first)) = total at hround
  obtain ⟨last, hrounds⟩ := run_runRounds_stock hserves hsome
    (windowsFrom pageSize.toNat (pageBound maxResults total).toNat pageSize.toNat)
    (ResultSet.empty.addPages (stock.map (·.answer first))) next
  have hplan : first :: windowsFrom pageSize.toNat (pageBound maxResults total).toNat
      pageSize.toNat = pagePlan pageSize.toNat maxResults.toNat
        (pageBound maxResults total).toNat := by
    rw [pagePlan, ← firstWindow_eq, hfirst]
  rw [← runFrom_eq_runRounds, ← ResultSet.addPages_append, ← answersIn_cons, hplan] at hrounds
  have hpast : ∀ e ∈ stock, e.2.length ≤ total.toNat := by
    intro e he
    rw [← htotal]
    exact length_le_largestTotal he (hlength e he) first
  refine ⟨_, _, ?_, tells_pagePlan hpage hlength hpast⟩
  rw [execute, if_neg hds, if_neg hpage, Step.run_bind, hfirst, hround]
  dsimp only
  rw [hrounds]

/-- A backend that holds fixed hits answers a batch, for every page size, as one merge of all hits
within the cap would, if the identity of a hit determines its document and 32 bits hold the number
of hits of each search.  So the page size makes no difference to the answer.  Scores are compared as
numbers; where those of the hits are numbers, those of the answer are. -/
theorem execute_agrees (hserves : backend.Serves stock) (hsome : stock ≠ [])
    (hlength : ∀ e ∈ stock, e.2.length < UInt32.size) (document : String → Json)
    (hdocument : ∀ e ∈ stock, ∀ h ∈ e.2, h.document = document h.identityKey)
    (maxResults : UInt32) :
    ∃ total whole,
      ResultSet.empty.merge (stock.map (·.1)) (stock.map (·.whole maxResults.toNat)) =
        (.ok total, whole) ∧
      ∀ pageSize, pageSize ≠ 0 → ∀ world, ∃ s,
        ((backend.execute (stock.map (·.1)) pageSize maxResults).run.run world).1 = .ok s ∧
        s.Agrees whole ∧
        ((∀ e ∈ stock, ∀ h ∈ e.2, h.score.isNaN = false) →
          ∀ k h, s.get? k = some h → h.score.isNaN = false) ∧
        ∀ pageSize', pageSize' ≠ 0 → ∀ world', ∃ t,
          ((backend.execute (stock.map (·.1)) pageSize' maxResults).run.run world').1 = .ok t ∧
          s.Agrees t := by
  have hwhole := mergeRound_stock hsome .empty (·.whole maxResults.toNat)
  refine ⟨_, _, by rw [ResultSet.merge, hwhole], fun pageSize hpage world => ?_⟩
  obtain ⟨answers, s, hrun, htells⟩ := run_execute_stock hserves hsome hlength hpage maxResults world
  refine ⟨s, hrun, htells.agrees tells_whole hdocument,
    fun hnumber k h => htells.isNaN_score hnumber, fun pageSize' hpage' world' => ?_⟩
  obtain ⟨answers', t, hrun', htells'⟩ :=
    run_execute_stock hserves hsome hlength hpage' maxResults world'
  exact ⟨t, hrun', htells.agrees htells' hdocument⟩

end SearchBackend

/-! ### Scripted hits -/

namespace ScriptedBackend

variable (b : ScriptedBackend)

/-- A search with the hits that are scripted for it. -/
def stocked (d : Descriptor) : Stocked :=
  (d, (b.hitsOf d).map fun h =>
    { identityKey := h.1, score := h.2, document := .obj [("identity_key", .string h.1)] })

theorem page_stocked (d : Descriptor) (w : Window) : (b.stocked d).page w = b.page d w := by
  unfold Stocked.page stocked page
  dsimp only
  rw [List.length_map, ← List.map_drop, ← List.map_take]

/-- A scripted backend that neither fails nor drops its answers holds fixed hits. -/
theorem serves (hfail : b.failOnCall = none) (hdrop : b.dropResponses = false)
    (ds : List Descriptor) : b.backend.Serves (ds.map b.stocked) := by
  intro w calls
  have hsearches : (ds.map b.stocked).map (·.1) = ds := by
    rw [List.map_map]
    exact List.map_id ds
  have hpages : (ds.map b.stocked).map (·.page w) = ds.map fun d => b.page d w := by
    rw [List.map_map]
    exact List.map_congr_left fun d _ => b.page_stocked d w
  rw [hsearches, hpages]
  show b.answer calls.length ds w = _
  rw [answer, hfail, hdrop]
  rfl

theorem document_stocked {ds : List Descriptor} :
    ∀ e ∈ ds.map b.stocked, ∀ h ∈ e.2,
      h.document = .obj [("identity_key", .string h.identityKey)] := by
  intro e he h hh
  obtain ⟨d, -, rfl⟩ := List.mem_map.mp he
  obtain ⟨hit, -, rfl⟩ := List.mem_map.mp hh
  rfl

/-- Three hits of two identities for one search, and one of a third for another. -/
def twoSearches : ScriptedBackend where
  byMarker := .ofList [("A#0", [("k", ⟨0x3FF0000000000000⟩), ("l", .zero),
    ("k", ⟨0x4000000000000000⟩)])]
  unmarked := [("m", .zero)]

end ScriptedBackend

/-- A scripted backend gives the same answer one hit at a time as at once, here up to two results. -/
theorem SearchBackend.execute_agrees_scripted :
    ∃ total whole,
      ResultSet.empty.merge [{ marker := some ⟨"A", 0⟩ }, {}]
        ([{ marker := some ⟨"A", 0⟩ }, {}].map fun d =>
          (ScriptedBackend.twoSearches.stocked d).whole 2) = (.ok total, whole) ∧
      ∃ s, ((ScriptedBackend.twoSearches.backend.execute [{ marker := some ⟨"A", 0⟩ }, {}] 1
        2).run.run []).1 = .ok s ∧ s.Agrees whole := by
  obtain ⟨total, whole, hmerge, hruns⟩ := SearchBackend.execute_agrees
    (ScriptedBackend.twoSearches.serves rfl rfl [{ marker := some ⟨"A", 0⟩ }, {}])
    (List.cons_ne_nil _ _) (by decide) (fun key => .obj [("identity_key", .string key)])
    (ScriptedBackend.document_stocked _) 2
  obtain ⟨s, hrun, hagrees, -⟩ := hruns 1 (by decide) []
  exact ⟨total, whole, hmerge, s, hrun, hagrees⟩

end Lookalike
