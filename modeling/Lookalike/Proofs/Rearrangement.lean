import Lookalike.Proofs.PageSizes

/-! # Rounds in another order

What a run of merges leaves depends on what was found and reported, not on the order in which it came:
`Rearranged` says which runs find and report the same (`Rearranged.sameHistory`), and two summaries of
the same history are alike up to the documents of equally good hits (`Gathers.alike`).  An answer that
is part of the history adds nothing (`Gathers.addPage_of_mem`).

Main statement: `mergeAll_rearranged`.  Rounds, the answers of a round and the hits of a page may come
in any order, and a round that was merged may be merged again. -/

namespace Lookalike

/-! ### Order -/

/-- A page with its hits in another order. -/
structure SearchPage.Reordered (p q : SearchPage) : Prop where
  total : p.total = q.total
  maxScore : p.maxScore = q.maxScore
  hits : p.hits.Perm q.hits

def Round.ofAnswers (answers : List Answered) : Round := ⟨answers.map (·.1), answers.map (·.2)⟩

/-- The same rounds, with the rounds, the answers of a round, or the hits of its pages in another
order, any number of times. -/
inductive Rearranged : List Round → List Round → Prop where
  | rounds {rs rs' : List Round} (h : rs.Perm rs') : Rearranged rs rs'
  | answers (before after : List Round) {as bs : List Answered} (h : as.Perm bs) :
      Rearranged (before ++ .ofAnswers as :: after) (before ++ .ofAnswers bs :: after)
  | hits (before after : List Round) (ds : List Descriptor) {ps qs : List SearchPage}
      (h : List.Forall₂ SearchPage.Reordered ps qs) :
      Rearranged (before ++ ⟨ds, ps⟩ :: after) (before ++ ⟨ds, qs⟩ :: after)
  | trans {rs rs' rs'' : List Round} (h : Rearranged rs rs') (h' : Rearranged rs' rs'') :
      Rearranged rs rs''

/-! ### Agreement up to order -/

/-- Two words are the same number; the two zeros are. -/
structure Binary64.Equal (x y : Binary64) : Prop where
  left : x.isNaN = false
  right : y.isNaN = false
  place : x.place = y.place

theorem Binary64.Same.equal {x y : Binary64} (h : Same x y) (hx : x.isNaN = false)
    (hy : y.isNaN = false) : Equal x y :=
  ⟨hx, hy, (same_iff_place_eq hx hy).mp h⟩

/-- A finding of an identity that no other exceeds in score. -/
structure Finding.Leads (fs : List Finding) (k : String) (f : Finding) : Prop where
  mem : f ∈ fs
  key : f.key = k
  greatest : ∀ e ∈ fs, e.key = k → f.hit.score.lt e.hit.score = false

/-- Two result sets say the same of some findings: the same identities, with the same markers and
scores, and the same totals.  The documents of an entry are those of findings that lead. -/
structure ResultSet.Alike (fs : List Finding) (s t : ResultSet) : Prop where
  found : ∀ k, s.contains k = t.contains k
  entries : ∀ k g h, s.get? k = some g → t.get? k = some h →
    g.identityKey = h.identityKey ∧ Binary64.Equal g.score h.score ∧ g.markers = h.markers ∧
      ∃ e f, Finding.Leads fs k e ∧ Finding.Leads fs k f ∧ g.document = e.hit.document ∧
        h.document = f.hit.document
  markers : s.markers = t.markers
  maxScore : Binary64.Equal s.maxScore t.maxScore

/-! ### Histories -/

/-- The same was found and the same scores were reported, in whatever order. -/
structure SameHistory (as bs : List Answered) : Prop where
  findings : ∀ f, f ∈ as.flatMap Answered.findings ↔ f ∈ bs.flatMap Answered.findings
  scores : ∀ x, x ∈ as.flatMap Answered.scores ↔ x ∈ bs.flatMap Answered.scores

namespace SameHistory

variable {as bs cs ds : List Answered}

theorem of_mem_iff (h : ∀ a, a ∈ as ↔ a ∈ bs) : SameHistory as bs :=
  ⟨fun f => by simp only [List.mem_flatMap, h], fun x => by simp only [List.mem_flatMap, h]⟩

theorem refl (as : List Answered) : SameHistory as as := .of_mem_iff fun _ => Iff.rfl

theorem trans (h : SameHistory as bs) (h' : SameHistory bs cs) : SameHistory as cs :=
  ⟨fun f => (h.findings f).trans (h'.findings f), fun x => (h.scores x).trans (h'.scores x)⟩

theorem append (h : SameHistory as bs) (h' : SameHistory cs ds) :
    SameHistory (as ++ cs) (bs ++ ds) := by
  refine ⟨fun f => ?_, fun x => ?_⟩
  · rw [List.flatMap_append, List.flatMap_append, List.mem_append, List.mem_append, h.findings,
      h'.findings]
  · rw [List.flatMap_append, List.flatMap_append, List.mem_append, List.mem_append, h.scores,
      h'.scores]

theorem singleton (d : Descriptor) {p q : SearchPage} (h : p.Reordered q) :
    SameHistory [(d, p)] [(d, q)] := by
  refine ⟨fun f => ?_, fun x => ?_⟩
  · rw [List.flatMap_singleton, List.flatMap_singleton]
    exact (h.hits.map _).mem_iff
  · rw [List.flatMap_singleton, List.flatMap_singleton]
    unfold Answered.scores
    dsimp only
    rw [h.maxScore]
    exact ((h.hits.map _).append_left _).mem_iff

theorem zip {ps qs : List SearchPage} (h : List.Forall₂ SearchPage.Reordered ps qs)
    (searches : List Descriptor) : SameHistory (searches.zip ps) (searches.zip qs) := by
  induction h generalizing searches with
  | nil => exact .refl _
  | cons hpage _ ih =>
      cases searches with
      | nil => exact .refl _
      | cons d searches => exact (singleton d hpage).append (ih searches)

end SameHistory

namespace Round

theorem mem_answers {rounds : List Round} {a : Answered} :
    a ∈ answers rounds ↔ ∃ r ∈ rounds, ¬ r.Refused ∧ a ∈ r.searches.zip r.pages := by
  simp [answers, List.mem_flatMap, and_assoc]

theorem answers_append (rounds rounds' : List Round) :
    answers (rounds ++ rounds') = answers rounds ++ answers rounds' := by
  rw [answers, List.filter_append, List.flatMap_append]
  rfl

theorem answers_cons (r : Round) (rounds : List Round) :
    answers (r :: rounds) = answers [r] ++ answers rounds := answers_append [r] rounds

theorem answers_singleton (r : Round) :
    answers [r] = if r.Refused then [] else r.searches.zip r.pages := by
  unfold answers
  split_ifs with h <;> simp [h]

theorem answers_ofAnswers (as : List Answered) : answers [ofAnswers as] = as := by
  have hzip : (ofAnswers as).searches.zip (ofAnswers as).pages = as := by
    unfold ofAnswers
    rw [List.zip_map']
    exact List.map_id as
  rw [answers_singleton, hzip]
  split_ifs with h
  · rcases h with h | h
    · exact (List.map_eq_nil_iff.mp h).symm
    · exact absurd (by simp [ofAnswers]) h
  · rfl

end Round

theorem refused_iff_of_reordered {ps qs : List SearchPage}
    (h : List.Forall₂ SearchPage.Reordered ps qs) (searches : List Descriptor) :
    (⟨searches, ps⟩ : Round).Refused ↔ (⟨searches, qs⟩ : Round).Refused := by
  unfold Round.Refused
  dsimp only
  rw [h.length_eq, ← List.length_eq_zero_iff, ← List.length_eq_zero_iff, h.length_eq]

/-- A round that finds and reports the same may take the place of another. -/
theorem SameHistory.replace {r r' : Round}
    (h : SameHistory (Round.answers [r]) (Round.answers [r'])) (before after : List Round) :
    SameHistory (Round.answers (before ++ r :: after)) (Round.answers (before ++ r' :: after)) := by
  rw [Round.answers_append, Round.answers_append, Round.answers_cons r, Round.answers_cons r']
  exact (SameHistory.refl _).append (h.append (.refl _))

theorem Rearranged.sameHistory {rounds rounds' : List Round} (h : Rearranged rounds rounds') :
    SameHistory (Round.answers rounds) (Round.answers rounds') := by
  induction h with
  | rounds h => exact .of_mem_iff fun a => by simp only [Round.mem_answers, h.mem_iff]
  | answers before after h =>
      refine .replace ?_ before after
      rw [Round.answers_ofAnswers, Round.answers_ofAnswers]
      exact .of_mem_iff fun a => h.mem_iff
  | hits before after searches h =>
      refine .replace ?_ before after
      simp only [Round.answers_singleton, refused_iff_of_reordered h]
      split_ifs
      · exact .refl _
      · exact .zip h searches
  | trans _ _ ih ih' => exact ih.trans ih'

/-! ### Summaries of one history -/

/-- A run of merges from nothing summarizes the answers of its rounds. -/
theorem Round.gathers_answers (rounds : List Round) :
    Gathers (answers rounds) (ResultSet.mergeAll .empty rounds) := by
  simpa using Gathers.empty.mergeAll rounds

theorem Round.isNaN_score_finding {rounds : List Round}
    (hnumber : ∀ r ∈ rounds, ∀ p ∈ r.pages, ∀ hit ∈ p.hits, hit.score.isNaN = false) :
    ∀ f ∈ (answers rounds).flatMap Answered.findings, f.hit.score.isNaN = false := by
  intro f hf
  obtain ⟨a, ha, hf⟩ := List.mem_flatMap.mp hf
  obtain ⟨r, hr, -, ha⟩ := mem_answers.mp ha
  obtain ⟨hit, hhit, rfl⟩ := List.mem_map.mp hf
  exact hnumber r hr a.2 (List.of_mem_zip ha).2 hit hhit

theorem Summarizes.exists_leads {fs : List Finding} {k : String} {h : ScoredHit}
    (hs : Summarizes fs k h) : ∃ f, Finding.Leads fs k f ∧ h.score = f.hit.score ∧
      h.document = f.hit.document := by
  obtain ⟨f, hf, hkey, hscore, hdocument⟩ := hs.mem
  exact ⟨f, ⟨hf, hkey, hscore ▸ hs.greatest⟩, hscore, hdocument⟩

theorem Finding.Leads.of_mem_iff {fs gs : List Finding} {k : String} {f : Finding}
    (hf : Finding.Leads gs k f) (hmem : ∀ f, f ∈ fs ↔ f ∈ gs) : Finding.Leads fs k f :=
  ⟨(hmem f).mpr hf.mem, hf.key, fun e he => hf.greatest e ((hmem e).mp he)⟩

/-- Summaries of one history, in whatever order it came, are alike. -/
theorem Gathers.alike {as bs : List Answered} {s t : ResultSet} (hs : Gathers as s)
    (ht : Gathers bs t) (h : SameHistory as bs)
    (hnumber : ∀ f ∈ as.flatMap Answered.findings, f.hit.score.isNaN = false) :
    s.Alike (as.flatMap Answered.findings) t := by
  constructor
  case found =>
    intro k
    rw [Bool.eq_iff_iff]
    refine (hs.hits.found k).trans (Iff.trans ?_ (ht.hits.found k).symm)
    simp only [h.findings]
  case entries =>
    intro k g e hg he
    have hsummary := hs.hits.summary k g hg
    have hsummary' := ht.hits.summary k e he
    obtain ⟨hkey, hscore, hmarkers⟩ := hsummary.alike hsummary' h.findings
    obtain ⟨d, hd, hdscore, hddocument⟩ := hsummary.exists_leads
    obtain ⟨f, hf, hfscore, hfdocument⟩ := hsummary'.exists_leads
    have hf := hf.of_mem_iff h.findings
    have hequal : Binary64.Equal g.score e.score := by
      apply hscore.equal
      · rw [hdscore]
        exact hnumber d hd.mem
      · rw [hfscore]
        exact hnumber f hf.mem
    exact ⟨hkey, hequal, hmarkers, d, f, hd, hf, hddocument, hfdocument⟩
  case markers =>
    apply KeySet.ext_mem
    intro m
    rw [hs.mem_markers, ht.mem_markers]
    simp only [h.findings]
  case maxScore =>
    have hmax : Binary64.Same s.maxScore t.maxScore := by
      apply hs.maxScore.same ht.maxScore
      intro x
      rw [List.mem_cons, List.mem_cons, h.scores]
    exact hmax.equal hs.maxScore.number ht.maxScore.number

/-! ### Answers that are known -/

theorem ScoredHit.absorb_eq_self {h other : ScoredHit} (hscore : h.score.lt other.score = false)
    (hmarkers : ∀ m ∈ other.markers, m ∈ h.markers) : h.absorb other = h := by
  have hunion : h.markers.union other.markers = h.markers := KeySet.ext_mem fun m => by
    rw [KeySet.mem_union]
    exact or_iff_left_of_imp (hmarkers m)
  unfold absorb
  rw [hunion, hscore]
  rfl

/-- A finding that the entries summarize changes none of them. -/
theorem GathersHits.fileHit_of_mem {fs : List Finding} {hits : KeyMap ScoredHit}
    (h : GathersHits fs hits) {f : Finding} (hf : f ∈ fs) : fileHit hits f.filed = hits := by
  obtain ⟨found, hget⟩ := Option.isSome_iff_exists.mp ((h.found f.key).mpr ⟨f, hf, rfl⟩)
  have hsummary := h.summary f.key found hget
  have habsorb : found.absorb f.filed = found := by
    refine ScoredHit.absorb_eq_self ?_ fun m hm => ?_
    · rw [f.score_filed]
      exact hsummary.greatest f hf rfl
    · exact (hsummary.markers m).mpr ⟨f, hf, rfl, (f.mem_markers_filed m).mp hm⟩
  unfold fileHit
  rw [f.identityKey_filed, hget]
  dsimp only
  rw [habsorb]
  refine KeyMap.ext_get? fun k => ?_
  rw [KeyMap.get?_insert]
  split_ifs with hk
  · rw [hk, hget]
  · rfl

theorem foldl_eq_self {α β : Type} {f : β → α → β} {b : β} {xs : List α}
    (h : ∀ x ∈ xs, f b x = b) : xs.foldl f b = b := by
  induction xs with
  | nil => rfl
  | cons x xs ih =>
      rw [List.foldl_cons, h x List.mem_cons_self]
      exact ih fun y hy => h y (List.mem_cons_of_mem x hy)

/-- An answer that a set summarizes adds nothing to it. -/
theorem Gathers.addPage_of_mem {answers : List Answered} {s : ResultSet} (h : Gathers answers s)
    {a : Answered} (ha : a ∈ answers) : s.addPage a.1.label a.2 = s := by
  have hhits : (s.addPage a.1.label a.2).hits = s.hits := by
    rw [s.hits_addPage a, List.foldl_map]
    exact foldl_eq_self fun f hf => h.hits.fileHit_of_mem (List.mem_flatMap.mpr ⟨a, ha, hf⟩)
  have hmaxScore : (s.addPage a.1.label a.2).maxScore = s.maxScore := by
    rw [s.maxScore_addPage a]
    refine foldl_eq_self fun x hx => Binary64.max_eq_left h.maxScore.number ?_
    exact h.maxScore.bound x (List.mem_cons_of_mem _ (List.mem_flatMap.mpr ⟨a, ha, hx⟩))
  have hmarkers : (s.addPage a.1.label a.2).markers = s.markers := KeySet.ext_mem fun m => by
    rw [s.mem_markers_addPage a, h.markers]
    exact or_iff_left_of_imp fun hm => ⟨a, ha, hm⟩
  calc s.addPage a.1.label a.2
      = ⟨(s.addPage a.1.label a.2).hits, (s.addPage a.1.label a.2).maxScore,
          (s.addPage a.1.label a.2).markers⟩ := rfl
    _ = s := by rw [hhits, hmaxScore, hmarkers]

/-- A round that was merged may be merged again, without any change. -/
theorem merge_mergeAll_of_mem {rounds : List Round} {r : Round} (hr : r ∈ rounds) :
    ((ResultSet.mergeAll .empty rounds).merge r.searches r.pages).2 =
      ResultSet.mergeAll .empty rounds := by
  by_cases hrefused : r.Refused
  · obtain ⟨fault, hmerge⟩ := (ResultSet.mergeAll .empty rounds).merge_of_refused hrefused
    rw [hmerge]
  · rw [ResultSet.merge_of_accepted _ hrefused]
    exact foldl_eq_self fun a ha =>
      (Round.gathers_answers rounds).addPage_of_mem (Round.mem_answers.mpr ⟨r, hr, hrefused, ha⟩)

/-- The order of rounds, of the answers of a round and of the hits of a page makes no difference to the
identities, scores, markers and totals that a run of merges leaves, and to documents only between hits
that lead.  A round that was merged changes nothing when it is merged again. -/
theorem mergeAll_rearranged {rounds rounds' : List Round} (h : Rearranged rounds rounds')
    (hnumber : ∀ r ∈ rounds, ∀ p ∈ r.pages, ∀ hit ∈ p.hits, hit.score.isNaN = false) :
    (ResultSet.mergeAll .empty rounds).Alike ((Round.answers rounds).flatMap Answered.findings)
        (ResultSet.mergeAll .empty rounds') ∧
      ∀ r ∈ rounds, ((ResultSet.mergeAll .empty rounds).merge r.searches r.pages).2 =
        ResultSet.mergeAll .empty rounds := by
  have halike := (Round.gathers_answers rounds).alike (Round.gathers_answers rounds') h.sameHistory
    (Round.isNaN_score_finding hnumber)
  exact ⟨halike, fun r hr => merge_mergeAll_of_mem hr⟩

/-- A page with two hits, in both orders. -/
def twoHits (swapped : Bool) : SearchPage where
  total := 2
  maxScore := some ⟨0x4000000000000000⟩
  hits :=
    let k : ScoredHit := ⟨"k", ⟨0x4000000000000000⟩, .string "first", ∅, none⟩
    let l : ScoredHit := ⟨"l", ⟨0x3FF0000000000000⟩, .null, ∅, none⟩
    if swapped then [l, k] else [k, l]

/-- A page with a hit that is as good as the best of `twoHits` but has another document. -/
def equalHit : SearchPage :=
  { total := 1, hits := [⟨"k", ⟨0x4000000000000000⟩, .string "second", ∅, none⟩] }

/-- Two rounds, of which the first finds an identity again. -/
def secondAfterFirst (swapped : Bool) : List Round :=
  [.ofAnswers [({ marker := some ⟨"A", 0⟩ }, twoHits swapped),
      ({ marker := some ⟨"A", 1⟩ }, equalHit)],
    .ofAnswers [({ marker := some ⟨"A", 1⟩ }, equalHit)]]

/-- Of two rounds the second may come first, and hits of the first may be swapped. -/
theorem mergeAll_rearranged_swapped :
    (ResultSet.mergeAll .empty (secondAfterFirst false)).Alike
        ((Round.answers (secondAfterFirst false)).flatMap Answered.findings)
        (ResultSet.mergeAll .empty (secondAfterFirst true).reverse) ∧
      ∀ r ∈ secondAfterFirst false,
        ((ResultSet.mergeAll .empty (secondAfterFirst false)).merge r.searches r.pages).2 =
          ResultSet.mergeAll .empty (secondAfterFirst false) := by
  have hpages : List.Forall₂ SearchPage.Reordered [twoHits false, equalHit]
      [twoHits true, equalHit] :=
    .cons ⟨rfl, rfl, List.Perm.swap _ _ _⟩ (.cons ⟨rfl, rfl, List.Perm.refl _⟩ .nil)
  have hhits : Rearranged (secondAfterFirst false) (secondAfterFirst true) :=
    .hits [] [.ofAnswers [({ marker := some ⟨"A", 1⟩ }, equalHit)]]
      [{ marker := some ⟨"A", 0⟩ }, { marker := some ⟨"A", 1⟩ }] hpages
  exact mergeAll_rearranged (hhits.trans (.rounds (List.reverse_perm _).symm)) (by decide)

end Lookalike
