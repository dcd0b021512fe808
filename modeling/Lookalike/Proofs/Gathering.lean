import Lookalike.Proofs.Greatest

/-! # What merged rounds add up to

A result set that has merged some answers holds a summary of their whole history.  `Summarizes` says
what the entry of an identity is, given every hit that was found, and `Gathers` what the set is,
given every answer.  Both are kept by each step of a merge (`GathersHits.add`, `Gathers.addPage`),
hence by whole runs.

Main statement: `mergeAll_gathers`.  A run of merges, of which some may be refused, leaves the summary
of the rounds that were accepted. -/

namespace Lookalike

/-! ### Histories -/

/-- A hit with the label of the search that found it. -/
structure Finding where
  label : Option String
  hit : ScoredHit

namespace Finding

variable (f : Finding)

def key : String := f.hit.identityKey

/-- The hit came with a marker, or the search that found it has it for a label. -/
def Carries (marker : String) : Prop := marker ∈ f.hit.markers ∨ f.label = some marker

/-- The hit as it is filed. -/
def filed : ScoredHit := f.hit.marked f.label

end Finding

/-- A search and the page that answers it. -/
abbrev Answered := Descriptor × SearchPage

def Answered.findings (a : Answered) : List Finding := a.2.hits.map fun h => ⟨a.1.label, h⟩

/-- The scores that an answer reports or holds. -/
def Answered.scores (a : Answered) : List Binary64 := a.2.maxScore.toList ++ a.2.hits.map (·.score)

/-- A round of searches with the pages that answer them. -/
structure Round where
  searches : List Descriptor
  pages : List SearchPage

namespace Round

/-- The pages cannot be told to belong to the searches. -/
def Refused (r : Round) : Prop := r.pages = [] ∨ r.pages.length ≠ r.searches.length

instance (r : Round) : Decidable r.Refused := inferInstanceAs (Decidable (_ ∨ _))

/-- The answers of the rounds that are not refused. -/
def answers (rounds : List Round) : List Answered :=
  (rounds.filter fun r => !decide r.Refused).flatMap fun r => r.searches.zip r.pages

end Round

/-! ### Summaries -/

/-- An entry is the summary of everything found of one identity: it has the greatest score, with the
document that came first with it, and every marker.  What is no number is no score to compare with. -/
structure Summarizes (fs : List Finding) (k : String) (h : ScoredHit) : Prop where
  key : h.identityKey = k
  first : ∃ earlier f later, fs = earlier ++ f :: later ∧ f.key = k ∧
    h.score = f.hit.score ∧ h.document = f.hit.document ∧
    ∀ e ∈ earlier, e.key = k → e.hit.score.isNaN = false → e.hit.score.lt h.score = true
  greatest : ∀ f ∈ fs, f.key = k → h.score.lt f.hit.score = false
  markers : ∀ m, m ∈ h.markers ↔ ∃ f ∈ fs, f.key = k ∧ f.Carries m

/-- Entries are the summaries of everything found, one for each identity. -/
structure GathersHits (fs : List Finding) (hits : KeyMap ScoredHit) : Prop where
  found : ∀ k, hits.contains k = true ↔ ∃ f ∈ fs, f.key = k
  summary : ∀ k h, hits.get? k = some h → Summarizes fs k h

/-- A result set is the summary of some answers: its entries are, it has the labels of the searches
with a hit, and its greatest score is the greatest that was reported or found, or zero. -/
structure Gathers (answers : List Answered) (s : ResultSet) : Prop where
  hits : GathersHits (answers.flatMap Answered.findings) s.hits
  markers : ∀ m, m ∈ s.markers ↔ ∃ a ∈ answers, a.1.label = some m ∧ a.2.hits ≠ []
  maxScore : Binary64.IsMaximum s.maxScore (.zero :: answers.flatMap Answered.scores)

namespace ResultSet

/-- The set after some rounds, refused ones included. -/
def mergeAll (s : ResultSet) (rounds : List Round) : ResultSet :=
  rounds.foldl (fun s r => (s.merge r.searches r.pages).2) s

end ResultSet

/-! ### One hit -/

namespace Finding

variable (f : Finding)

@[simp] theorem identityKey_filed : f.filed.identityKey = f.key := by
  unfold filed ScoredHit.marked
  cases f.label <;> rfl

@[simp] theorem score_filed : f.filed.score = f.hit.score := by
  unfold filed ScoredHit.marked
  cases f.label <;> rfl

@[simp] theorem document_filed : f.filed.document = f.hit.document := by
  unfold filed ScoredHit.marked
  cases f.label <;> rfl

@[simp] theorem mem_markers_filed (m : String) : m ∈ f.filed.markers ↔ f.Carries m := by
  unfold filed ScoredHit.marked Carries
  cases f.label with
  | none => simp
  | some label =>
      show m ∈ f.hit.markers.insert label ↔ _
      rw [KeySet.mem_insert, Option.some.injEq, or_comm, eq_comm]

end Finding

theorem Summarizes.of_new {fs : List Finding} {f : Finding} (hnew : ∀ e ∈ fs, e.key ≠ f.key) :
    Summarizes (fs ++ [f]) f.key f.filed := by
  refine ⟨f.identityKey_filed, ⟨fs, f, [], rfl, rfl, f.score_filed, f.document_filed, ?_⟩, ?_, ?_⟩
  · intro e he hkey
    exact absurd hkey (hnew e he)
  · intro e he hkey
    rcases List.mem_append.mp he with he | he
    · exact absurd hkey (hnew e he)
    · rw [List.mem_singleton.mp he, f.score_filed]
      exact Binary64.lt_self _
  · intro m
    rw [f.mem_markers_filed]
    constructor
    · exact fun hm => ⟨f, List.mem_append_right _ List.mem_cons_self, rfl, hm⟩
    · rintro ⟨e, he, hkey, hm⟩
      rcases List.mem_append.mp he with he | he
      · exact absurd hkey (hnew e he)
      · exact List.mem_singleton.mp he ▸ hm

theorem Summarizes.skip {fs : List Finding} {k : String} {h : ScoredHit} {f : Finding}
    (hs : Summarizes fs k h) (hkey : f.key ≠ k) : Summarizes (fs ++ [f]) k h := by
  obtain ⟨hid, ⟨earlier, e, later, rfl, he⟩, hgreatest, hmarkers⟩ := hs
  refine ⟨hid, ⟨earlier, e, later ++ [f], by simp, he⟩, ?_, ?_⟩
  · intro d hd hk
    rcases List.mem_append.mp hd with hd | hd
    · exact hgreatest d hd hk
    · exact absurd (List.mem_singleton.mp hd ▸ hk) hkey
  · intro m
    rw [hmarkers]
    constructor
    · rintro ⟨d, hd, hk, hm⟩
      exact ⟨d, List.mem_append_left _ hd, hk, hm⟩
    · rintro ⟨d, hd, hk, hm⟩
      rcases List.mem_append.mp hd with hd | hd
      · exact ⟨d, hd, hk, hm⟩
      · exact absurd (List.mem_singleton.mp hd ▸ hk) hkey

theorem mem_markers_absorb {h other : ScoredHit} {m : String} :
    m ∈ (h.absorb other).markers ↔ m ∈ h.markers ∨ m ∈ other.markers := by
  unfold ScoredHit.absorb
  dsimp only
  split_ifs <;> exact KeySet.mem_union

/-- What is found again is absorbed by its summary. -/
theorem Summarizes.absorb {fs : List Finding} {h : ScoredHit} {f : Finding}
    (hs : Summarizes fs f.key h) : Summarizes (fs ++ [f]) f.key (h.absorb f.filed) := by
  obtain ⟨hid, ⟨earlier, e, later, hsplit, hekey, hscore, hdocument, hbelow⟩, hgreatest, hmarkers⟩ :=
    hs
  have hmarkers' (m : String) : m ∈ (h.absorb f.filed).markers ↔
      ∃ d ∈ fs ++ [f], d.key = f.key ∧ d.Carries m := by
    rw [mem_markers_absorb, hmarkers, f.mem_markers_filed]
    simp [or_and_right, exists_or]
  by_cases hlt : h.score.lt f.hit.score = true
  · have habsorb : h.absorb f.filed = { h with
        score := f.hit.score
        document := f.hit.document
        markers := h.markers.union f.filed.markers } := by
      unfold ScoredHit.absorb
      simp [hlt]
    rw [habsorb] at hmarkers' ⊢
    refine ⟨hid, ⟨fs, f, [], rfl, rfl, rfl, rfl, ?_⟩, ?_, hmarkers'⟩
    · intro d hd hk hnumber
      exact Binary64.lt_of_le_of_lt hnumber (hgreatest d hd hk) hlt
    · intro d hd hk
      rcases List.mem_append.mp hd with hd | hd
      · by_contra hcontra
        have hexceeds := eq_true_of_ne_false hcontra
        have hhigher := Binary64.lt_trans hlt hexceeds
        rw [hgreatest d hd hk] at hhigher
        cases hhigher
      · rw [List.mem_singleton.mp hd]
        exact Binary64.lt_self _
  · have hlt := eq_false_of_ne_true hlt
    have habsorb : h.absorb f.filed = { h with markers := h.markers.union f.filed.markers } := by
      unfold ScoredHit.absorb
      simp [hlt]
    rw [habsorb] at hmarkers' ⊢
    refine ⟨hid, ⟨earlier, e, later ++ [f], by simp [hsplit], hekey, hscore, hdocument, hbelow⟩, ?_,
      hmarkers'⟩
    intro d hd hk
    rcases List.mem_append.mp hd with hd | hd
    · exact hgreatest d hd hk
    · rw [List.mem_singleton.mp hd]
      exact hlt

/-- The entries after a hit is filed among them. -/
def fileHit (hits : KeyMap ScoredHit) (h : ScoredHit) : KeyMap ScoredHit :=
  hits.insert h.identityKey <|
    match hits.get? h.identityKey with
    | some found => found.absorb h
    | none => h

theorem GathersHits.empty : GathersHits [] ∅ := by
  refine ⟨fun k => ?_, fun k h hget => ?_⟩
  · simp [KeyMap.contains, KeyMap.get?_empty]
  · rw [KeyMap.get?_empty] at hget
    cases hget

theorem GathersHits.get?_eq_none {fs : List Finding} {hits : KeyMap ScoredHit}
    (h : GathersHits fs hits) {k : String} (hnone : hits.get? k = none) : ∀ f ∈ fs, f.key ≠ k := by
  intro f hf hkey
  have := (h.found k).mpr ⟨f, hf, hkey⟩
  rw [KeyMap.contains, hnone] at this
  cases this

/-- Filing a hit adds it to what the entries summarize. -/
theorem GathersHits.add {fs : List Finding} {hits : KeyMap ScoredHit} (h : GathersHits fs hits)
    (f : Finding) : GathersHits (fs ++ [f]) (fileHit hits f.filed) := by
  obtain ⟨entry, hentry, hsummary⟩ : ∃ entry,
      fileHit hits f.filed = hits.insert f.key entry ∧
        Summarizes (fs ++ [f]) f.key entry := by
    unfold fileHit
    rw [f.identityKey_filed]
    cases hget : hits.get? f.key with
    | none => exact ⟨f.filed, rfl, .of_new (h.get?_eq_none hget)⟩
    | some found => exact ⟨found.absorb f.filed, rfl, (h.summary f.key found hget).absorb⟩
  rw [hentry]
  refine ⟨fun k => ?_, fun k e hget => ?_⟩
  · rw [KeyMap.contains, KeyMap.get?_insert]
    by_cases hk : k = f.key
    · simp [hk]
    · have hk' : f.key ≠ k := fun he => hk he.symm
      have hfound : (hits.get? k).isSome = true ↔ ∃ e ∈ fs, e.key = k := h.found k
      simp [hk, hk', hfound]
  · rw [KeyMap.get?_insert] at hget
    split_ifs at hget with hk
    · rw [hk, ← Option.some.inj hget]
      exact hsummary
    · exact (h.summary k e hget).skip fun he => hk he.symm

theorem GathersHits.foldl {fs : List Finding} {hits : KeyMap ScoredHit} (h : GathersHits fs hits)
    (gs : List Finding) :
    GathersHits (fs ++ gs) ((gs.map Finding.filed).foldl fileHit hits) := by
  induction gs generalizing fs hits with
  | nil => simpa using h
  | cons g gs ih =>
      have := ih (h.add g)
      rwa [List.append_assoc, List.singleton_append] at this

/-! ### One answer -/

namespace ResultSet

variable (s : ResultSet)

theorem foldl_insert (hs : List ScoredHit) :
    hs.foldl insert s = { s with hits := hs.foldl fileHit s.hits } := by
  induction hs generalizing s with
  | nil => rfl
  | cons h hs ih =>
      rw [List.foldl_cons, ih]
      rfl

theorem hits_raise (score : Option Binary64) : (s.raise score).hits = s.hits := by
  cases score <;> rfl

theorem markers_raise (score : Option Binary64) : (s.raise score).markers = s.markers := by
  cases score <;> rfl

theorem hits_mark (label : Option String) : (s.mark label).hits = s.hits := by
  cases label <;> rfl

theorem maxScore_mark (label : Option String) : (s.mark label).maxScore = s.maxScore := by
  cases label <;> rfl

theorem mem_markers_mark (label : Option String) (m : String) :
    m ∈ (s.mark label).markers ↔ m ∈ s.markers ∨ label = some m := by
  cases label with
  | none => simp [mark]
  | some l =>
      show m ∈ s.markers.insert l ↔ _
      rw [KeySet.mem_insert, Option.some.injEq, or_comm, eq_comm]

/-- Raising to the greatest of some scores is raising to each in turn. -/
theorem maxScore_raise_greatest (xs : List Binary64) :
    (s.raise (ScriptedBackend.greatest xs)).maxScore = xs.foldl Binary64.max s.maxScore := by
  cases xs with
  | nil => rfl
  | cons x xs =>
      show s.maxScore.max (xs.foldl Binary64.max x) = _
      rw [Binary64.max_foldl, List.foldl_cons]

variable (a : Answered)

theorem hits_addPage :
    (s.addPage a.1.label a.2).hits = (a.findings.map Finding.filed).foldl fileHit s.hits := by
  have hfiled : a.findings.map Finding.filed = a.2.hits.map (·.marked a.1.label) := by
    rw [Answered.findings, List.map_map]
    rfl
  unfold addPage
  dsimp only
  split_ifs with hnone
  · rw [hfiled, List.isEmpty_iff.mp hnone, hits_raise]
    rfl
  · rw [foldl_insert, hfiled, hits_mark, hits_raise]

theorem maxScore_addPage :
    (s.addPage a.1.label a.2).maxScore = a.scores.foldl Binary64.max s.maxScore := by
  have hraise : (s.raise a.2.greatestScore).maxScore = a.scores.foldl Binary64.max s.maxScore :=
    maxScore_raise_greatest s a.scores
  unfold addPage
  dsimp only
  split_ifs
  · exact hraise
  · rw [foldl_insert, maxScore_mark, hraise]

theorem mem_markers_addPage (m : String) :
    m ∈ (s.addPage a.1.label a.2).markers ↔
      m ∈ s.markers ∨ (a.1.label = some m ∧ a.2.hits ≠ []) := by
  unfold addPage
  dsimp only
  split_ifs with hnone
  · rw [markers_raise, List.isEmpty_iff.mp hnone]
    simp
  · have hne : a.2.hits ≠ [] := fun he => hnone (List.isEmpty_iff.mpr he)
    rw [foldl_insert, mem_markers_mark, markers_raise]
    simp [hne]

end ResultSet

theorem Gathers.empty : Gathers [] .empty :=
  ⟨.empty, fun m => by simp [KeySet.not_mem_empty, ResultSet.empty], ⟨List.mem_cons_self, rfl, by
    intro x hx
    rw [List.mem_singleton.mp hx]
    exact Binary64.lt_self _⟩⟩

/-- Adding the page of a search adds the answer to what the set summarizes. -/
theorem Gathers.addPage {answers : List Answered} {s : ResultSet} (h : Gathers answers s)
    (a : Answered) : Gathers (answers ++ [a]) (s.addPage a.1.label a.2) := by
  obtain ⟨hhits, hmarkers, hmax⟩ := h
  refine ⟨?_, fun m => ?_, ?_⟩
  · rw [s.hits_addPage a, List.flatMap_append, List.flatMap_singleton]
    exact hhits.foldl a.findings
  · rw [s.mem_markers_addPage a, hmarkers]
    simp [or_and_right, exists_or]
  · rw [s.maxScore_addPage a, List.flatMap_append, List.flatMap_singleton, ← List.cons_append]
    exact hmax.foldl a.scores

theorem Gathers.addPages {answers : List Answered} {s : ResultSet} (h : Gathers answers s)
    (more : List Answered) : Gathers (answers ++ more) (s.addPages more) := by
  induction more generalizing answers s with
  | nil =>
      rw [List.append_nil]
      exact h
  | cons a more ih =>
      have := ih (h.addPage a)
      rwa [List.append_assoc, List.singleton_append] at this

/-! ### Runs -/

namespace ResultSet

variable (s : ResultSet)

theorem merge_of_refused {r : Round} (h : r.Refused) :
    ∃ fault, s.merge r.searches r.pages = (.error fault, s) := by
  unfold merge mergeRound
  by_cases hnone : r.pages = []
  · exact ⟨.noResponses, by simp [hnone]⟩
  · have hlen : r.pages.length ≠ r.searches.length := h.resolve_left hnone
    exact ⟨.countMismatch r.pages.length r.searches.length, by simp [hnone, hlen]⟩

theorem merge_of_accepted {r : Round} (h : ¬ r.Refused) :
    s.merge r.searches r.pages =
      (.ok (largestTotal r.pages), s.addPages (r.searches.zip r.pages)) := by
  obtain ⟨hnone, hlen⟩ := not_or.mp h
  have hlen : r.pages.length = r.searches.length := not_not.mp hlen
  unfold merge mergeRound
  simp [hnone, hlen]

theorem max_total (a b : UInt64) : (max a b = a ∨ max a b = b) ∧ a ≤ max a b ∧ b ≤ max a b := by
  have hmax : max a b = if a ≤ b then b else a := rfl
  rw [hmax]
  split_ifs with h
  · exact ⟨Or.inr rfl, h, UInt64.le_refl b⟩
  · exact ⟨Or.inl rfl, UInt64.le_refl a, (UInt64.le_total a b).resolve_left h⟩

theorem foldl_max_total (pages : List SearchPage) (t : UInt64) :
    (pages.foldl (fun largest p => max largest p.total) t = t ∨
        ∃ p ∈ pages, p.total = pages.foldl (fun largest p => max largest p.total) t) ∧
      t ≤ pages.foldl (fun largest p => max largest p.total) t ∧
      ∀ p ∈ pages, p.total ≤ pages.foldl (fun largest p => max largest p.total) t := by
  induction pages generalizing t with
  | nil => simp
  | cons p pages ih =>
      obtain ⟨hchoice, hstart, hall⟩ := ih (max t p.total)
      obtain ⟨hmax, hleft, hright⟩ := max_total t p.total
      rw [List.foldl_cons]
      refine ⟨?_, UInt64.le_trans hleft hstart, fun q hq => ?_⟩
      · rcases hchoice with he | ⟨q, hq, he⟩
        · rw [he]
          exact hmax.imp_right fun hp => ⟨p, List.mem_cons_self, hp.symm⟩
        · exact Or.inr ⟨q, List.mem_cons_of_mem _ hq, he⟩
      · rcases List.mem_cons.mp hq with rfl | hq
        · exact UInt64.le_trans hright hstart
        · exact hall q hq

theorem le_largestTotal {pages : List SearchPage} {p : SearchPage} (hp : p ∈ pages) :
    p.total ≤ largestTotal pages := (foldl_max_total pages 0).2.2 p hp

theorem largestTotal_mem {pages : List SearchPage} (hne : pages ≠ []) :
    ∃ p ∈ pages, p.total = largestTotal pages := by
  obtain ⟨p, hp⟩ := List.exists_mem_of_ne_nil pages hne
  rcases (foldl_max_total pages 0).1 with hzero | hfound
  · refine ⟨p, hp, UInt64.le_antisymm (le_largestTotal hp) ?_⟩
    rw [largestTotal, hzero]
    exact UInt64.zero_le
  · exact hfound

end ResultSet

theorem Gathers.mergeAll {answers : List Answered} {s : ResultSet} (h : Gathers answers s)
    (rounds : List Round) : Gathers (answers ++ Round.answers rounds) (s.mergeAll rounds) := by
  induction rounds generalizing answers s with
  | nil =>
      rw [Round.answers, List.filter_nil, List.flatMap_nil, List.append_nil]
      exact h
  | cons r rounds ih =>
      rw [ResultSet.mergeAll, List.foldl_cons, ← ResultSet.mergeAll]
      by_cases hr : r.Refused
      · obtain ⟨fault, hmerge⟩ := s.merge_of_refused hr
        have hanswers : Round.answers (r :: rounds) = Round.answers rounds := by
          simp [Round.answers, hr]
        rw [hmerge, hanswers]
        exact ih h
      · have hanswers : Round.answers (r :: rounds) =
            r.searches.zip r.pages ++ Round.answers rounds := by
          simp [Round.answers, hr]
        rw [s.merge_of_accepted hr, hanswers, ← List.append_assoc]
        exact ih (h.addPages _)

/-- A merge is refused exactly if its pages do not match the searches in number or there are none,
and then changes nothing; any other is answered by the largest total of its pages.  A run of merges
from the empty set leaves the summary of the rounds that were accepted. -/
theorem mergeAll_gathers (rounds : List Round) :
    (∀ (s : ResultSet) (r : Round),
      (r.Refused → ∃ fault, s.merge r.searches r.pages = (.error fault, s)) ∧
      (¬ r.Refused → ∃ total, (s.merge r.searches r.pages).1 = .ok total ∧
        (∃ p ∈ r.pages, p.total = total) ∧ ∀ p ∈ r.pages, p.total ≤ total)) ∧
    Gathers (Round.answers rounds) (ResultSet.mergeAll .empty rounds) := by
  refine ⟨fun s r => ⟨s.merge_of_refused, fun hr => ?_⟩, ?_⟩
  · refine ⟨ResultSet.largestTotal r.pages, by rw [s.merge_of_accepted hr], ?_,
      fun p hp => ResultSet.le_largestTotal hp⟩
    exact ResultSet.largestTotal_mem (not_or.mp hr).1
  · simpa using Gathers.empty.mergeAll rounds

end Lookalike
