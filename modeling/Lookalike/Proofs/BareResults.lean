import Lookalike.Proofs.Steps
import Lookalike.Service

/-! # Results without documents

Matching carries the documents of hits along and never looks into them.  `ResultSet.bare` forgets them,
and every step of a search does the same with bare hits as with whole ones: merging pages, running the
rounds of a batch and dropping the hits that do not survive.  So searches whose pages differ in nothing
but documents find the same identities.

Main statement: `DuplicateService.run_bare`. -/

namespace Lookalike

/-! ### Changed values of a map -/

theorem lookup_map_values {α β : Type} (f : α → β) (es : List (String × α)) (k : String) :
    (es.map fun e => (e.1, f e.2)).lookup k = (es.lookup k).map f := by
  induction es with
  | nil => rfl
  | cons e es ih =>
      rw [List.map_cons, lookup_cons_ite, lookup_cons_ite, ih]
      split_ifs <;> rfl

namespace KeyMap

variable {α β : Type}

def mapValues (f : α → β) (m : KeyMap α) : KeyMap β where
  entries := m.entries.map fun e => (e.1, f e.2)
  increasing := by
    rw [KeysIncrease, List.pairwise_map]
    exact m.increasing

theorem get?_mapValues (f : α → β) (m : KeyMap α) (k : String) :
    (m.mapValues f).get? k = (m.get? k).map f := lookup_map_values f m.entries k

theorem mapValues_insert (f : α → β) (m : KeyMap α) (k : String) (v : α) :
    (m.insert k v).mapValues f = (m.mapValues f).insert k (f v) := by
  refine ext_get? fun k' => ?_
  rw [get?_mapValues, get?_insert, get?_insert, get?_mapValues]
  split_ifs <;> rfl

end KeyMap

/-! ### Bare hits -/

def ScoredHit.mapDocument (f : Json → Json) (h : ScoredHit) : ScoredHit :=
  { h with document := f h.document }

/-- The hit without its document. -/
def ScoredHit.bare (h : ScoredHit) : ScoredHit := h.mapDocument fun _ => .null

def SearchPage.mapDocuments (f : Json → Json) (p : SearchPage) : SearchPage :=
  { p with hits := p.hits.map (·.mapDocument f) }

def SearchPage.bare (p : SearchPage) : SearchPage := p.mapDocuments fun _ => .null

/-- The result set without documents. -/
def ResultSet.bare (s : ResultSet) : ResultSet := { s with hits := s.hits.mapValues ScoredHit.bare }

namespace ScoredHit

theorem bare_marked (label : Option String) (h : ScoredHit) :
    (h.marked label).bare = h.bare.marked label := by
  cases label <;> rfl

theorem bare_absorb (h other : ScoredHit) : (h.absorb other).bare = h.bare.absorb other.bare := by
  have hscore : h.bare.score.lt other.bare.score = h.score.lt other.score := rfl
  rw [absorb, absorb, hscore]
  split_ifs <;> rfl

end ScoredHit

theorem SearchPage.bare_mapDocuments (f : Json → Json) (p : SearchPage) :
    (p.mapDocuments f).bare = p.bare := by
  simp only [bare, mapDocuments, List.map_map]
  rfl

theorem SearchPage.greatestScore_bare (p : SearchPage) : p.bare.greatestScore = p.greatestScore := by
  have hscores : p.bare.hits.map (·.score) = p.hits.map (·.score) := by
    rw [bare, mapDocuments, List.map_map]
    rfl
  rw [greatestScore, greatestScore, hscores]
  rfl

/-! ### Merging bare pages -/

namespace ResultSet

variable (s : ResultSet)

theorem bare_insert (h : ScoredHit) : (s.insert h).bare = s.bare.insert h.bare := by
  have hkey : h.bare.identityKey = h.identityKey := rfl
  have hfound : s.bare.hits.get? h.identityKey = (s.hits.get? h.identityKey).map ScoredHit.bare :=
    KeyMap.get?_mapValues _ _ _
  rw [insert, insert, hkey, hfound, bare, KeyMap.mapValues_insert]
  cases s.hits.get? h.identityKey with
  | none => rfl
  | some found =>
      simp only [Option.map_some, ScoredHit.bare_absorb]
      rfl

theorem bare_foldl_insert (hits : List ScoredHit) :
    (hits.foldl insert s).bare = (hits.map ScoredHit.bare).foldl insert s.bare := by
  induction hits generalizing s with
  | nil => rfl
  | cons h hits ih => rw [List.foldl_cons, ih, bare_insert, List.map_cons, List.foldl_cons]

theorem bare_raise (score : Option Binary64) : (s.raise score).bare = s.bare.raise score := by
  cases score <;> rfl

theorem bare_mark (label : Option String) : (s.mark label).bare = s.bare.mark label := by
  cases label <;> rfl

theorem bare_addPage (label : Option String) (p : SearchPage) :
    (s.addPage label p).bare = s.bare.addPage label p.bare := by
  have hempty : p.bare.hits.isEmpty = p.hits.isEmpty := List.isEmpty_map
  have hmarked : (p.hits.map (·.marked label)).map ScoredHit.bare =
      p.bare.hits.map (·.marked label) := by
    simp only [SearchPage.bare, SearchPage.mapDocuments, List.map_map]
    exact List.map_congr_left fun h _ => ScoredHit.bare_marked label h
  simp only [addPage, hempty, SearchPage.greatestScore_bare]
  split_ifs
  · rw [bare_raise]
  · rw [bare_foldl_insert, hmarked, bare_mark, bare_raise]

theorem bare_addPages (ds : List Descriptor) (pages : List SearchPage) :
    (s.addPages (ds.zip pages)).bare = s.bare.addPages (ds.zip (pages.map (·.bare))) := by
  induction ds generalizing s pages with
  | nil => rfl
  | cons d ds ih =>
      cases pages with
      | nil => rfl
      | cons p pages =>
          have hstep := ih (s.addPage d.label p) pages
          rw [bare_addPage] at hstep
          exact hstep

theorem largestTotal_bare (pages : List SearchPage) :
    largestTotal (pages.map (·.bare)) = largestTotal pages := by
  rw [largestTotal, List.foldl_map]
  rfl

/-- Bare pages are merged, or refused, as whole ones are. -/
theorem mergeRound_bare (ds : List Descriptor) (pages : List SearchPage) :
    s.bare.mergeRound ds (pages.map (·.bare)) =
      (s.mergeRound ds pages).map fun merged => (merged.1, merged.2.bare) := by
  rw [mergeRound, mergeRound, List.isEmpty_map, List.length_map]
  split_ifs
  · rfl
  · rfl
  · rw [largestTotal_bare, ← bare_addPages]
    rfl

end ResultSet

/-! ### Running batches with bare pages -/

namespace Step

variable {σ α β ε : Type} (toService : ε → ServiceError)

theorem ask_map (f : α → β) (question : StateM σ (Except ε α)) :
    (ask toService ((fun answer => answer.map f) <$> question) : Step σ β) =
      f <$> ask toService question := by
  refine ext fun world => ?_
  have hask : (ask toService question).run.run world =
      ((question.run world).1.mapError toService, (question.run world).2) := rfl
  rw [map_eq_pure_bind f, run_bind, hask]
  show (((question.run world).1.map f).mapError toService, (question.run world).2) = _
  cases (question.run world).1 <;> rfl

theorem ofExcept_map (f : α → β) (result : Except ε α) :
    (ofExcept toService (result.map f) : Step σ β) = f <$> ofExcept toService result := by
  cases result <;> rfl

end Step

namespace SearchBackend

variable {σ : Type} (backend : SearchBackend σ) (ds : List Descriptor)

/-- The backend with its documents left out. -/
def bare : SearchBackend σ where
  search ds w := (fun answer => answer.map (List.map SearchPage.bare)) <$> backend.search ds w

theorem runRound_bare (s : ResultSet) (w : Window) :
    backend.bare.runRound ds s.bare w =
      (fun merged => (merged.1, merged.2.bare)) <$> backend.runRound ds s w := by
  simp only [runRound, bare, Step.ask_map, bind_map_left, map_bind, ResultSet.mergeRound_bare,
    Step.ofExcept_map]

theorem runRounds_bare (s : ResultSet) (ws : List Window) :
    backend.bare.runRounds ds s.bare ws = ResultSet.bare <$> backend.runRounds ds s ws := by
  induction ws generalizing s with
  | nil => rfl
  | cons w ws ih => simp only [runRounds, runRound_bare, bind_map_left, map_bind, ih]

theorem execute_bare (pageSize maxResults : UInt32) :
    backend.bare.execute ds pageSize maxResults =
      ResultSet.bare <$> backend.execute ds pageSize maxResults := by
  have hempty : ResultSet.empty.bare = .empty := rfl
  unfold execute
  split_ifs
  · rfl
  · rfl
  · rw [← hempty, runRound_bare]
    simp only [bind_map_left, map_bind, runFrom_eq_runRounds, runRounds_bare, hempty]

end SearchBackend

/-! ### Bare survivors -/

namespace ResultSet

variable {σ : Type} (state : IdentityState σ) (base ruleCode : Option String)

theorem bare_addSurvivor (s : ResultSet) (h : ScoredHit) :
    (s.addSurvivor ruleCode h).bare = s.bare.addSurvivor ruleCode h.bare := by
  rw [addSurvivor, addSurvivor, bare_insert]
  rfl

theorem addSurvivors_bare (s : ResultSet) (entries : List (String × ScoredHit)) :
    addSurvivors state base ruleCode s.bare (entries.map fun e => (e.1, e.2.bare)) =
      bare <$> addSurvivors state base ruleCode s entries := by
  induction entries generalizing s with
  | nil => rfl
  | cons e entries ih =>
      rw [List.map_cons, addSurvivors, addSurvivors, map_bind]
      refine bind_congr fun dropped => ?_
      rw [← ih]
      cases dropped with
      | true => rfl
      | false => simp only [Bool.false_eq_true, if_false, bare_addSurvivor]

theorem survivors_bare (results : ResultSet) :
    results.bare.survivors state base ruleCode =
      bare <$> results.survivors state base ruleCode :=
  addSurvivors_bare state base ruleCode .empty results.hits.toList

end ResultSet

/-- A service whose backend leaves documents out finds the same identities, with the same scores and
markers. -/
theorem DuplicateService.run_bare {σ : Type} (s : DuplicateService σ) (ds : List Descriptor)
    (base ruleCode : Option String) (maxResults : UInt32) :
    { s with backend := s.backend.bare }.run ds base ruleCode maxResults =
      ResultSet.bare <$> s.run ds base ruleCode maxResults := by
  have hcap : { s with backend := s.backend.bare }.cap maxResults = s.cap maxResults := rfl
  simp only [run, hcap, SearchBackend.execute_bare, bind_map_left, map_bind,
    ResultSet.survivors_bare]

end Lookalike
