import Lookalike.ServiceError

/-! # Merging pages

`ResultSet.mergeRound` adds the pages of one round to a result set: every hit gets the marker of the
search that found it, a marker whose page has hits joins those of the set, and the greatest score
rises to every score that is reported or found.  A round whose pages do not match its searches in
number is refused. -/

namespace Lookalike

/-- The greatest score that a page reports or holds. -/
def SearchPage.greatestScore (p : SearchPage) : Option Binary64 :=
  ScriptedBackend.greatest (p.maxScore.toList ++ p.hits.map (·.score))

/-- The hit as found by the search with a label. -/
def ScoredHit.marked (label : Option String) (h : ScoredHit) : ScoredHit :=
  match label with
  | none => h
  | some label => { h with markers := h.markers.insert label }

namespace ResultSet

/-- Raises the greatest score. -/
def raise (s : ResultSet) (score : Option Binary64) : ResultSet :=
  match score with
  | none => s
  | some score => { s with maxScore := s.maxScore.max score }

/-- Adds a marker. -/
def mark (s : ResultSet) (label : Option String) : ResultSet :=
  match label with
  | none => s
  | some label => { s with markers := s.markers.insert label }

/-- Adds the page of a search with a label. -/
def addPage (s : ResultSet) (label : Option String) (p : SearchPage) : ResultSet :=
  let raised := s.raise p.greatestScore
  if p.hits.isEmpty then raised
  else (p.hits.map (·.marked label)).foldl insert (raised.mark label)

def addPages (s : ResultSet) (pages : List (Descriptor × SearchPage)) : ResultSet :=
  pages.foldl (fun s dp => s.addPage dp.1.label dp.2) s

/-- The largest total that some pages report. -/
def largestTotal (pages : List SearchPage) : UInt64 :=
  pages.foldl (fun largest p => max largest p.total) 0

/-- Adds a round; also the largest total that it reports. -/
def mergeRound (s : ResultSet) (ds : List Descriptor) (pages : List SearchPage) :
    Except MergeFault (UInt64 × ResultSet) :=
  if pages.isEmpty then .error .noResponses
  else if pages.length ≠ ds.length then .error (.countMismatch pages.length ds.length)
  else .ok (largestTotal pages, s.addPages (ds.zip pages))

/-- The answer to a round and the set after it; a refused round leaves the set as it was. -/
def merge (s : ResultSet) (ds : List Descriptor) (pages : List SearchPage) :
    Except MergeFault UInt64 × ResultSet :=
  match s.mergeRound ds pages with
  | .ok (total, merged) => (.ok total, merged)
  | .error e => (.error e, s)

end ResultSet

end Lookalike
