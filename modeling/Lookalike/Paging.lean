import Lookalike.Merge

/-! # Paging through the hits of a batch

A batch is run in rounds, each of which asks every search for the same window of its hits.  The
first round tells how far to go: to the largest total reported, but not past a cap nor past what 32
bits can hold.  The later windows follow from that bound (`windowsFrom`), and `runFrom_eq_runRounds`
says that the run goes through them in order; the first failure ends it. -/

namespace Lookalike

/-- The greatest offset that a window may reach. -/
def windowLimit : Nat := UInt32.size - 1

/-- The sum of two words, or the greatest word when it is past that. -/
def saturatingSum (a b : UInt32) : UInt32 := UInt32.ofNat (min (a.toNat + b.toNat) windowLimit)

theorem toNat_saturatingSum (a b : UInt32) :
    (saturatingSum a b).toNat = min (a.toNat + b.toNat) windowLimit :=
  UInt32.toNat_ofNat_of_lt' (by simp only [windowLimit, UInt32.size]; omega)

theorem toNat_min (a b : UInt32) : (min a b).toNat = min a.toNat b.toNat := by
  show (if a ≤ b then a else b).toNat = if a.toNat ≤ b.toNat then a.toNat else b.toNat
  simp only [UInt32.le_iff_toNat_le]
  split <;> rfl

def firstWindow (pageSize maxResults : UInt32) : Window :=
  ⟨0, (if 0 < maxResults then min pageSize maxResults else pageSize).toNat⟩

/-- How far to page, given the largest total. -/
def pageBound (maxResults : UInt32) (total : UInt64) : UInt32 :=
  let bound := if 0 < maxResults then min total maxResults.toUInt64 else total
  UInt32.ofNat (min bound.toNat windowLimit)

theorem toNat_pageBound (maxResults : UInt32) (total : UInt64) :
    (pageBound maxResults total).toNat =
      min (if 0 < maxResults.toNat then min total.toNat maxResults.toNat else total.toNat)
        windowLimit := by
  have hcap : (min total maxResults.toUInt64).toNat = min total.toNat maxResults.toNat := by
    show (if total ≤ maxResults.toUInt64 then total else maxResults.toUInt64).toNat =
      if total.toNat ≤ maxResults.toNat then total.toNat else maxResults.toNat
    rw [← UInt32.toNat_toUInt64 maxResults, ← apply_ite]
    simp only [UInt64.le_iff_toNat_le]
  rw [pageBound, UInt32.toNat_ofNat_of_lt' (by simp only [windowLimit, UInt32.size]; omega)]
  by_cases h : 0 < maxResults
  · have h' : 0 < maxResults.toNat := UInt32.lt_iff_toNat_lt.1 h
    rw [if_pos h, if_pos h', hcap]
  · have h' : ¬ 0 < maxResults.toNat := fun hpos => h (UInt32.lt_iff_toNat_lt.2 hpos)
    rw [if_neg h, if_neg h']

/-- The windows of a page size from an offset up to a bound. -/
def windowsFrom (pageSize bound offset : Nat) : List Window :=
  if 0 < pageSize ∧ offset < bound then
    ⟨offset, min pageSize (bound - offset)⟩ :: windowsFrom pageSize bound (offset + pageSize)
  else []
termination_by bound - offset

namespace SearchBackend

variable {σ : Type}

/-- Runs one round and adds its pages; also the largest total. -/
def runRound (backend : SearchBackend σ) (ds : List Descriptor) (s : ResultSet) (w : Window) :
    Step σ (UInt64 × ResultSet) := do
  let pages ← Step.ask BackendError.toService (backend.search ds w)
  Step.ofExcept ServiceError.aggregation (s.mergeRound ds pages)

/-- Runs the rounds of the windows of a page size from an offset up to a bound and adds their
pages. -/
def runFrom (backend : SearchBackend σ) (ds : List Descriptor) (pageSize bound offset : UInt32)
    (s : ResultSet) : Step σ ResultSet :=
  if 0 < pageSize ∧ offset < bound then do
    let (_, s) ← backend.runRound ds s ⟨offset.toNat, (min pageSize (bound - offset)).toNat⟩
    backend.runFrom ds pageSize bound (saturatingSum offset pageSize) s
  else pure s
termination_by bound.toNat - offset.toNat
decreasing_by
  rename_i h
  have hpage : 0 < pageSize.toNat := UInt32.lt_iff_toNat_lt.1 h.1
  have hoffset : offset.toNat < bound.toNat := UInt32.lt_iff_toNat_lt.1 h.2
  have hbound := bound.toNat_lt_size
  rw [toNat_saturatingSum, windowLimit]
  omega

/-- Runs a batch; a cap of zero results means none. -/
def execute (backend : SearchBackend σ) (ds : List Descriptor) (pageSize maxResults : UInt32) :
    Step σ ResultSet :=
  if ds.isEmpty then pure .empty
  else if pageSize = 0 then throw (.invalidRequest .zeroPageSize)
  else do
    let (total, s) ← backend.runRound ds .empty (firstWindow pageSize maxResults)
    backend.runFrom ds pageSize (pageBound maxResults total) pageSize s

/-! ### Rounds by their windows -/

/-- Runs the rounds of some windows in order and adds their pages. -/
def runRounds (backend : SearchBackend σ) (ds : List Descriptor) (s : ResultSet) :
    List Window → Step σ ResultSet
  | [] => pure s
  | w :: ws => do
      let (_, s) ← backend.runRound ds s w
      backend.runRounds ds s ws

/-- From where a run leaves off no window follows, also where the sum of words would wrap. -/
theorem windowsFrom_saturatingSum (pageSize bound offset : UInt32) :
    windowsFrom pageSize.toNat bound.toNat (saturatingSum offset pageSize).toNat =
      windowsFrom pageSize.toNat bound.toNat (offset.toNat + pageSize.toNat) := by
  have hbound := bound.toNat_lt_size
  rw [toNat_saturatingSum, windowLimit]
  by_cases h : offset.toNat + pageSize.toNat < UInt32.size
  · rw [Nat.min_eq_left (by omega)]
  · rw [windowsFrom, if_neg (by omega), windowsFrom, if_neg (by omega)]

/-- The rounds of a run are those of its windows. -/
theorem runFrom_eq_runRounds (backend : SearchBackend σ) (ds : List Descriptor)
    (pageSize bound offset : UInt32) (s : ResultSet) :
    backend.runFrom ds pageSize bound offset s =
      backend.runRounds ds s (windowsFrom pageSize.toNat bound.toNat offset.toNat) := by
  have hcond (offset : UInt32) : 0 < pageSize.toNat ∧ offset.toNat < bound.toNat ↔
      0 < pageSize ∧ offset < bound := by
    rw [UInt32.lt_iff_toNat_lt, UInt32.lt_iff_toNat_lt]
    rfl
  induction offset, s using runFrom.induct pageSize bound with
  | case1 offset s h ih =>
      have hsize : (min pageSize (bound - offset)).toNat =
          min pageSize.toNat (bound.toNat - offset.toNat) := by
        rw [toNat_min, UInt32.toNat_sub_of_le _ _ (UInt32.le_of_lt h.2)]
      rw [runFrom, windowsFrom, if_pos h, if_pos ((hcond offset).2 h), runRounds, hsize]
      simp only [ih, windowsFrom_saturatingSum]
  | case2 offset s h =>
      rw [runFrom, windowsFrom, if_neg h, if_neg (mt (hcond offset).1 h), runRounds]

end SearchBackend

end Lookalike
