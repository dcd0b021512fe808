import Lookalike.Paging
import Mathlib.Algebra.Order.Floor.Div
import Mathlib.Data.List.Chain

/-! # The windows of a run

`PagesThrough` says which windows page through the hits of a batch up to a bound: how many there are,
where each begins and how long it is, and what follows from that for all of them together.

Main statement: `pagesThrough_pagePlan`.  The first window and those of `windowsFrom` are such, for
every page size and every bound that the cap allows and 32 bits can hold. -/

namespace Lookalike

/-- A hit has its place in a window. -/
def Window.Holds (w : Window) (i : ℕ) : Prop := w.offset ≤ i ∧ i < w.offset + w.size

/-- Windows of a page size up to a bound: one for every page begun, but at least one.  They follow
each other without gap or overlap, hold every hit below the bound, ask for no more hits than a cap
allows, and stay within 32 bits. -/
structure PagesThrough (pageSize maxResults bound : ℕ) (ws : List Window) : Prop where
  count : ws.length = max 1 (bound ⌈/⌉ pageSize)
  first : ws[0]? = some ⟨0, if 0 < maxResults then min pageSize maxResults else pageSize⟩
  later : ∀ i, 0 < i → i < ws.length →
    ws[i]? = some ⟨i * pageSize, min pageSize (bound - i * pageSize)⟩
  positive : ∀ w ∈ ws, 0 < w.size
  contiguous : ws.IsChain fun v w => v.offset + v.size = w.offset
  apart : ws.Pairwise fun v w => v.offset + v.size ≤ w.offset
  covers : ∀ i < bound, ∃ w ∈ ws, w.Holds i
  capped : 0 < maxResults → (ws.map (·.size)).sum ≤ maxResults
  fits : ∀ w ∈ ws, w.offset + w.size < UInt32.size

/-! ### Windows from an offset -/

section windowsFrom

variable {pageSize bound offset : ℕ}

theorem windowsFrom_of_lt (hpage : 0 < pageSize) (h : offset < bound) :
    windowsFrom pageSize bound offset =
      ⟨offset, min pageSize (bound - offset)⟩ ::
        windowsFrom pageSize bound (offset + pageSize) := by
  rw [windowsFrom, if_pos ⟨hpage, h⟩]

theorem windowsFrom_of_ge (h : bound ≤ offset) : windowsFrom pageSize bound offset = [] := by
  rw [windowsFrom, if_neg (by omega)]

theorem mem_windowsFrom {w : Window} (h : w ∈ windowsFrom pageSize bound offset) :
    0 < w.size ∧ offset ≤ w.offset ∧ w.offset + w.size ≤ bound := by
  induction offset using windowsFrom.induct pageSize bound with
  | case1 offset hlt ih =>
      rw [windowsFrom_of_lt hlt.1 hlt.2] at h
      rcases List.mem_cons.mp h with rfl | h
      · dsimp only
        omega
      · obtain ⟨hsize, hoffset, hend⟩ := ih h
        exact ⟨hsize, by omega, hend⟩
  | case2 offset hge =>
      rw [windowsFrom, if_neg hge] at h
      cases h

theorem windowsFrom_covers (hpage : 0 < pageSize) {i : ℕ} (hi : offset ≤ i) (hb : i < bound) :
    ∃ w ∈ windowsFrom pageSize bound offset, w.Holds i := by
  induction offset using windowsFrom.induct pageSize bound with
  | case1 offset hlt ih =>
      rw [windowsFrom_of_lt hlt.1 hlt.2]
      rcases Nat.lt_or_ge i (offset + pageSize) with hin | hout
      · refine ⟨_, List.mem_cons_self, hi, ?_⟩
        dsimp only
        omega
      · obtain ⟨w, hw, hholds⟩ := ih hout
        exact ⟨w, List.mem_cons_of_mem _ hw, hholds⟩
  | case2 offset hge => omega

theorem windowsFrom_apart : (windowsFrom pageSize bound offset).Pairwise
    fun v w => v.offset + v.size ≤ w.offset := by
  induction offset using windowsFrom.induct pageSize bound with
  | case1 offset hlt ih =>
      rw [windowsFrom_of_lt hlt.1 hlt.2]
      refine List.pairwise_cons.mpr ⟨fun w hw => ?_, ih⟩
      have := (mem_windowsFrom hw).2.1
      dsimp only
      omega
  | case2 offset hge =>
      rw [windowsFrom, if_neg hge]
      exact List.Pairwise.nil

theorem windowsFrom_contiguous : (windowsFrom pageSize bound offset).IsChain
    fun v w => v.offset + v.size = w.offset := by
  induction offset using windowsFrom.induct pageSize bound with
  | case1 offset hlt ih =>
      rw [windowsFrom_of_lt hlt.1 hlt.2]
      rcases Nat.lt_or_ge (offset + pageSize) bound with hmore | hdone
      · rw [windowsFrom_of_lt hlt.1 hmore] at ih ⊢
        refine List.isChain_cons_cons.mpr ⟨?_, ih⟩
        dsimp only
        omega
      · rw [windowsFrom_of_ge hdone]
        exact List.isChain_singleton _
  | case2 offset hge =>
      rw [windowsFrom, if_neg hge]
      exact List.isChain_nil

theorem sum_windowsFrom (hpage : 0 < pageSize) :
    ((windowsFrom pageSize bound offset).map (·.size)).sum = bound - offset := by
  induction offset using windowsFrom.induct pageSize bound with
  | case1 offset hlt ih =>
      rw [windowsFrom_of_lt hlt.1 hlt.2, List.map_cons, List.sum_cons, ih]
      dsimp only
      omega
  | case2 offset hge =>
      rw [windowsFrom, if_neg hge, List.map_nil, List.sum_nil]
      omega

/-- The windows from the start of a page are told by the numbers of the pages. -/
theorem windowsFrom_mul (hpage : 0 < pageSize) (i : ℕ) :
    windowsFrom pageSize bound (i * pageSize) =
      (List.range' i (bound ⌈/⌉ pageSize - i)).map fun j =>
        ⟨j * pageSize, min pageSize (bound - j * pageSize)⟩ := by
  have hlt (i : ℕ) : i < bound ⌈/⌉ pageSize ↔ i * pageSize < bound := by
    rw [← not_le, ceilDiv_le_iff_le_mul hpage, not_le, Nat.mul_comm]
  generalize hn : bound ⌈/⌉ pageSize - i = n
  induction n generalizing i with
  | zero =>
      rw [windowsFrom_of_ge (by have := hlt i; omega)]
      rfl
  | succ n ih =>
      rw [windowsFrom_of_lt hpage ((hlt i).mp (by omega)), List.range'_succ, List.map_cons,
        ← Nat.succ_mul, ih (i + 1) (by omega)]

end windowsFrom

/-! ### All windows of a run -/

theorem toNat_pos_of_ne_zero {n : UInt32} (h : n ≠ 0) : 0 < n.toNat :=
  Nat.pos_of_ne_zero fun hzero => h (UInt32.toNat_inj.mp hzero)

theorem firstWindow_eq (pageSize maxResults : UInt32) :
    firstWindow pageSize maxResults = ⟨0, if 0 < maxResults.toNat then
      min pageSize.toNat maxResults.toNat else pageSize.toNat⟩ := by
  unfold firstWindow
  by_cases hcap : 0 < maxResults
  · have hcap' : 0 < maxResults.toNat := UInt32.lt_iff_toNat_lt.mp hcap
    rw [if_pos hcap, if_pos hcap', toNat_min]
  · have hcap' : ¬ 0 < maxResults.toNat := fun h => hcap (UInt32.lt_iff_toNat_lt.mpr h)
    rw [if_neg hcap, if_neg hcap']

/-- The windows of a run that goes up to a bound. -/
def pagePlan (pageSize maxResults bound : ℕ) : List Window :=
  ⟨0, if 0 < maxResults then min pageSize maxResults else pageSize⟩ ::
    windowsFrom pageSize bound pageSize

section pagePlan

variable {pageSize maxResults bound : ℕ}

theorem windowsFrom_pageSize (hpage : 0 < pageSize) :
    windowsFrom pageSize bound pageSize =
      (List.range' 1 (bound ⌈/⌉ pageSize - 1)).map fun j =>
        ⟨j * pageSize, min pageSize (bound - j * pageSize)⟩ := by
  rw [← windowsFrom_mul hpage, Nat.one_mul]

theorem length_pagePlan (hpage : 0 < pageSize) :
    (pagePlan pageSize maxResults bound).length = max 1 (bound ⌈/⌉ pageSize) := by
  rw [pagePlan, windowsFrom_pageSize hpage, List.length_cons, List.length_map, List.length_range']
  omega

theorem getElem?_pagePlan (hpage : 0 < pageSize) {i : ℕ} (hi : 0 < i)
    (hlen : i < (pagePlan pageSize maxResults bound).length) :
    (pagePlan pageSize maxResults bound)[i]? =
      some ⟨i * pageSize, min pageSize (bound - i * pageSize)⟩ := by
  obtain ⟨j, rfl⟩ : ∃ j, i = j + 1 := ⟨i - 1, by omega⟩
  rw [length_pagePlan hpage] at hlen
  rw [pagePlan, windowsFrom_pageSize hpage, List.getElem?_cons_succ, List.getElem?_map,
    List.getElem?_range' (by omega), Option.map_some, Nat.one_mul, Nat.add_comm 1 j]

/-- The first window ends where the next begins, if there is a next. -/
theorem first_contiguous (hcap : 0 < maxResults → bound ≤ maxResults) (hmore : pageSize < bound) :
    (if 0 < maxResults then min pageSize maxResults else pageSize) = pageSize := by
  split_ifs with hm
  · have := hcap hm
    omega
  · rfl

theorem pagePlan_contiguous (hpage : 0 < pageSize) (hcap : 0 < maxResults → bound ≤ maxResults) :
    (pagePlan pageSize maxResults bound).IsChain fun v w => v.offset + v.size = w.offset := by
  rcases Nat.lt_or_ge pageSize bound with hmore | hdone
  · have hchain : (windowsFrom pageSize bound pageSize).IsChain
        fun v w => v.offset + v.size = w.offset := windowsFrom_contiguous
    rw [pagePlan, first_contiguous hcap hmore]
    rw [windowsFrom_of_lt hpage hmore] at hchain ⊢
    exact List.isChain_cons_cons.mpr ⟨Nat.zero_add _, hchain⟩
  · rw [pagePlan, windowsFrom_of_ge hdone]
    exact List.isChain_singleton _

theorem pagePlan_covers (hpage : 0 < pageSize) (hcap : 0 < maxResults → bound ≤ maxResults)
    {i : ℕ} (hi : i < bound) : ∃ w ∈ pagePlan pageSize maxResults bound, w.Holds i := by
  rcases Nat.lt_or_ge i pageSize with hin | hout
  · refine ⟨_, List.mem_cons_self, Nat.zero_le i, ?_⟩
    dsimp only
    split_ifs with hm
    · have := hcap hm
      omega
    · omega
  · obtain ⟨w, hw, hholds⟩ := windowsFrom_covers hpage hout hi
    exact ⟨w, List.mem_cons_of_mem _ hw, hholds⟩

theorem pagesThrough_pagePlan (hpage : 0 < pageSize) (hsize : pageSize < UInt32.size)
    (hbound : bound < UInt32.size) (hcap : 0 < maxResults → bound ≤ maxResults) :
    PagesThrough pageSize maxResults bound (pagePlan pageSize maxResults bound) := by
  have hfirst : 0 < (if 0 < maxResults then min pageSize maxResults else pageSize) ∧
      (if 0 < maxResults then min pageSize maxResults else pageSize) ≤ pageSize := by
    split_ifs <;> omega
  refine ⟨length_pagePlan hpage, rfl, fun i => getElem?_pagePlan hpage, ?_,
    pagePlan_contiguous hpage hcap, ?_, fun i => pagePlan_covers hpage hcap, ?_, ?_⟩
  · intro w hw
    rcases List.mem_cons.mp hw with rfl | hw
    · exact hfirst.1
    · exact (mem_windowsFrom hw).1
  · refine List.pairwise_cons.mpr ⟨fun w hw => ?_, windowsFrom_apart⟩
    have := (mem_windowsFrom hw).2.1
    dsimp only
    omega
  · intro hm
    have := hcap hm
    rw [pagePlan, List.map_cons, List.sum_cons, sum_windowsFrom hpage, if_pos hm]
    dsimp only
    omega
  · intro w hw
    rcases List.mem_cons.mp hw with rfl | hw
    · dsimp only
      omega
    · have := (mem_windowsFrom hw).2.2
      omega

end pagePlan

end Lookalike
