import Lookalike.Observation
import Mathlib.Data.Finset.Card
import Mathlib.Data.List.Basic

/-! # Observations as ordered maps

However attributes are added to an observation, it holds the last one of each key, at the place that the
first one of that key got, and its index leads to exactly these places (`OrderedMapOf`).  The observation of
submitted values does not depend on the order in which they are gone through: it holds those that are not
blank by increasing key.

Main statement: `ordered_ofList_ofValues`. -/

namespace Lookalike

/-- The code points of a text, by which texts are compared. -/
def codePoints (s : String) : List ℕ := s.toList.map Char.toNat

theorem codePoints_lt {s t : String} (h : s < t) : codePoints s < codePoints t := by
  have hlex : s.toList < t.toList := h
  unfold codePoints
  generalize s.toList = cs at hlex
  generalize t.toList = ds at hlex
  induction hlex with
  | nil => exact List.Lex.nil
  | rel hchar => exact List.Lex.rel hchar
  | cons _ ih => exact List.Lex.cons ih

namespace Observation

/-! ### What a run of additions leaves -/

/-- The observation is what is left of some attributes added in order: the index has the place of each of
their keys and of no other, and that is the one place of an attribute with the key; the attribute of a key is
the last one added with it; and the attributes are listed once for each key, in the order in which the keys
were first added. -/
structure OrderedMapOf (o : Observation) (as : List ObservedAttribute) : Prop where
  indexed : ∀ k, (∃ i, o.index.get? k = some i) ↔ k ∈ as.map (·.key)
  inRange : ∀ k i, o.index.get? k = some i → i < o.size
  place : ∀ k i, o.index.get? k = some i → ∀ j, (∃ a, o.attributes[j]? = some a ∧ a.key = k) ↔ j = i
  last : ∀ k, o.get? k = as.reverse.find? (·.key == k)
  listed : o.attributes.map some = o.keys.map o.get?
  keys : ∀ k, k ∈ o.keys ↔ k ∈ as.map (·.key)
  once : o.keys.Nodup
  first : o.keys.Pairwise fun k k' => (as.map (·.key)).idxOf k < (as.map (·.key)).idxOf k'
  size : o.size = (as.map (·.key)).toFinset.card

section ofList

variable {o : Observation} {as : List ObservedAttribute}

theorem ofList_concat (as : List ObservedAttribute) (a : ObservedAttribute) :
    ofList (as ++ [a]) = (ofList as).push a := List.foldl_concat ..

theorem get?_ofList (as : List ObservedAttribute) (k : String) :
    (ofList as).get? k = as.reverse.find? (·.key == k) := by
  induction as using List.reverseRecOn with
  | nil => rfl
  | append_singleton as a ih =>
      rw [ofList_concat, get?_push, ih, List.reverse_append, List.reverse_singleton,
        List.singleton_append, List.find?_cons]
      split_ifs with hk
      · rw [hk, beq_self_eq_true]
      · rw [beq_eq_false_iff_ne.mpr (Ne.symm hk)]

theorem mem_keys_ofList {k : String} : k ∈ (ofList as).keys ↔ k ∈ as.map (·.key) := by
  induction as using List.reverseRecOn with
  | nil => exact Iff.rfl
  | append_singleton as a ih =>
      rw [ofList_concat, keys_push, List.map_append, List.mem_append, ← ih]
      split_ifs with hmem
      · simp only [List.map_singleton, List.mem_singleton, iff_self_or]
        rintro rfl
        exact hmem
      · simp

/-- A key that is added for the first time comes after all others. -/
theorem first_ofList (as : List ObservedAttribute) :
    (ofList as).keys.Pairwise fun k k' =>
      (as.map (·.key)).idxOf k < (as.map (·.key)).idxOf k' := by
  induction as using List.reverseRecOn with
  | nil => exact List.Pairwise.nil
  | append_singleton as a ih =>
      have hold {k : String} (hk : k ∈ (ofList as).keys) :
          ((as ++ [a]).map (·.key)).idxOf k = (as.map (·.key)).idxOf k := by
        rw [List.map_append, List.idxOf_append_of_mem (mem_keys_ofList.mp hk)]
      have hkept : (ofList as).keys.Pairwise fun k k' =>
          ((as ++ [a]).map (·.key)).idxOf k < ((as ++ [a]).map (·.key)).idxOf k' := by
        refine ih.imp_of_mem fun hk hk' hlt => ?_
        rwa [hold hk, hold hk']
      rw [ofList_concat, keys_push]
      split_ifs with hmem
      · exact hkept
      · have hnew : ((as ++ [a]).map (·.key)).idxOf a.key = (as.map (·.key)).length := by
          rw [List.map_append, List.idxOf_append_of_notMem (mt mem_keys_ofList.mpr hmem)]
          simp
        refine List.pairwise_append.mpr ⟨hkept, List.pairwise_singleton _ _, fun k hk k' hk' => ?_⟩
        rw [List.mem_singleton.mp hk', hnew, hold hk]
        exact List.idxOf_lt_length_of_mem (mem_keys_ofList.mp hk)

theorem exists_index_iff {k : String} : (∃ i, o.index.get? k = some i) ↔ k ∈ o.keys := by
  rw [← Option.isSome_iff_exists]
  exact o.isIndex.isSome_get?_iff

/-- The index leads to the one attribute with a key. -/
theorem place_iff {k : String} {i : ℕ} (h : o.index.get? k = some i) (j : ℕ) :
    (∃ a, o.attributes[j]? = some a ∧ a.key = k) ↔ j = i := by
  rw [← Option.map_eq_some_iff, ← List.getElem?_map, ← o.isIndex k j, h, Option.some.injEq, eq_comm]

theorem map_get?_keys (o : Observation) : o.attributes.map some = o.keys.map o.get? := by
  rw [keys, List.map_map]
  refine List.map_congr_left fun a ha => ?_
  exact (get?_eq_some_iff.mpr ⟨ha, rfl⟩).symm

theorem orderedMapOf_ofList (as : List ObservedAttribute) : (ofList as).OrderedMapOf as := by
  have honce : (ofList as).keys.Nodup := (ofList as).isIndex.nodup
  constructor
  case indexed => exact fun k => exists_index_iff.trans mem_keys_ofList
  case inRange => exact fun k i h => lt_length _ h
  case place => exact fun k i h j => place_iff h j
  case last => exact get?_ofList as
  case listed => exact map_get?_keys _
  case keys => exact fun k => mem_keys_ofList
  case once => exact honce
  case first => exact first_ofList as
  case size =>
    have hkeys : (ofList as).keys.toFinset = (as.map (·.key)).toFinset := by
      ext k
      rw [List.mem_toFinset, List.mem_toFinset, mem_keys_ofList]
    rw [← hkeys, List.toFinset_card_of_nodup honce, keys, List.length_map, size]

end ofList

/-! ### Submitted values -/

section ofValues

variable {catalog : AttributeCatalog}

theorem attributes_foldl_push {o : Observation} {as : List ObservedAttribute}
    (h : (o.keys ++ as.map (·.key)).Nodup) : (as.foldl push o).attributes = o.attributes ++ as := by
  induction as generalizing o with
  | nil => exact (List.append_nil _).symm
  | cons a as ih =>
      have hnew : ¬ a.key ∈ o.keys := fun hmem =>
        (List.nodup_append.mp h).2.2 _ hmem _ (List.mem_cons_self) rfl
      have hindex : o.index.get? a.key = none := by
        rw [← Option.not_isSome_iff_eq_none, o.isIndex.isSome_get?_iff]
        exact hnew
      have hkeys : (o.push a).keys = o.keys ++ [a.key] := by rw [keys_push, if_neg hnew]
      rw [List.foldl_cons, ih, (push_of_new hindex).1, List.append_assoc, List.singleton_append]
      rwa [hkeys, List.append_assoc, List.singleton_append]

theorem attributes_ofList {as : List ObservedAttribute} (h : (as.map (·.key)).Nodup) :
    (ofList as).attributes = as := attributes_foldl_push h

theorem keyLe_iff (a b : String × String) : keyLe a b = true ↔ a.1 ≤ b.1 := decide_eq_true_iff

theorem keyLe_trans (a b c : String × String) (hab : keyLe a b = true) (hbc : keyLe b c = true) :
    keyLe a c = true := by
  rw [keyLe_iff] at *
  exact String.le_trans hab hbc

theorem keyLe_total (a b : String × String) : (keyLe a b || keyLe b a) = true := by
  rw [Bool.or_eq_true, keyLe_iff, keyLe_iff]
  exact String.le_total a.1 b.1

/-- Entries of a map come by increasing key once they are sorted, in whatever order they were. -/
theorem mergeSort_eq_of_perm {values : List (String × String)} {es : List (String × String)}
    (hperm : values.Perm es) (hes : KeysIncrease es) : values.mergeSort keyLe = es := by
  have hsorted : (values.mergeSort keyLe).Pairwise fun a b => a.1 ≤ b.1 :=
    (List.pairwise_mergeSort keyLe_trans keyLe_total values).imp fun h => (keyLe_iff _ _).mp h
  refine List.Perm.eq_of_pairwise (fun a b ha hb hab hba => ?_) hsorted
    (hes.imp fun hlt => String.not_lt.mp (String.lt_asymm hlt)) ((List.mergeSort_perm values _).trans hperm)
  have hkey : a.1 = b.1 := String.le_antisymm hab hba
  have ha : a ∈ es := hperm.mem_iff.mp (List.mem_mergeSort.mp ha)
  have hlookup := (lookup_eq_some_iff_mem hes).mpr ha
  rw [hkey, (lookup_eq_some_iff_mem hes).mpr hb] at hlookup
  exact Prod.ext hkey (Option.some.inj hlookup).symm

/-- The values of a map that are not blank are observed by increasing key. -/
theorem attributes_ofValues {m : KeyMap String} {values : List (String × String)}
    (h : values.Perm m.toList) :
    (ofValues catalog values).attributes =
      (m.toList.filter fun v => !Text.isBlank v.2).map fun v => .resolve catalog v.1 v.2 := by
  have hincreasing : KeysIncrease (m.toList.filter fun v => !Text.isBlank v.2) :=
    List.Pairwise.filter _ m.increasing
  have hnodup : (((m.toList.filter fun v => !Text.isBlank v.2).map fun v =>
      ObservedAttribute.resolve catalog v.1 v.2).map (·.key)).Nodup := by
    rw [List.map_map]
    exact (KeyMap.nodup_keys m).sublist (List.filter_sublist.map Prod.fst)
  rw [ofValues, mergeSort_eq_of_perm (h.filter _) hincreasing, ← attributes_ofList hnodup, ofList,
    List.foldl_map]

theorem mem_attributes_ofValues {m : KeyMap String} {values : List (String × String)}
    (h : values.Perm m.toList) {a : ObservedAttribute} :
    a ∈ (ofValues catalog values).attributes ↔
      ∃ k v, m.get? k = some v ∧ Text.isBlank v = false ∧ a = .resolve catalog k v := by
  rw [attributes_ofValues h, List.mem_map]
  constructor
  · rintro ⟨⟨k, v⟩, hmem, rfl⟩
    obtain ⟨hentry, hfilled⟩ := List.mem_filter.mp hmem
    exact ⟨k, v, KeyMap.mem_toList.mp hentry, by simpa using hfilled, rfl⟩
  · rintro ⟨k, v, hget, hfilled, rfl⟩
    exact ⟨(k, v), List.mem_filter.mpr ⟨KeyMap.mem_toList.mpr hget, by simp [hfilled]⟩, rfl⟩

theorem increasing_keys_ofValues {m : KeyMap String} {values : List (String × String)}
    (h : values.Perm m.toList) :
    (ofValues catalog values).keys.Pairwise fun k k' => codePoints k < codePoints k' := by
  rw [keys, attributes_ofValues h, List.map_map, List.pairwise_map]
  exact (List.Pairwise.filter _ m.increasing).imp codePoints_lt

end ofValues

/-- An observation is an ordered map of the attributes added to it, in whatever order these come.  The
observation of a map of values has exactly those that are not blank, by increasing code points of their keys,
in whatever order the map is gone through. -/
theorem ordered_ofList_ofValues :
    (∀ as, (ofList as).OrderedMapOf as) ∧
      ∀ (catalog : AttributeCatalog) (m : KeyMap String) (values : List (String × String)),
        values.Perm m.toList →
          (∀ a, a ∈ (ofValues catalog values).attributes ↔
            ∃ k v, m.get? k = some v ∧ Text.isBlank v = false ∧ a = .resolve catalog k v) ∧
          (ofValues catalog values).keys.Pairwise fun k k' => codePoints k < codePoints k' :=
  ⟨orderedMapOf_ofList, fun _ _ _ h => ⟨fun _ => mem_attributes_ofValues h,
    increasing_keys_ofValues h⟩⟩

/-- Four values that are not gone through by key, one of them blank. -/
def unsortedValues : List (String × String) :=
  [("é", "y"), ("a", "x"), ("email", " "), ("Z", "w")]

theorem ordered_ofList_ofValues_unsortedValues :
    unsortedValues.Perm (KeyMap.ofList unsortedValues).toList ∧
      ObservedAttribute.resolve CatalogTable.person.catalog "Z" "w" ∈
        (ofValues CatalogTable.person.catalog unsortedValues).attributes ∧
      (∀ value, ObservedAttribute.resolve CatalogTable.person.catalog "email" value ∉
        (ofValues CatalogTable.person.catalog unsortedValues).attributes) ∧
      (ofValues CatalogTable.person.catalog unsortedValues).keys.Pairwise fun k k' =>
        codePoints k < codePoints k' := by
  have hperm : unsortedValues.Perm (KeyMap.ofList unsortedValues).toList := by decide +kernel
  obtain ⟨hmem, hincreasing⟩ :=
    ordered_ofList_ofValues.2 CatalogTable.person.catalog _ unsortedValues hperm
  refine ⟨hperm, (hmem _).mpr ⟨"Z", "w", by decide +kernel, by decide +kernel, rfl⟩, fun value h => ?_,
    hincreasing⟩
  obtain ⟨k, v, hget, hfilled, heq⟩ := (hmem _).mp h
  obtain rfl : "email" = k := congrArg ObservedAttribute.key heq
  have hblank : (KeyMap.ofList unsortedValues).get? "email" = some " " := by decide +kernel
  rw [hblank, Option.some.injEq] at hget
  subst hget
  exact absurd hfilled (by decide +kernel)

end Observation

end Lookalike
