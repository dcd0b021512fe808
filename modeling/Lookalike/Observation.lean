import Lookalike.Catalog

/-! # Observations

An observation holds the values submitted for one identity, each resolved against the catalog.  It
lists its attributes in the order in which their keys first came, and an index tells the place of each
key; the two are kept in step (`IsIndex`), so a key occurs once and every place is one of the list.  Main
statements: `get?_push` says what a new attribute changes, `keys_push` where it is listed. -/

namespace Lookalike

/-- An attribute with its value and what the catalog knows of it. -/
structure ObservedAttribute where
  key : String
  value : String
  treatment : Treatment
  outputKeys : List String
  kind : FieldKind
deriving DecidableEq

namespace ObservedAttribute

/-- The attribute of a key and a value. -/
def resolve (catalog : AttributeCatalog) (key value : String) : ObservedAttribute where
  key := key
  value := value
  treatment := catalog.defaultTreatment key
  outputKeys := catalog.outputKeys key
  kind := catalog.kind key

/-- The attribute of a key that has no value, of which no more than the absence can be said. -/
def unobserved (catalog : AttributeCatalog) (key : String) : ObservedAttribute :=
  resolve catalog key ""

end ObservedAttribute

/-! ### Keys and their places -/

/-- The index has a place for a key exactly if the key is at that place of a list. -/
def IsIndex (index : KeyMap Nat) (keys : List String) : Prop :=
  ∀ k i, index.get? k = some i ↔ keys[i]? = some k

namespace IsIndex

variable {index : KeyMap Nat} {keys : List String} {k : String} {i : Nat}

theorem empty : IsIndex ∅ [] := by
  intro k i
  simp [KeyMap.get?_empty]

theorem lt_length (h : IsIndex index keys) (hi : index.get? k = some i) : i < keys.length :=
  (List.getElem?_eq_some_iff.1 ((h k i).1 hi)).1

/-- A key that has no place gets the one at the end. -/
theorem append (h : IsIndex index keys) (hnew : index.get? k = none) :
    IsIndex (index.insert k keys.length) (keys ++ [k]) := by
  intro k' j
  have hconcat : (keys ++ [k])[j]? = some k' ↔ keys[j]? = some k' ∨ j = keys.length ∧ k = k' := by
    grind
  rw [hconcat, ← h k' j, KeyMap.get?_insert]
  by_cases hk : k' = k
  · subst hk
    simp [hnew, eq_comm]
  · simp [hk, Ne.symm hk]

theorem isSome_get?_iff (h : IsIndex index keys) : (index.get? k).isSome = true ↔ k ∈ keys := by
  rw [Option.isSome_iff_exists, List.mem_iff_getElem?]
  exact exists_congr fun i => h k i

theorem eq_of_get? {k' : String} (h : IsIndex index keys) (hk : index.get? k = some i)
    (hk' : index.get? k' = some i) : k = k' :=
  Option.some.inj (((h k i).1 hk).symm.trans ((h k' i).1 hk'))

theorem nodup (h : IsIndex index keys) : keys.Nodup := by
  rw [List.nodup_iff_pairwise_ne, List.pairwise_iff_getElem]
  intro i j hi hj hij heq
  have hplace : index.get? keys[j] = some j := (h _ j).2 (List.getElem?_eq_getElem hj)
  rw [(h _ i).2 (by rw [List.getElem?_eq_getElem hi, heq]), Option.some.injEq] at hplace
  omega

end IsIndex

/-- The attributes of one identity, with the place of each key. -/
structure Observation where
  attributes : List ObservedAttribute
  index : KeyMap Nat
  isIndex : IsIndex index (attributes.map (·.key))

namespace Observation

def empty : Observation := ⟨[], ∅, .empty⟩

instance : Inhabited Observation := ⟨empty⟩

/-- The keys in the order in which they came. -/
def keys (o : Observation) : List String := o.attributes.map (·.key)

theorem lt_length (o : Observation) {key : String} {i : Nat} (h : o.index.get? key = some i) :
    i < o.attributes.length := by
  have hlt := o.isIndex.lt_length h
  rwa [List.length_map] at hlt

/-- An attribute with the key of the one at its place leaves the keys as they are. -/
theorem keys_set (o : Observation) {a : ObservedAttribute} {i : Nat}
    (h : o.index.get? a.key = some i) : (o.attributes.set i a).map (·.key) = o.keys := by
  obtain ⟨hi, hkey⟩ := List.getElem?_eq_some_iff.1 ((o.isIndex a.key i).1 h)
  rw [List.map_set, ← hkey, List.set_getElem_self, keys]

/-- Adds an attribute, in place of an earlier one with its key. -/
def push (o : Observation) (a : ObservedAttribute) : Observation :=
  match h : o.index.get? a.key with
  | some i =>
      { attributes := o.attributes.set i a
        index := o.index
        isIndex := o.keys_set h ▸ o.isIndex }
  | none =>
      { attributes := o.attributes ++ [a]
        index := o.index.insert a.key o.attributes.length
        isIndex := by
          rw [List.map_append, ← List.length_map (·.key)]
          exact o.isIndex.append h }

def ofList (as : List ObservedAttribute) : Observation := as.foldl push empty

def get? (o : Observation) (key : String) : Option ObservedAttribute :=
  match h : o.index.get? key with
  | some i => some (o.attributes.get ⟨i, o.lt_length h⟩)
  | none => none

def contains (o : Observation) (key : String) : Bool := o.index.contains key

def size (o : Observation) : Nat := o.attributes.length

def isEmpty (o : Observation) : Bool := o.attributes.isEmpty

/-- Whether one value comes no later than another by key. -/
def keyLe (a b : String × String) : Bool := decide (a.1 ≤ b.1)

/-- The observation of the values that are not blank, by increasing key. -/
def ofValues (catalog : AttributeCatalog) (values : List (String × String)) : Observation :=
  let supplied := (values.filter fun v => !Text.isBlank v.2).mergeSort keyLe
  supplied.foldl (fun o v => o.push (.resolve catalog v.1 v.2)) empty

/-! ### Facts -/

section

variable {o : Observation} {a b : ObservedAttribute} {k : String}

theorem get?_eq_bind (o : Observation) (k : String) :
    o.get? k = (o.index.get? k).bind (o.attributes[·]?) := by
  unfold get?
  split
  · rename_i i h
    have hbind : (o.index.get? k).bind (o.attributes[·]?) = o.attributes[i]? := by
      rw [h, Option.bind_some]
    rw [hbind, List.getElem?_eq_getElem (o.lt_length h)]
    rfl
  · rename_i h
    rw [h, Option.bind_none]

theorem get?_eq_some_iff : o.get? k = some a ↔ a ∈ o.attributes ∧ a.key = k := by
  have hplace (i : Nat) : o.index.get? k = some i ↔ (o.attributes[i]?).map (·.key) = some k := by
    rw [o.isIndex k i, List.getElem?_map]
  rw [get?_eq_bind, Option.bind_eq_some_iff]
  constructor
  · rintro ⟨i, hi, ha⟩
    have hkey := (hplace i).1 hi
    rw [ha, Option.map_some, Option.some.injEq] at hkey
    exact ⟨List.mem_of_getElem? ha, hkey⟩
  · rintro ⟨hmem, hkey⟩
    obtain ⟨i, hi⟩ := List.mem_iff_getElem?.1 hmem
    refine ⟨i, (hplace i).2 ?_, hi⟩
    rw [hi, Option.map_some, hkey]

/-- An attribute whose key is observed takes the place of that key. -/
theorem push_of_index {i : Nat} (h : o.index.get? a.key = some i) :
    (o.push a).attributes = o.attributes.set i a ∧ (o.push a).index = o.index := by
  unfold push
  split
  · rename_i j hj
    rw [h] at hj
    obtain rfl := Option.some.inj hj
    exact ⟨rfl, rfl⟩
  · rename_i hnone
    rw [h] at hnone
    cases hnone

/-- An attribute with a new key comes last. -/
theorem push_of_new (h : o.index.get? a.key = none) :
    (o.push a).attributes = o.attributes ++ [a] ∧
      (o.push a).index = o.index.insert a.key o.attributes.length := by
  unfold push
  split
  · rename_i j hj
    rw [h] at hj
    cases hj
  · exact ⟨rfl, rfl⟩

theorem mem_of_get? (h : o.get? k = some a) : a ∈ o.attributes := (get?_eq_some_iff.1 h).1

theorem key_of_get? (h : o.get? k = some a) : a.key = k := (get?_eq_some_iff.1 h).2

theorem contains_iff_mem_keys : o.contains k = true ↔ k ∈ o.keys := o.isIndex.isSome_get?_iff

theorem mem_push (h : b ∈ (o.push a).attributes) : b = a ∨ b ∈ o.attributes := by
  cases hindex : o.index.get? a.key with
  | some i =>
      rw [(push_of_index hindex).1] at h
      exact (List.mem_or_eq_of_mem_set h).symm
  | none =>
      rw [(push_of_new hindex).1, List.mem_append, List.mem_singleton] at h
      exact h.symm

variable (o a k)

theorem contains_eq_isSome : o.contains k = (o.get? k).isSome := by
  rw [Bool.eq_iff_iff, contains_iff_mem_keys, Option.isSome_iff_exists, keys, List.mem_map]
  simp only [get?_eq_some_iff]

theorem keys_push : (o.push a).keys = if a.key ∈ o.keys then o.keys else o.keys ++ [a.key] := by
  cases hindex : o.index.get? a.key with
  | some i =>
      have hmem : a.key ∈ o.keys := o.isIndex.isSome_get?_iff.1 (by rw [hindex]; rfl)
      rw [if_pos hmem, keys, (push_of_index hindex).1, keys_set o hindex]
  | none =>
      have hnew : ¬ a.key ∈ o.keys := fun hmem => by
        have hsome := o.isIndex.isSome_get?_iff.2 hmem
        rw [hindex] at hsome
        cases hsome
      rw [if_neg hnew, keys, (push_of_new hindex).1, List.map_append]
      rfl

theorem get?_push : (o.push a).get? k = if k = a.key then some a else o.get? k := by
  rw [get?_eq_bind, get?_eq_bind]
  cases hindex : o.index.get? a.key with
  | some i =>
      obtain ⟨hattributes, hplaces⟩ := push_of_index hindex
      rw [hattributes, hplaces]
      split
      · rename_i hk
        rw [hk, hindex, Option.bind_some, List.getElem?_set_self (o.lt_length hindex)]
      · rename_i hk
        cases hplace : o.index.get? k with
        | none => rfl
        | some j =>
            have hne : i ≠ j := fun hij => hk (o.isIndex.eq_of_get? hplace (hij ▸ hindex))
            rw [Option.bind_some, Option.bind_some, List.getElem?_set_ne hne]
  | none =>
      obtain ⟨hattributes, hplaces⟩ := push_of_new hindex
      rw [hattributes, hplaces, KeyMap.get?_insert]
      split
      · rw [Option.bind_some, List.getElem?_concat_length]
      · cases hplace : o.index.get? k with
        | none => rfl
        | some j =>
            rw [Option.bind_some, Option.bind_some, List.getElem?_append_left (o.lt_length hplace)]

end

/-- Values that are not blank and come by increasing key are observed as they come. -/
theorem ofValues_of_pairwise {catalog : AttributeCatalog} {values : List (String × String)}
    (hfilled : ∀ v ∈ values, Text.isBlank v.2 = false)
    (hsorted : values.Pairwise fun a b => keyLe a b = true) :
    ofValues catalog values =
      values.foldl (fun o v => o.push (.resolve catalog v.1 v.2)) empty := by
  have hsupplied : values.filter (fun v => !Text.isBlank v.2) = values :=
    List.filter_eq_self.mpr fun v hv => by rw [hfilled v hv]; rfl
  rw [ofValues, hsupplied, List.mergeSort_of_pairwise hsorted]

end Observation

end Lookalike
