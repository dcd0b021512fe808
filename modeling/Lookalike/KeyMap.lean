/-! # Maps and sets of strings in key order

`KeyMap α` holds one value per key and lists its entries by increasing key, where strings are
compared code point by code point; `KeySet` is the same for bare keys.  The order is part of the
type, so two maps with the same look-ups are the same map (`KeyMap.ext_get?`), however they were
filled.

Main statements: `KeyMap.get?_insert` and `KeySet.mem_insert` say what an insertion changes. -/

namespace Lookalike

/-! ### Entries in key order -/

/-- Puts an entry at its place among entries sorted by key and replaces one of the same key. -/
def insertEntry {α : Type} (k : String) (v : α) : List (String × α) → List (String × α)
  | [] => [(k, v)]
  | e :: es =>
      if k < e.1 then (k, v) :: e :: es
      else if k = e.1 then (k, v) :: es
      else e :: insertEntry k v es

/-- Keys strictly increase, so each occurs once. -/
def KeysIncrease {α : Type} (es : List (String × α)) : Prop :=
  es.Pairwise fun a b => a.1 < b.1

/-- Entries listed by key; of several with one key the last is kept. -/
def sortEntries {α : Type} (es : List (String × α)) : List (String × α) :=
  es.foldl (fun sorted e => insertEntry e.1 e.2 sorted) []

section Entries

variable {α : Type}

theorem lt_of_not_lt_of_ne {a b : String} (h : ¬ a < b) (hne : a ≠ b) : b < a :=
  String.not_le.1 fun hab => hne (String.le_antisymm hab (String.not_lt.1 h))

theorem insertEntry_nil (k : String) (v : α) : insertEntry k v [] = [(k, v)] := rfl

theorem insertEntry_cons_of_lt {k k' : String} (h : k < k') (v v' : α) (es : List (String × α)) :
    insertEntry k v ((k', v') :: es) = (k, v) :: (k', v') :: es := by
  rw [insertEntry, if_pos h]

theorem insertEntry_cons_of_gt {k k' : String} (h : k' < k) (v v' : α) (es : List (String × α)) :
    insertEntry k v ((k', v') :: es) = (k', v') :: insertEntry k v es := by
  have hlt : ¬ k < k' := fun hlt => String.lt_irrefl k (String.lt_trans hlt h)
  have hne : k ≠ k' := fun heq => String.lt_irrefl k (heq ▸ h)
  rw [insertEntry, if_neg hlt, if_neg hne]

theorem mem_insertEntry {k : String} {v : α} {e : String × α} {es : List (String × α)} :
    e ∈ insertEntry k v es → e = (k, v) ∨ e ∈ es := by
  induction es with
  | nil => simp [insertEntry]
  | cons d ds ih =>
      rw [insertEntry]
      split
      · simp
      · split
        · intro h
          rcases List.mem_cons.1 h with h | h <;> simp [h]
        · intro h
          rcases List.mem_cons.1 h with h | h
          · simp [h]
          · rcases ih h with h | h <;> simp [h]

theorem keysIncrease_insertEntry (k : String) (v : α) {es : List (String × α)}
    (h : KeysIncrease es) : KeysIncrease (insertEntry k v es) := by
  induction es with
  | nil => simp [insertEntry, KeysIncrease]
  | cons d ds ih =>
      obtain ⟨hd, hds⟩ := List.pairwise_cons.1 h
      rw [insertEntry]
      split
      · rename_i hlt
        refine List.pairwise_cons.2 ⟨fun e he => ?_, h⟩
        rcases List.mem_cons.1 he with rfl | he
        · exact hlt
        · exact String.lt_trans hlt (hd e he)
      · rename_i hlt
        split
        · rename_i heq
          exact List.pairwise_cons.2 ⟨fun e he => heq ▸ hd e he, hds⟩
        · rename_i hne
          refine List.pairwise_cons.2 ⟨fun e he => ?_, ih hds⟩
          rcases mem_insertEntry he with rfl | he
          · exact lt_of_not_lt_of_ne hlt hne
          · exact hd e he

theorem lookup_cons_ite (k : String) (e : String × α) (es : List (String × α)) :
    (e :: es).lookup k = if k = e.1 then some e.2 else es.lookup k := by
  obtain ⟨k', v⟩ := e
  by_cases h : k = k'
  · simp [h]
  · simp [List.lookup_cons, h, beq_eq_false_iff_ne.2 h]

theorem lookup_insertEntry (k k' : String) (v : α) (es : List (String × α)) :
    (insertEntry k v es).lookup k' = if k' = k then some v else es.lookup k' := by
  induction es with
  | nil => by_cases h : k' = k <;> simp [insertEntry, lookup_cons_ite, h]
  | cons d ds ih =>
      rw [insertEntry]
      split
      · by_cases h : k' = k <;> simp [lookup_cons_ite, h]
      · split
        · rename_i heq
          by_cases h : k' = k
          · simp [h]
          · simp [lookup_cons_ite, h, show k' ≠ d.1 from heq ▸ h]
        · rename_i hne
          by_cases h : k' = d.1
          · simp [lookup_cons_ite, h, show d.1 ≠ k from fun e => hne e.symm]
          · simp [lookup_cons_ite, h, ih]

theorem isSome_lookup_iff {k : String} {es : List (String × α)} :
    (es.lookup k).isSome = true ↔ k ∈ es.map Prod.fst := by
  induction es with
  | nil => simp
  | cons e es ih =>
      rw [lookup_cons_ite, List.map_cons, List.mem_cons, ← ih]
      by_cases h : k = e.1 <;> simp [h]

theorem keysIncrease_sortEntries (es : List (String × α)) : KeysIncrease (sortEntries es) := by
  unfold sortEntries
  suffices h : ∀ acc : List (String × α), KeysIncrease acc →
      KeysIncrease (es.foldl (fun sorted e => insertEntry e.1 e.2 sorted) acc) from
    h [] List.Pairwise.nil
  induction es with
  | nil => exact fun acc h => h
  | cons e es ih => exact fun acc h => ih _ (keysIncrease_insertEntry e.1 e.2 h)

theorem insertEntry_perm {k : String} (v : α) {es : List (String × α)} (h : es.lookup k = none) :
    (insertEntry k v es).Perm ((k, v) :: es) := by
  induction es with
  | nil => exact List.Perm.refl _
  | cons e es ih =>
      rw [lookup_cons_ite] at h
      have hne : k ≠ e.1 := by
        intro hk
        simp [hk] at h
      rw [if_neg hne] at h
      rw [insertEntry, if_neg hne]
      split
      · exact List.Perm.refl _
      · exact ((ih h).cons e).trans (List.Perm.swap _ _ _)

theorem mem_of_mem_sortEntries {e : String × α} {es : List (String × α)}
    (h : e ∈ sortEntries es) : e ∈ es := by
  unfold sortEntries at h
  suffices hfold : ∀ acc : List (String × α),
      e ∈ es.foldl (fun sorted e => insertEntry e.1 e.2 sorted) acc → e ∈ es ∨ e ∈ acc by
    simpa using hfold [] h
  clear h
  induction es with
  | nil => exact fun acc h => Or.inr h
  | cons d ds ih =>
      intro acc h
      rcases ih _ h with h | h
      · exact Or.inl (List.mem_cons_of_mem d h)
      · rcases mem_insertEntry h with rfl | h
        · exact Or.inl List.mem_cons_self
        · exact Or.inr h

theorem insertEntry_of_forall_lt {k : String} (v : α) {es : List (String × α)}
    (h : ∀ e ∈ es, e.1 < k) : insertEntry k v es = es ++ [(k, v)] := by
  induction es with
  | nil => rfl
  | cons e es ih =>
      obtain ⟨he, hes⟩ := List.forall_mem_cons.1 h
      rw [insertEntry_cons_of_gt he, ih hes, List.cons_append]

theorem sortEntries_of_keysIncrease {es : List (String × α)} (h : KeysIncrease es) :
    sortEntries es = es := by
  unfold sortEntries
  suffices hfold : ∀ acc : List (String × α), KeysIncrease (acc ++ es) →
      es.foldl (fun sorted e => insertEntry e.1 e.2 sorted) acc = acc ++ es from hfold [] h
  clear h
  induction es with
  | nil => simp
  | cons e es ih =>
      intro acc h
      have hlast : ∀ d ∈ acc, d.1 < e.1 := fun d hd =>
        (List.pairwise_append.1 h).2.2 d hd e List.mem_cons_self
      have happend : acc ++ e :: es = (acc ++ [e]) ++ es := by simp
      rw [List.foldl_cons, insertEntry_of_forall_lt e.2 hlast, happend]
      exact ih (acc ++ [e]) (happend ▸ h)

theorem lookup_eq_none_of_lt {k : String} {es : List (String × α)}
    (h : ∀ e ∈ es, k < e.1) : es.lookup k = none := by
  induction es with
  | nil => rfl
  | cons d ds ih =>
      have hd : k ≠ d.1 := fun e => String.lt_irrefl d.1 (e ▸ h d List.mem_cons_self)
      have : ds.lookup k = none := ih fun e he => h e (List.mem_cons_of_mem _ he)
      simp [lookup_cons_ite, hd, this]

theorem lookup_eq_some_iff_mem {k : String} {v : α} {es : List (String × α)}
    (h : KeysIncrease es) : es.lookup k = some v ↔ (k, v) ∈ es := by
  induction es with
  | nil => simp
  | cons e es ih =>
      obtain ⟨he, hes⟩ := List.pairwise_cons.1 h
      rw [lookup_cons_ite, List.mem_cons, ← ih hes]
      by_cases hk : k = e.1
      · have hnone : es.lookup k = none := lookup_eq_none_of_lt (hk ▸ he)
        rw [if_pos hk, hnone, Option.some.injEq, Prod.ext_iff]
        exact ⟨fun hv => Or.inl ⟨hk, hv.symm⟩, fun hv => (hv.resolve_right (by simp)).2.symm⟩
      · rw [if_neg hk, Prod.ext_iff]
        exact ⟨Or.inr, fun hv => hv.resolve_left fun he => hk he.1⟩

theorem eq_of_lookup_eq {es ds : List (String × α)} (hes : KeysIncrease es)
    (hds : KeysIncrease ds) (h : ∀ k, es.lookup k = ds.lookup k) : es = ds := by
  induction es generalizing ds with
  | nil =>
      cases ds with
      | nil => rfl
      | cons d ds => simpa [lookup_cons_ite] using h d.1
  | cons e es ih =>
      cases ds with
      | nil => simpa [lookup_cons_ite] using h e.1
      | cons d ds =>
          obtain ⟨he, hes⟩ := List.pairwise_cons.1 hes
          obtain ⟨hd, hds⟩ := List.pairwise_cons.1 hds
          have hkey : e.1 = d.1 := by
            by_cases hlt : e.1 < d.1
            · have hnone : (d :: ds).lookup e.1 = none := lookup_eq_none_of_lt fun x hx => by
                rcases List.mem_cons.1 hx with rfl | hx
                · exact hlt
                · exact String.lt_trans hlt (hd x hx)
              have := h e.1
              rw [hnone] at this
              simp [lookup_cons_ite] at this
            · by_cases hgt : d.1 < e.1
              · have hnone : (e :: es).lookup d.1 = none := lookup_eq_none_of_lt fun x hx => by
                  rcases List.mem_cons.1 hx with rfl | hx
                  · exact hgt
                  · exact String.lt_trans hgt (he x hx)
                have := h d.1
                rw [hnone] at this
                simp [lookup_cons_ite] at this
              · exact String.le_antisymm (String.not_lt.1 hgt) (String.not_lt.1 hlt)
          have hval : e.2 = d.2 := by
            have := h e.1
            simpa [lookup_cons_ite, hkey] using this
          have htail : es = ds := by
            refine ih hes hds fun k => ?_
            by_cases hk : k = e.1
            · subst hk
              rw [lookup_eq_none_of_lt he, lookup_eq_none_of_lt (hkey ▸ hd)]
            · have := h k
              simpa [lookup_cons_ite, hk, hkey ▸ hk] using this
          exact List.cons_eq_cons.2 ⟨Prod.ext hkey hval, htail⟩

end Entries

/-! ### Maps -/

/-- One value per key, listed by increasing key. -/
structure KeyMap (α : Type) where
  entries : List (String × α)
  increasing : KeysIncrease entries

namespace KeyMap

variable {α : Type}

def empty : KeyMap α := ⟨[], List.Pairwise.nil⟩

instance : EmptyCollection (KeyMap α) := ⟨empty⟩

instance : Inhabited (KeyMap α) := ⟨empty⟩

def get? (m : KeyMap α) (k : String) : Option α := m.entries.lookup k

def contains (m : KeyMap α) (k : String) : Bool := (m.get? k).isSome

/-- Gives a key a value in place of any earlier one. -/
def insert (m : KeyMap α) (k : String) (v : α) : KeyMap α :=
  ⟨insertEntry k v m.entries, keysIncrease_insertEntry k v m.increasing⟩

/-- The map of a list of entries; of several with one key the last counts. -/
def ofList (es : List (String × α)) : KeyMap α :=
  ⟨sortEntries es, keysIncrease_sortEntries es⟩

/-- The entries by increasing key. -/
def toList (m : KeyMap α) : List (String × α) := m.entries

def keys (m : KeyMap α) : List String := m.entries.map Prod.fst

def values (m : KeyMap α) : List α := m.entries.map Prod.snd

def size (m : KeyMap α) : Nat := m.entries.length

theorem get?_empty (k : String) : (∅ : KeyMap α).get? k = none := rfl

theorem get?_insert (m : KeyMap α) (k k' : String) (v : α) :
    (m.insert k v).get? k' = if k' = k then some v else m.get? k' :=
  lookup_insertEntry k k' v m.entries

theorem mem_toList {m : KeyMap α} {k : String} {v : α} :
    (k, v) ∈ m.toList ↔ m.get? k = some v :=
  (lookup_eq_some_iff_mem m.increasing).symm

theorem toList_insert_perm {m : KeyMap α} {k : String} (v : α) (h : m.get? k = none) :
    (m.insert k v).toList.Perm ((k, v) :: m.toList) :=
  insertEntry_perm v h

theorem mem_values {m : KeyMap α} {v : α} : v ∈ m.values ↔ ∃ k, m.get? k = some v := by
  refine List.mem_map.trans ⟨?_, ?_⟩
  · rintro ⟨⟨k, w⟩, hmem, rfl⟩
    exact ⟨k, mem_toList.1 hmem⟩
  · rintro ⟨k, hget⟩
    exact ⟨(k, v), mem_toList.2 hget, rfl⟩

theorem mem_keys {m : KeyMap α} {k : String} : k ∈ m.keys ↔ m.contains k = true :=
  isSome_lookup_iff.symm

theorem nodup_keys (m : KeyMap α) : m.keys.Nodup := by
  refine (List.pairwise_map.2 m.increasing).imp fun hlt heq => ?_
  rw [heq] at hlt
  exact String.lt_irrefl _ hlt

theorem ext_get? {m n : KeyMap α} (h : ∀ k, m.get? k = n.get? k) : m = n := by
  obtain ⟨es, hes⟩ := m
  obtain ⟨ds, hds⟩ := n
  have : es = ds := eq_of_lookup_eq hes hds h
  subst this
  rfl

end KeyMap

/-! ### Sets -/

/-- A set of strings, listed in increasing order. -/
structure KeySet where
  map : KeyMap Unit

namespace KeySet

def empty : KeySet := ⟨∅⟩

instance : EmptyCollection KeySet := ⟨empty⟩

instance : Inhabited KeySet := ⟨empty⟩

def contains (s : KeySet) (k : String) : Bool := s.map.contains k

instance : Membership String KeySet := ⟨fun s k => s.contains k = true⟩

instance (s : KeySet) (k : String) : Decidable (k ∈ s) :=
  inferInstanceAs (Decidable (s.contains k = true))

/-- Adds a member. -/
def insert (s : KeySet) (k : String) : KeySet := ⟨s.map.insert k ()⟩

def insertAll (s : KeySet) (ks : List String) : KeySet := ks.foldl insert s

def ofList (ks : List String) : KeySet := insertAll ∅ ks

/-- The members in increasing order. -/
def toList (s : KeySet) : List String := s.map.keys

def union (s t : KeySet) : KeySet := s.insertAll t.toList

theorem not_mem_empty (k : String) : ¬ k ∈ (∅ : KeySet) := by
  intro h
  cases h

theorem mem_insert {s : KeySet} {k k' : String} : k' ∈ s.insert k ↔ k' = k ∨ k' ∈ s := by
  show ((s.map.insert k ()).get? k').isSome = true ↔ k' = k ∨ (s.map.get? k').isSome = true
  rw [KeyMap.get?_insert]
  by_cases h : k' = k <;> simp [h]

theorem mem_toList {s : KeySet} {k : String} : k ∈ s.toList ↔ k ∈ s := isSome_lookup_iff.symm

theorem mem_insertAll {s : KeySet} {ks : List String} {k : String} :
    k ∈ s.insertAll ks ↔ k ∈ s ∨ k ∈ ks := by
  induction ks generalizing s with
  | nil => simp [insertAll]
  | cons k' ks ih =>
      rw [insertAll, List.foldl_cons, ← insertAll, ih, mem_insert, List.mem_cons]
      constructor
      · rintro ((h | h) | h) <;> simp [h]
      · rintro (h | h | h) <;> simp [h]

theorem mem_union {s t : KeySet} {k : String} : k ∈ s.union t ↔ k ∈ s ∨ k ∈ t := by
  rw [union, mem_insertAll, mem_toList]

theorem ext_mem {s t : KeySet} (h : ∀ k, k ∈ s ↔ k ∈ t) : s = t := by
  obtain ⟨m⟩ := s
  obtain ⟨n⟩ := t
  have : m = n := KeyMap.ext_get? fun k => by
    have hk : (m.get? k).isSome = true ↔ (n.get? k).isSome = true := h k
    cases hm : m.get? k <;> cases hn : n.get? k <;> simp_all
  rw [this]

end KeySet

end Lookalike
