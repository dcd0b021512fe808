import Lookalike.Proofs.BareResults
import Lookalike.Proofs.Rearrangement

/-! # Rankings

`ResultSet.ranked` sorts by the total order of words, in which the zeros differ and words that are no
numbers have a place.  On scores without such words (`Binary64.Plain`) that is the order of numbers
(`Plain.rank_lt_iff`), and each number has one word (`Plain.eq_of_same`).  As each key is stored once,
the list is then in strict order: of two hits the one that is listed first outranks the other.

The place of a hit depends on its key and its score alone, so a ranking is a function of the scores that
the set holds (`ResultSet.map_standing_ranked`), and those do not depend on the order of arrival
(`ResultSet.scores_ofHits_eq`).

Main statement: `ResultSet.ranked_ofHits`. -/

namespace Lookalike

/-! ### Words for numbers -/

namespace Binary64

variable {x y : Binary64}

theorem toNat_bits (x : Binary64) :
    x.bits.toNat = if x.isNegative then signBit + x.magnitude else x.magnitude := by
  have hword : x.bits.toNat < 0x10000000000000000 := x.bits.toNat_lt
  unfold isNegative magnitude signBit
  by_cases hneg : 0x8000000000000000 ≤ x.bits.toNat
  · simp only [hneg, decide_true, if_true]
    omega
  · simp only [hneg, decide_false, Bool.false_eq_true, if_false]
    omega

theorem eq_of_rank_eq (h : x.rank = y.rank) : x = y := by
  have hbits : x.bits.toNat = y.bits.toNat := by
    rw [toNat_bits, toNat_bits]
    unfold rank at h
    cases hx : x.isNegative <;> cases hy : y.isNegative <;>
      simp only [hx, hy, if_true, Bool.false_eq_true, if_false] at h ⊢ <;> omega
  obtain ⟨v⟩ := x
  obtain ⟨w⟩ := y
  exact congrArg mk (UInt64.toNat_inj.mp hbits)

/-- A number other than the negative zero, so that no other such word is the same number. -/
structure Plain (x : Binary64) : Prop where
  number : x.isNaN = false
  ne_neg_zero : x ≠ zero.neg

instance (x : Binary64) : Decidable x.Plain :=
  decidable_of_iff (x.isNaN = false ∧ x ≠ zero.neg) ⟨fun h => ⟨h.1, h.2⟩, fun h => ⟨h.1, h.2⟩⟩

namespace Plain

theorem magnitude_ne_zero (h : x.Plain) (hneg : x.isNegative = true) : x.magnitude ≠ 0 := by
  intro hzero
  have hrank : x.rank = zero.neg.rank := by
    have hleft : x.rank = -1 := by simp [rank, hneg, hzero]
    have hright : zero.neg.rank = -1 := by decide
    rw [hleft, hright]
  exact h.ne_neg_zero (eq_of_rank_eq hrank)

/-- The total order of words is the order of numbers. -/
theorem rank_lt_iff (hx : x.Plain) (hy : y.Plain) : x.rank < y.rank ↔ x.lt y = true :=
  rank_lt_iff_lt hx.number hy.number hx.magnitude_ne_zero

theorem eq_of_same (hx : x.Plain) (hy : y.Plain) (h : Same x y) : x = y := by
  have hle : ¬ x.rank < y.rank := by simp [hx.rank_lt_iff hy, h.1]
  have hge : ¬ y.rank < x.rank := by simp [hy.rank_lt_iff hx, h.2]
  exact eq_of_rank_eq (by omega)

end Plain
end Binary64

/-! ### The order of hits -/

namespace ScoredHit

variable {a b c : ScoredHit}

/-- What decides the place of a hit among others. -/
def standing (h : ScoredHit) : String × Binary64 := (h.identityKey, h.score)

/-- A hit ranks before another: its score is the higher, or the scores are the same and its key is the
smaller. -/
def Outranks (a b : ScoredHit) : Prop :=
  b.score.lt a.score = true ∨ (a.score = b.score ∧ a.identityKey < b.identityKey)

theorem Outranks.asymm (h : a.Outranks b) : ¬ b.Outranks a := by
  have hsame (x : Binary64) : ¬ x.lt x = true := by simp [Binary64.lt_self]
  rintro (hlt' | ⟨hscore', hkey'⟩)
  · rcases h with hlt | ⟨hscore, -⟩
    · exact hsame _ (Binary64.lt_trans hlt hlt')
    · exact hsame _ (hscore ▸ hlt')
  · rcases h with hlt | ⟨-, hkey⟩
    · exact hsame _ (hscore' ▸ hlt)
    · exact String.lt_irrefl _ (String.lt_trans hkey hkey')

theorem rankLe_iff : a.rankLe b = true ↔ b.score.rank < a.score.rank ∨
    (a.score.rank = b.score.rank ∧ a.identityKey ≤ b.identityKey) := by
  simp [rankLe]

theorem rankLe_trans (hab : a.rankLe b = true) (hbc : b.rankLe c = true) : a.rankLe c = true := by
  rw [rankLe_iff] at hab hbc ⊢
  rcases hab with hab | ⟨hab, hkey⟩
  · rcases hbc with hbc | ⟨hbc, -⟩ <;> exact Or.inl (by omega)
  · rcases hbc with hbc | ⟨hbc, hkey'⟩
    · exact Or.inl (by omega)
    · exact Or.inr ⟨by omega, String.le_trans hkey hkey'⟩

theorem rankLe_total (a b : ScoredHit) : (a.rankLe b || b.rankLe a) = true := by
  rw [Bool.or_eq_true, rankLe_iff, rankLe_iff]
  rcases Int.lt_trichotomy a.score.rank b.score.rank with hlt | heq | hgt
  · exact Or.inr (Or.inl hlt)
  · rcases String.le_total a.identityKey b.identityKey with hkey | hkey
    · exact Or.inl (Or.inr ⟨heq, hkey⟩)
    · exact Or.inr (Or.inr ⟨heq.symm, hkey⟩)
  · exact Or.inl (Or.inl hgt)

/-- With plain scores and different keys, whichever hit may be listed first outranks the other. -/
theorem outranks_of_rankLe (hle : a.rankLe b = true) (ha : a.score.Plain) (hb : b.score.Plain)
    (hkey : a.identityKey ≠ b.identityKey) : a.Outranks b := by
  rcases rankLe_iff.mp hle with hlt | ⟨heq, hkeyle⟩
  · exact Or.inl ((hb.rank_lt_iff ha).mp hlt)
  · have hlt : a.identityKey < b.identityKey :=
      String.not_le.mp fun hge => hkey (String.le_antisymm hkeyle hge)
    exact Or.inr ⟨Binary64.eq_of_rank_eq heq, hlt⟩

end ScoredHit

/-- `ScoredHit.rankLe` for hits of which no more is known. -/
def standingLe (p q : String × Binary64) : Bool :=
  ScoredHit.rankLe ⟨p.1, p.2, .null, ∅, none⟩ ⟨q.1, q.2, .null, ∅, none⟩

theorem lt_iff_of_pairwise {α : Type} {r : α → α → Prop} {l : List α} (h : l.Pairwise r)
    (hasymm : ∀ a b, r a b → ¬ r b a) {i j : Nat} (hi : i < l.length) (hj : j < l.length) :
    i < j ↔ r l[i] l[j] := by
  rw [List.pairwise_iff_getElem] at h
  constructor
  · exact h i j hi hj
  · intro hr
    by_contra hnot
    rcases Nat.lt_or_eq_of_le (Nat.not_lt.mp hnot) with hlt | rfl
    · exact hasymm _ _ hr (h j i hj hi hlt)
    · exact hasymm _ _ hr hr

/-! ### One ranking -/

namespace ResultSet

variable (s : ResultSet)

def scores : KeyMap Binary64 := s.hits.mapValues (·.score)

/-- Each hit is stored under its own key. -/
def Filed : Prop := ∀ k h, s.get? k = some h → h.identityKey = k

variable {s}

theorem map_standing_values (hfiled : s.Filed) :
    s.hits.values.map ScoredHit.standing = s.scores.toList := by
  have hentry : ∀ e ∈ s.hits.entries, e.2.standing = (e.1, e.2.score) := by
    intro e he
    rw [ScoredHit.standing, hfiled e.1 e.2 (KeyMap.mem_toList.mp he)]
  rw [KeyMap.values, List.map_map]
  exact List.map_congr_left hentry

theorem ranked_perm (s : ResultSet) : s.ranked.Perm s.hits.values := List.mergeSort_perm _ _

/-- What is listed depends on the scores alone, but for the rest of each hit. -/
theorem map_standing_ranked (hfiled : s.Filed) :
    s.ranked.map ScoredHit.standing = s.scores.toList.mergeSort standingLe := by
  rw [← map_standing_values hfiled]
  exact List.map_mergeSort fun a _ b _ => rfl

theorem nodup_identityKey_ranked (hfiled : s.Filed) : (s.ranked.map (·.identityKey)).Nodup := by
  have hkeys : s.hits.values.map (·.identityKey) = s.scores.keys := by
    calc s.hits.values.map (·.identityKey)
        = (s.hits.values.map ScoredHit.standing).map Prod.fst := by
          rw [List.map_map]
          rfl
      _ = s.scores.keys := by
          rw [map_standing_values hfiled]
          rfl
  rw [(s.ranked_perm.map _).nodup_iff, hkeys]
  exact s.scores.nodup_keys

/-- A ranking is in strict order. -/
theorem pairwise_outranks_ranked (hfiled : s.Filed) (hplain : ∀ h ∈ s.hits.values, h.score.Plain) :
    s.ranked.Pairwise ScoredHit.Outranks := by
  have hsorted : s.ranked.Pairwise fun a b => a.rankLe b = true := by
    unfold ranked
    apply List.pairwise_mergeSort
    · exact fun _ _ _ => ScoredHit.rankLe_trans
    · exact ScoredHit.rankLe_total
  have hkeys := List.pairwise_map.mp (nodup_identityKey_ranked hfiled)
  refine (hsorted.and hkeys).imp_of_mem fun {a b} ha hb hab => ?_
  have ha := hplain a (s.ranked_perm.mem_iff.mp ha)
  have hb := hplain b (s.ranked_perm.mem_iff.mp hb)
  exact ScoredHit.outranks_of_rankLe hab.1 ha hb hab.2

/-! ### Inserted hits -/

/-- The set into which some hits were inserted, one after another. -/
def ofHits (hits : List ScoredHit) : ResultSet := hits.foldl insert empty

end ResultSet

/-- A hit of a search without label. -/
def Finding.unlabelled (h : ScoredHit) : Finding := ⟨none, h⟩

namespace ResultSet

variable {hits hits' : List ScoredHit}

/-- Inserted hits are summarized, one by one and hence all. -/
theorem gathersHits_ofHits (hits : List ScoredHit) :
    GathersHits (hits.map Finding.unlabelled) (ofHits hits).hits := by
  have hfiled : (hits.map Finding.unlabelled).map Finding.filed = hits := by
    rw [List.map_map]
    exact List.map_id hits
  have hgathers := GathersHits.empty.foldl (hits.map Finding.unlabelled)
  rw [hfiled, List.nil_append] at hgathers
  rw [ofHits, foldl_insert]
  exact hgathers

theorem filed_ofHits (hits : List ScoredHit) : (ofHits hits).Filed := fun k h hget =>
  ((gathersHits_ofHits hits).summary k h hget).key

theorem plain_of_get?_ofHits (hplain : ∀ h ∈ hits, h.score.Plain) {k : String} {h : ScoredHit}
    (hget : (ofHits hits).hits.get? k = some h) : h.score.Plain := by
  obtain ⟨f, hf, -, hscore, -⟩ := ((gathersHits_ofHits hits).summary k h hget).mem
  obtain ⟨g, hg, rfl⟩ := List.mem_map.mp hf
  rw [hscore]
  exact hplain g hg

/-- The same hits leave the same scores, in whatever order they arrive. -/
theorem scores_ofHits_eq (hplain : ∀ h ∈ hits, h.score.Plain) (hmem : ∀ h, h ∈ hits ↔ h ∈ hits') :
    (ofHits hits).scores = (ofHits hits').scores := by
  have hfindings (f : Finding) :
      f ∈ hits.map Finding.unlabelled ↔ f ∈ hits'.map Finding.unlabelled := by
    simp only [List.mem_map, hmem]
  have hgathers := gathersHits_ofHits hits
  have hgathers' := gathersHits_ofHits hits'
  refine KeyMap.ext_get? fun k => ?_
  have hfound : (ofHits hits).hits.contains k = (ofHits hits').hits.contains k := by
    rw [Bool.eq_iff_iff, hgathers.found, hgathers'.found]
    simp only [hfindings]
  rw [scores, scores, KeyMap.get?_mapValues, KeyMap.get?_mapValues]
  unfold KeyMap.contains at hfound
  cases hget : (ofHits hits).hits.get? k with
  | none =>
      cases hget' : (ofHits hits').hits.get? k with
      | none => rfl
      | some h => simp [hget, hget'] at hfound
  | some g =>
      cases hget' : (ofHits hits').hits.get? k with
      | none => simp [hget, hget'] at hfound
      | some h =>
          have hsame :=
            ((hgathers.summary k g hget).alike (hgathers'.summary k h hget') hfindings).2.1
          have hg := plain_of_get?_ofHits hplain hget
          have hh := plain_of_get?_ofHits (fun e he => hplain e ((hmem e).mpr he)) hget'
          rw [Option.map_some, Option.map_some, hg.eq_of_same hh hsame]

/-- After any insertions into the empty set, of hits whose scores are numbers and not the negative zero,
the ranking lists each stored hit once, and of two hits the first is the one that has the higher score,
or the same score and the smaller key.  The keys and scores are listed in the same order whatever the
order of the insertions. -/
theorem ranked_ofHits {hits : List ScoredHit} (hplain : ∀ h ∈ hits, h.score.Plain) :
    (ofHits hits).ranked.Perm (ofHits hits).hits.values ∧
      (∀ i j (hi : i < (ofHits hits).ranked.length) (hj : j < (ofHits hits).ranked.length),
        i < j ↔ ((ofHits hits).ranked[i]).Outranks (ofHits hits).ranked[j]) ∧
      ∀ hits', hits.Perm hits' →
        (ofHits hits').ranked.map ScoredHit.standing = (ofHits hits).ranked.map ScoredHit.standing := by
  have hstored : ∀ h ∈ (ofHits hits).hits.values, h.score.Plain := by
    intro h hmem
    obtain ⟨k, hget⟩ := KeyMap.mem_values.mp hmem
    exact plain_of_get?_ofHits hplain hget
  have hordered := pairwise_outranks_ranked (filed_ofHits hits) hstored
  refine ⟨ranked_perm _, fun i j hi hj => ?_, fun hits' hperm => ?_⟩
  · exact lt_iff_of_pairwise hordered (fun _ _ => ScoredHit.Outranks.asymm) hi hj
  · rw [map_standing_ranked (filed_ofHits hits'), map_standing_ranked (filed_ofHits hits),
      scores_ofHits_eq hplain fun h => hperm.mem_iff]

/-- The number one. -/
def tiedScore : Binary64 := ⟨0x3FF0000000000000⟩

/-- The number four. -/
def betterScore : Binary64 := ⟨0x4010000000000000⟩

/-- Two hits with one score, a better one, and the first again with a lower score. -/
def tiedHits : List ScoredHit :=
  [⟨"B", tiedScore, .null, ∅, none⟩, ⟨"A", tiedScore, .null, ∅, none⟩,
    ⟨"C", betterScore, .null, ∅, none⟩, ⟨"B", .zero, .string "again", ∅, none⟩]

/-- The better hit is listed first and the tied ones by key, also after the reverse insertions. -/
theorem ranked_ofHits_tiedHits :
    (∀ h ∈ tiedHits, h.score.Plain) ∧
      (ofHits tiedHits).ranked.map ScoredHit.standing =
        [("C", betterScore), ("A", tiedScore), ("B", tiedScore)] ∧
      (∀ i j (hi : i < (ofHits tiedHits).ranked.length) (hj : j < (ofHits tiedHits).ranked.length),
        i < j ↔ ((ofHits tiedHits).ranked[i]).Outranks (ofHits tiedHits).ranked[j]) ∧
      (ofHits tiedHits.reverse).ranked.map ScoredHit.standing =
        [("C", betterScore), ("A", tiedScore), ("B", tiedScore)] := by
  have hplain : ∀ h ∈ tiedHits, h.score.Plain := by decide
  have hlisted : (ofHits tiedHits).ranked.map ScoredHit.standing =
      [("C", betterScore), ("A", tiedScore), ("B", tiedScore)] := by
    have hscores : (ofHits tiedHits).scores.toList =
        [("A", tiedScore), ("B", tiedScore), ("C", betterScore)] := by decide +kernel
    have htied : standingLe ("A", tiedScore) ("B", tiedScore) = true := by decide
    have hbetter : standingLe ("A", tiedScore) ("C", betterScore) = false := by decide
    rw [map_standing_ranked (filed_ofHits tiedHits), hscores]
    simp [List.mergeSort, List.MergeSort.Internal.splitInTwo, htied, hbetter]
  obtain ⟨-, hordered, hrearranged⟩ := ranked_ofHits hplain
  exact ⟨hplain, hlisted, hordered, (hrearranged _ (List.reverse_perm _).symm).trans hlisted⟩

end ResultSet
end Lookalike
