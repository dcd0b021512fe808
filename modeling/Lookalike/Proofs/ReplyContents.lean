import Lookalike.Proofs.WholeReplies

/-! # What a reply contains

A reply is read as a whole or refused, and of a reply that is read nothing is left out but the listed
documents without an identity key.  `PageOf` tells a page by the members of its response, down to the key,
the document and the score of each hit (`HitOf`); `Refuses` tells the fault of a reply: its shape, the
number of its responses, or what is wrong with the first response that is not whole.

Main statement: `pages_exact`. -/

namespace Lookalike
namespace Reply

/-! ### Hits -/

/-- A number stands for a double, which for an integer is the nearest one. -/
inductive Numeral : Json → Binary64 → Prop
  | integer (n : ℤ) : Numeral (.integer n) (.ofInt n)
  | float (x : Binary64) : Numeral (.float x) x

/-- The identity key of a listed document: the text that its source has under a field, and for want of
that the text of its own key. -/
inductive KeyOf (identityKeyField : String) (raw : Json) : String → Prop
  | stored {source : Json} {key : String} (hsource : raw.member? "_source" = some source)
      (hkey : source.member? identityKeyField = some (.string key)) : KeyOf identityKeyField raw key
  | own {key : String}
      (hstored : ∀ source, raw.member? "_source" = some source →
        ∀ k, source.member? identityKeyField ≠ some (.string k))
      (hown : raw.member? "_id" = some (.string key)) : KeyOf identityKeyField raw key

/-- A hit is that of a listed document: it is filed under the key of the document, and it has the source
and the score that are listed, or else no source and the score zero. -/
structure HitOf (identityKeyField : String) (raw : Json) (h : ScoredHit) : Prop where
  key : KeyOf identityKeyField raw h.identityKey
  document : raw.member? "_source" = some h.document ∨
    raw.member? "_source" = none ∧ h.document = .null
  score : (∃ v, raw.member? "_score" = some v ∧ Numeral v h.score) ∨
    (∀ v, raw.member? "_score" = some v → ∀ x, ¬ Numeral v x) ∧ h.score = .zero
  unmarked : h.markers = ∅
  uncoded : h.ruleCode = none

/-- Hits are those of some listed documents, in the same order; documents without a key are the only ones
that have no hit. -/
inductive HitsOf (identityKeyField : String) : List Json → List ScoredHit → Prop
  | nil : HitsOf identityKeyField [] []
  | found {raw : Json} {raws : List Json} {h : ScoredHit} {hs : List ScoredHit}
      (hhit : HitOf identityKeyField raw h) (hrest : HitsOf identityKeyField raws hs) :
      HitsOf identityKeyField (raw :: raws) (h :: hs)
  | leftOut {raw : Json} {raws : List Json} {hs : List ScoredHit}
      (hkeyless : ∀ key, ¬ KeyOf identityKeyField raw key)
      (hrest : HitsOf identityKeyField raws hs) : HitsOf identityKeyField (raw :: raws) hs

section hits

variable {identityKeyField : String} {raw : Json} {raws : List Json}

theorem number?_eq_some_iff {v : Json} {x : Binary64} : v.number? = some x ↔ Numeral v x := by
  constructor
  · intro h
    cases v with
    | integer n => exact Option.some.inj h ▸ .integer n
    | float y => exact Option.some.inj h ▸ .float y
    | _ => cases h
  · rintro (n | y) <;> rfl

theorem bind_number?_eq_some_iff {v : Option Json} {x : Binary64} :
    v.bind Json.number? = some x ↔ ∃ w, v = some w ∧ Numeral w x := by
  simp only [Option.bind_eq_some_iff, number?_eq_some_iff]

theorem bind_string?_eq_some_iff {v : Option Json} {text : String} :
    v.bind Json.string? = some text ↔ v = some (.string text) := by
  rw [Option.bind_eq_some_iff]
  constructor
  · rintro ⟨w, rfl, hw⟩
    cases w with
    | string s => rw [Option.some.inj hw]
    | _ => cases hw
  · exact fun h => ⟨_, h, rfl⟩

/-- The key that is read of a listed document. -/
def key? (identityKeyField : String) (raw : Json) : Option String :=
  ((((raw.member? "_source").getD .null).member? identityKeyField).bind Json.string?).or
    ((raw.member? "_id").bind Json.string?)

theorem key?_eq_some_iff {key : String} :
    key? identityKeyField raw = some key ↔ KeyOf identityKeyField raw key := by
  have hnull : Json.null.member? identityKeyField = none := rfl
  unfold key?
  rw [Option.or_eq_some_iff, bind_string?_eq_some_iff, bind_string?_eq_some_iff]
  cases hsource : raw.member? "_source" with
  | none =>
      rw [Option.getD_none, hnull]
      constructor
      · rintro (h | ⟨-, hown⟩)
        · cases h
        · refine .own (fun source h => ?_) hown
          rw [hsource] at h
          cases h
      · rintro (⟨h, -⟩ | ⟨-, hown⟩)
        · rw [hsource] at h
          cases h
        · exact Or.inr ⟨rfl, hown⟩
  | some source =>
      rw [Option.getD_some]
      constructor
      · rintro (h | ⟨hnone, hown⟩)
        · exact .stored hsource h
        · refine .own (fun other hother k hk => ?_) hown
          obtain rfl := Option.some.inj (hsource.symm.trans hother)
          rw [hk] at hnone
          cases hnone
      · rintro (⟨hother, hkey⟩ | ⟨hstored, hown⟩)
        · obtain rfl := Option.some.inj (hsource.symm.trans hother)
          exact Or.inl hkey
        · refine Or.inr ⟨?_, hown⟩
          rw [Option.eq_none_iff_forall_ne_some]
          intro k hk
          exact hstored source hsource k (bind_string?_eq_some_iff.mp hk)

theorem getD_number_eq_iff {v : Option Json} {x : Binary64} :
    (v.bind Json.number?).getD .zero = x ↔
      (∃ w, v = some w ∧ Numeral w x) ∨ (∀ w, v = some w → ∀ y, ¬ Numeral w y) ∧ x = .zero := by
  cases hnumber : v.bind Json.number? with
  | some y =>
      obtain ⟨w, rfl, hw⟩ := bind_number?_eq_some_iff.mp hnumber
      rw [Option.getD_some]
      constructor
      · rintro rfl
        exact Or.inl ⟨w, rfl, hw⟩
      · rintro (⟨w', hw', hx⟩ | ⟨hnone, -⟩)
        · have hx : (some w).bind Json.number? = some x := bind_number?_eq_some_iff.mpr ⟨w', hw', hx⟩
          exact Option.some.inj (hnumber.symm.trans hx)
        · exact absurd hw (hnone w rfl y)
  | none =>
      have hnone (w : Json) (hv : v = some w) (y : Binary64) : ¬ Numeral w y := by
        intro hw
        rw [bind_number?_eq_some_iff.mpr ⟨w, hv, hw⟩] at hnumber
        cases hnumber
      rw [Option.getD_none]
      constructor
      · rintro rfl
        exact Or.inr ⟨hnone, rfl⟩
      · rintro (⟨w, hv, hw⟩ | ⟨-, hx⟩)
        · exact absurd hw (hnone w hv x)
        · exact hx.symm

theorem getD_null_eq_iff {v : Option Json} {document : Json} :
    v.getD .null = document ↔ v = some document ∨ v = none ∧ document = .null := by
  cases v <;> simp [eq_comm]

theorem hit?_eq_some_iff {h : ScoredHit} :
    hit? identityKeyField raw = some h ↔ HitOf identityKeyField raw h := by
  have hread : hit? identityKeyField raw = (key? identityKeyField raw).map fun identityKey =>
      { identityKey
        score := ((raw.member? "_score").bind Json.number?).getD .zero
        document := (raw.member? "_source").getD .null } := rfl
  rw [hread, Option.map_eq_some_iff]
  constructor
  · rintro ⟨key, hkey, rfl⟩
    exact ⟨key?_eq_some_iff.mp hkey, getD_null_eq_iff.mp rfl, getD_number_eq_iff.mp rfl, rfl, rfl⟩
  · rintro ⟨hkey, hdocument, hscore, hmarkers, hcode⟩
    refine ⟨h.identityKey, key?_eq_some_iff.mpr hkey, ?_⟩
    rw [getD_null_eq_iff.mpr hdocument, getD_number_eq_iff.mpr hscore, ← hmarkers, ← hcode]

theorem hit?_eq_none_iff :
    hit? identityKeyField raw = none ↔ ∀ key, ¬ KeyOf identityKeyField raw key := by
  have hread : hit? identityKeyField raw = none ↔ key? identityKeyField raw = none :=
    Option.map_eq_none_iff
  rw [hread, Option.eq_none_iff_forall_ne_some]
  exact forall_congr' fun key => not_congr key?_eq_some_iff

theorem filterMap_hit?_eq_iff {hs : List ScoredHit} :
    raws.filterMap (hit? identityKeyField) = hs ↔ HitsOf identityKeyField raws hs := by
  constructor
  · rintro rfl
    induction raws with
    | nil => exact .nil
    | cons raw raws ih =>
        cases hhit : hit? identityKeyField raw with
        | none =>
            rw [List.filterMap_cons_none hhit]
            exact .leftOut (hit?_eq_none_iff.mp hhit) ih
        | some h =>
            rw [List.filterMap_cons_some hhit]
            exact .found (hit?_eq_some_iff.mp hhit) ih
  · intro h
    induction h with
    | nil => rfl
    | found hhit _ ih => rw [List.filterMap_cons_some (hit?_eq_some_iff.mpr hhit), ih]
    | leftOut hkeyless _ ih => rw [List.filterMap_cons_none (hit?_eq_none_iff.mpr hkeyless), ih]

end hits

/-! ### Pages -/

/-- A page is that of a response without an error: it has the total of its hits, the greatest score if
that is a number, and the hits of the listed documents, or none for want of a list. -/
structure PageOf (identityKeyField : String) (response : Json) (page : SearchPage) : Prop where
  noError : response.member? "error" = none
  hits : ∃ hits, response.member? "hits" = some hits ∧ Totals hits page.total ∧
    (∀ x, page.maxScore = some x ↔ ∃ v, hits.member? "max_score" = some v ∧ Numeral v x) ∧
    ((∃ raws, hits.member? "hits" = some (.array raws) ∧ HitsOf identityKeyField raws page.hits) ∨
      (∀ raws, hits.member? "hits" ≠ some (.array raws)) ∧ page.hits = [])

/-- What is wrong with the response at a position: it has an error, and else no hits or no total of
them. -/
inductive FaultOf (position : ℕ) (response : Json) : ReplyError → Prop
  | error {error : Json} (h : response.member? "error" = some error) :
      FaultOf position response (.failedQuery position (errorReason error))
  | hits (herror : response.member? "error" = none) (h : response.member? "hits" = none) :
      FaultOf position response (.missingHits position)
  | total {hits : Json} (herror : response.member? "error" = none)
      (hhits : response.member? "hits" = some hits) (h : ∀ n, ¬ Totals hits n) :
      FaultOf position response (.missingTotal position)

section pages

variable {identityKeyField : String} {response : Json} {position : ℕ}

theorem listedHits_eq_iff {v : Option Json} {hs : List ScoredHit} :
    ((v.bind Json.items?).getD []).filterMap (hit? identityKeyField) = hs ↔
      (∃ raws, v = some (.array raws) ∧ HitsOf identityKeyField raws hs) ∨
        (∀ raws, v ≠ some (.array raws)) ∧ hs = [] := by
  cases hitems : v.bind Json.items? with
  | some raws =>
      have hv := bind_items?_eq_some_iff.mp hitems
      rw [Option.getD_some, filterMap_hit?_eq_iff]
      constructor
      · exact fun h => Or.inl ⟨raws, hv, h⟩
      · rintro (⟨others, hothers, h⟩ | ⟨hnone, -⟩)
        · obtain rfl : raws = others := Json.array.inj (Option.some.inj (hv.symm.trans hothers))
          exact h
        · exact absurd hv (hnone raws)
  | none =>
      have hnone (raws : List Json) : v ≠ some (.array raws) := fun hv => by
        rw [bind_items?_eq_some_iff.mpr hv] at hitems
        cases hitems
      rw [Option.getD_none, List.filterMap_nil]
      constructor
      · rintro rfl
        exact Or.inr ⟨hnone, rfl⟩
      · rintro (⟨raws, hv, -⟩ | ⟨-, h⟩)
        · exact absurd hv (hnone raws)
        · exact h.symm

theorem reads_iff_pageOf {p : SearchPage} :
    Reads identityKeyField response p ↔ PageOf identityKeyField response p := by
  have hmax (hits : Json) : p.maxScore = (hits.member? "max_score").bind Json.number? ↔
      ∀ x, p.maxScore = some x ↔ ∃ v, hits.member? "max_score" = some v ∧ Numeral v x := by
    simp only [← bind_number?_eq_some_iff]
    exact ⟨fun h x => h ▸ Iff.rfl, fun h => Option.ext h⟩
  constructor
  · rintro ⟨herror, hits, hhits, htotal, hscore, hlisted⟩
    exact ⟨herror, hits, hhits, htotal, (hmax hits).mp hscore, listedHits_eq_iff.mp hlisted.symm⟩
  · rintro ⟨herror, hits, hhits, htotal, hscore, hlisted⟩
    exact ⟨herror, hits, hhits, htotal, (hmax hits).mpr hscore, (listedHits_eq_iff.mpr hlisted).symm⟩

theorem page_eq_error_iff {e : ReplyError} :
    page identityKeyField position response = .error e ↔ FaultOf position response e := by
  unfold page
  constructor
  · intro h
    cases herror : response.member? "error" with
    | some error =>
        rw [herror] at h
        obtain rfl := Except.error.inj h
        exact .error herror
    | none =>
        rw [herror] at h
        cases hhits : response.member? "hits" with
        | none =>
            rw [hhits] at h
            obtain rfl := Except.error.inj h
            exact .hits herror hhits
        | some hits =>
            rw [hhits] at h
            cases htotal : total? hits with
            | some total =>
                simp only [htotal] at h
                cases h
            | none =>
                simp only [htotal] at h
                obtain rfl := Except.error.inj h
                refine .total herror hhits fun n hn => ?_
                rw [total?_eq_some_iff.mpr hn] at htotal
                cases htotal
  · rintro (herror | ⟨herror, hhits⟩ | ⟨herror, hhits, hnone⟩)
    · rw [herror]
    · rw [herror, hhits]
    · rename_i hits
      have htotal : total? hits = none := by
        rw [Option.eq_none_iff_forall_ne_some]
        exact fun n hn => hnone n (total?_eq_some_iff.mp hn)
      rw [herror, hhits]
      simp only [htotal]

theorem pagesFrom_cons_eq_error_iff {responses : List Json} {e : ReplyError} :
    pagesFrom identityKeyField position (response :: responses) = .error e ↔
      FaultOf position response e ∨
        Whole response ∧ pagesFrom identityKeyField (position + 1) responses = .error e := by
  rw [pagesFrom]
  cases hpage : page identityKeyField position response with
  | error fault =>
      have hfault := page_eq_error_iff.mp hpage
      have hnot : ¬ Whole response := fun hwhole => by
        obtain ⟨p, hp⟩ := whole_iff.mp hwhole
        rw [page_eq_ok_iff.mpr hp] at hpage
        cases hpage
      rw [or_iff_left fun h => hnot h.1, ← @page_eq_error_iff identityKeyField, hpage,
        Except.error.injEq]
      show (Except.error fault : Except ReplyError (List SearchPage)) = .error e ↔ fault = e
      rw [Except.error.injEq]
  | ok p =>
      have hwhole : Whole response := whole_iff.mpr ⟨p, page_eq_ok_iff.mp hpage⟩
      have hnot : ¬ FaultOf position response e := fun hfault => by
        rw [page_eq_error_iff.mpr hfault] at hpage
        cases hpage
      rw [or_iff_right hnot, and_iff_right hwhole]
      show (pagesFrom identityKeyField (position + 1) responses >>= fun ps => pure (p :: ps)) =
        .error e ↔ _
      cases pagesFrom identityKeyField (position + 1) responses with
      | error fault => exact Iff.rfl
      | ok ps =>
          constructor
          all_goals
            intro h
            cases h

theorem pagesFrom_eq_error_iff {responses : List Json} {e : ReplyError} :
    pagesFrom identityKeyField position responses = .error e ↔
      ∃ i response, responses[i]? = some response ∧ FaultOf (position + i) response e ∧
        ∀ j < i, ∀ earlier, responses[j]? = some earlier → Whole earlier := by
  induction responses generalizing position with
  | nil => simp [pagesFrom]
  | cons first responses ih =>
      rw [pagesFrom_cons_eq_error_iff, ih]
      constructor
      · rintro (hfault | ⟨hwhole, i, response, hat, hfault, hbefore⟩)
        · exact ⟨0, first, rfl, hfault, fun j hj => absurd hj (Nat.not_lt_zero j)⟩
        · refine ⟨i + 1, response, hat, ?_, fun j hj earlier hearlier => ?_⟩
          · rwa [Nat.add_right_comm, Nat.add_assoc] at hfault
          · cases j with
            | zero => exact Option.some.inj hearlier ▸ hwhole
            | succ j => exact hbefore j (Nat.lt_of_succ_lt_succ hj) earlier hearlier
      · rintro ⟨i, response, hat, hfault, hbefore⟩
        cases i with
        | zero => exact Or.inl (Option.some.inj hat ▸ hfault)
        | succ i =>
            refine Or.inr ⟨hbefore 0 (Nat.succ_pos i) first rfl, i, response, hat, ?_, ?_⟩
            · rwa [Nat.add_right_comm, Nat.add_assoc]
            · exact fun j hj earlier hearlier => hbefore (j + 1) (Nat.succ_lt_succ hj) earlier hearlier

end pages

/-! ### Replies -/

/-- What is wrong with the reply to a number of searches: it does not list responses, or not as many, or
one of them has a fault and all before it are whole. -/
inductive Refuses (reply : Json) (expected : ℕ) : ReplyError → Prop
  | shape (h : ∀ responses, reply.member? "responses" ≠ some (.array responses)) :
      Refuses reply expected .missingResponses
  | count {responses : List Json} (hlisted : reply.member? "responses" = some (.array responses))
      (h : responses.length ≠ expected) :
      Refuses reply expected (.countMismatch responses.length expected)
  | response {responses : List Json} {position : ℕ} {response : Json} {e : ReplyError}
      (hlisted : reply.member? "responses" = some (.array responses))
      (hcount : responses.length = expected) (hat : responses[position]? = some response)
      (hfault : FaultOf position response e)
      (hbefore : ∀ j < position, ∀ earlier, responses[j]? = some earlier → Whole earlier) :
      Refuses reply expected e

theorem pages_eq_error_iff {reply : Json} {expected : ℕ} {identityKeyField : String}
    {e : ReplyError} :
    pages reply expected identityKeyField = .error e ↔ Refuses reply expected e := by
  unfold pages
  constructor
  · intro h
    cases hitems : (reply.member? "responses").bind Json.items? with
    | none =>
        rw [hitems] at h
        obtain rfl := Except.error.inj h
        refine .shape fun responses hlisted => ?_
        rw [bind_items?_eq_some_iff.mpr hlisted] at hitems
        cases hitems
    | some responses =>
        have hlisted := bind_items?_eq_some_iff.mp hitems
        rw [hitems] at h
        dsimp only at h
        split_ifs at h with hcount
        · obtain rfl := Except.error.inj h
          exact .count hlisted hcount
        · obtain ⟨i, response, hat, hfault, hbefore⟩ := pagesFrom_eq_error_iff.mp h
          rw [Nat.zero_add] at hfault
          exact .response hlisted (not_not.mp hcount) hat hfault hbefore
  · intro h
    cases h with
    | shape h =>
        have hnone : (reply.member? "responses").bind Json.items? = none := by
          rw [Option.eq_none_iff_forall_ne_some]
          exact fun responses hitems => h responses (bind_items?_eq_some_iff.mp hitems)
        rw [hnone]
    | count hlisted h =>
        rw [bind_items?_eq_some_iff.mpr hlisted]
        exact if_pos h
    | response hlisted hcount hat hfault hbefore =>
        rw [bind_items?_eq_some_iff.mpr hlisted]
        refine (if_neg (not_not.mpr hcount)).trans (pagesFrom_eq_error_iff.mpr ?_)
        exact ⟨_, _, hat, (Nat.zero_add _).symm ▸ hfault, hbefore⟩

/-- A reply to a number of searches is read if and only if it lists as many responses and all of them are
whole; it is then read as the pages of these, in their order, and else it is refused for its shape, its
count or its first response that is not whole. -/
theorem pages_exact (reply : Json) (expected : ℕ) (identityKeyField : String) :
    ((∃ ps, pages reply expected identityKeyField = .ok ps) ↔
      ∃ responses, reply.member? "responses" = some (.array responses) ∧
        responses.length = expected ∧ ∀ response ∈ responses, Whole response) ∧
    (∀ ps, pages reply expected identityKeyField = .ok ps ↔
      ∃ responses, reply.member? "responses" = some (.array responses) ∧
        responses.length = expected ∧ List.Forall₂ (PageOf identityKeyField) responses ps) ∧
    ∀ e, pages reply expected identityKeyField = .error e ↔ Refuses reply expected e := by
  have hread : Reads identityKeyField = PageOf identityKeyField :=
    funext fun response => funext fun p => propext reads_iff_pageOf
  refine ⟨?_, fun ps => hread ▸ pages_eq_ok_iff, fun e => pages_eq_error_iff⟩
  simp only [pages_eq_ok_iff, forall_whole_iff identityKeyField]
  constructor
  · rintro ⟨ps, responses, hlisted, hcount, hps⟩
    exact ⟨responses, hlisted, hcount, ps, hps⟩
  · rintro ⟨responses, hlisted, hcount, ps, hps⟩
    exact ⟨ps, responses, hlisted, hcount, hps⟩

end Reply
end Lookalike
