import Lookalike.Proofs.Labels
import Lookalike.Proofs.QueryMeaning
import Lookalike.Proofs.WellFormedQueries

/-! # Searches that their queries tell apart

Different kinds of clauses have queries of one shape: a value in one of several fields and a span in one
of several fields are both alternatives, an unlike value and absent fields are both exclusions.
`Clause.ofQuery?` reads clauses off their queries; it goes by the first of the queries that are joined.

Main statement: `Descriptor.query_eq_iff`.  Searches of the forms that attributes are searched by have
one query only if they have the same clauses and the same marker, since `Clause.ofQuery?` undoes
`Clause.query` there. -/

namespace Lookalike

namespace Clause

/-! ### Reading clauses -/

/-- The clause that a test of fields stands for; a span of no words stands for none. -/
def ofLeaf? : LeafQuery → Option Clause
  | .term field value => some (.exactMatch field value)
  | .nearly field text fuzziness _ => some (.fuzzyMatch field text (.ofNat fuzziness))
  | .nearlyInOne fields text _ fuzziness _ =>
      some (.multiFieldMatch fields text (.fuzzy (.ofNat fuzziness)))
  | .inOne fields text _ => some (.multiFieldMatch fields text .phrase)
  | .phrase field text => some (.phraseMatch field text)
  | .span [] _ _ => none
  | .span (word :: words) slop _ =>
      some (.proximityMatch word.field ((word :: words).map (·.value)) (.ofNat slop)
        (.ofNat word.fuzziness))
  | .fieldExists field => some (.fieldPresent field)

/-- Reads a clause that tests fields itself. -/
def ofTest? (query : Json) : Option Clause := (LeafQuery.ofJson? query).bind ofLeaf?

/-- The field of a clause that asks for a value of a field, or for any. -/
def field? : Clause → Option String
  | .exactMatch field _ => some field
  | .fieldPresent field => some field
  | _ => none

/-- The clause of some alternatives: one value in several fields, or else one of several clauses. -/
def ofAlternatives (clauses : List Clause) : Clause :=
  match clauses with
  | .exactMatch _ value :: _ => .multiFieldMatch (clauses.filterMap field?) value .exact
  | _ => .anyOf clauses

/-- Reads a clause that asks for something that is there. -/
def ofMatch? (query : Json) : Option Clause :=
  match (BoolQuery.ofJson? query).bind (·.should) with
  | some queries => some (ofAlternatives (queries.filterMap ofTest?))
  | none => ofTest? query

/-- The clause of some exclusions: fields that are absent, or else one clause that does not hold. -/
def ofExclusions? (clauses : List Clause) : Option Clause :=
  match clauses with
  | .fieldPresent _ :: _ => some (.fieldAbsent (clauses.filterMap field?))
  | [clause] => some (.negatedMatch clause)
  | _ => none

def ofQuery? (query : Json) : Option Clause :=
  match (BoolQuery.ofJson? query).bind (·.mustNot) with
  | some queries => ofExclusions? (queries.filterMap ofMatch?)
  | none => ofMatch? query

/-! ### Forms of clauses -/

/-- A span of several words. -/
def IsSpan (c : Clause) : Prop :=
  ∃ field terms slop fuzziness, 2 ≤ terms.length ∧ c = .proximityMatch field terms slop fuzziness

/-- A clause that asks for something that is there: a value in one field or in several, a field, or
several words close to each other, in one of several fields if need be. -/
inductive Positive : Clause → Prop
  | exactMatch (field value : String) : Positive (.exactMatch field value)
  | fuzzyMatch (field value : String) (fuzziness : UInt8) :
      Positive (.fuzzyMatch field value fuzziness)
  | phraseMatch (field value : String) : Positive (.phraseMatch field value)
  | fieldPresent (field : String) : Positive (.fieldPresent field)
  | multiFieldMatch {fields : List String} (hseveral : 2 ≤ fields.length) (value : String)
      (mode : MatchMode) : Positive (.multiFieldMatch fields value mode)
  | proximityMatch {terms : List String} (hseveral : 2 ≤ terms.length) (field : String)
      (slop : UInt32) (fuzziness : UInt8) : Positive (.proximityMatch field terms slop fuzziness)
  | anyOf {clauses : List Clause} (hseveral : 2 ≤ clauses.length)
      (hspans : ∀ c ∈ clauses, c.IsSpan) : Positive (.anyOf clauses)

/-- The forms of the clauses by which attributes are searched: what is there, a match of a value that
does not hold, and fields that are absent. -/
inductive Formed : Clause → Prop
  | positive {clause : Clause} (h : clause.Positive) : Formed clause
  | negatedMatch {clause : Clause} (hmatch : clause.Negatable) (h : clause.Positive) :
      Formed (.negatedMatch clause)
  | fieldAbsent {fields : List String} (hsome : fields ≠ []) : Formed (.fieldAbsent fields)

/-- A well-formed clause, as every request asks for, has one of these forms. -/
theorem WellFormed.formed {c : Clause} (h : c.WellFormed) : c.Formed := by
  cases h with
  | exactMatch => exact .positive (.exactMatch _ _)
  | fuzzyMatch => exact .positive (.fuzzyMatch _ _ _)
  | multiFieldMatch hseveral => exact .positive (.multiFieldMatch hseveral _ _)
  | phraseMatch => exact .positive (.phraseMatch _ _)
  | negatedMatch hmatch hclause =>
      refine .negatedMatch hmatch ?_
      cases hmatch with
      | exactMatch field value => exact .exactMatch field value
      | phraseMatch field value => exact .phraseMatch field value
      | multiFieldMatch fields value mode =>
          cases hclause with
          | multiFieldMatch hseveral => exact .multiFieldMatch hseveral value mode
  | proximityMatch hseveral => exact .positive (.proximityMatch hseveral _ _ _)
  | @anyOf fields terms slop fuzziness hseveral _ hspans =>
      refine .positive (.anyOf (by rwa [List.length_map]) ?_)
      rw [List.forall_mem_map]
      intro field hfield
      cases hspans field hfield with
      | proximityMatch hterms => exact ⟨field, terms, slop, fuzziness, hterms, rfl⟩
  | fieldAbsent hsome => exact .fieldAbsent hsome
  | fieldPresent => exact .positive (.fieldPresent _)

/-! ### Clauses that are read back -/

section tests

theorem ofTest?_term (field value : String) :
    ofTest? (Query.term field value) = some (.exactMatch field value) := rfl

theorem ofTest?_fieldExists (field : String) :
    ofTest? (Query.fieldExists field) = some (.fieldPresent field) := rfl

theorem ofTest?_phrase (field value : String) :
    ofTest? (Query.phrase field value) = some (.phraseMatch field value) := rfl

theorem ofTest?_nearly (field value : String) (fuzziness : UInt8) :
    ofTest? (Query.nearly field value fuzziness) = some (.fuzzyMatch field value fuzziness) := by
  rw [ofTest?, LeafQuery.ofJson?_nearly, Option.bind_some, ofLeaf?, UInt8.ofNat_toNat]

theorem ofTest?_nearlyInOne (fields : List String) (value : String) (fuzziness : UInt8) :
    ofTest? (Query.nearlyInOne fields value fuzziness) =
      some (.multiFieldMatch fields value (.fuzzy fuzziness)) := by
  rw [ofTest?, LeafQuery.ofJson?_nearlyInOne, Option.bind_some, ofLeaf?, UInt8.ofNat_toNat]

theorem ofTest?_phraseInOne (fields : List String) (value : String) :
    ofTest? (Query.phraseInOne fields value) = some (.multiFieldMatch fields value .phrase) := by
  rw [ofTest?, LeafQuery.ofJson?_phraseInOne, Option.bind_some, ofLeaf?]

theorem ofTest?_span {terms : List String} (hsome : terms ≠ []) (field : String) (slop : UInt32)
    (fuzziness : UInt8) :
    ofTest? (Query.span field terms slop fuzziness) =
      some (.proximityMatch field terms slop fuzziness) := by
  rw [ofTest?, LeafQuery.ofJson?_span, Option.bind_some]
  cases terms with
  | nil => exact absurd rfl hsome
  | cons term terms =>
      rw [List.map_cons, ofLeaf?, UInt32.ofNat_toNat, UInt8.ofNat_toNat]
      simp [Function.comp_def]

theorem IsSpan.ofTest?_query {c : Clause} (h : c.IsSpan) : ofTest? c.query = some c := by
  obtain ⟨field, terms, slop, fuzziness, hseveral, rfl⟩ := h
  exact ofTest?_span (List.length_pos_iff.mp (by omega)) field slop fuzziness

theorem ofJson?_eq_none_of_ofTest? {query : Json} {c : Clause} (h : ofTest? query = some c) :
    BoolQuery.ofJson? query = none := by
  unfold BoolQuery.ofJson?
  split
  · cases h
  · rfl

end tests

theorem ofQuery?_noneOf (queries : List Json) :
    ofQuery? (Query.noneOf queries) = ofExclusions? (queries.filterMap ofMatch?) := by
  rw [ofQuery?, BoolQuery.ofJson?_noneOf]
  rfl

/-- What is read of the images of a list, when something is read of each. -/
theorem filterMap_map_of_eq_some {α β γ : Type} {f : α → β} {g : β → Option γ} {k : α → γ}
    {xs : List α} (h : ∀ x ∈ xs, g (f x) = some (k x)) : (xs.map f).filterMap g = xs.map k := by
  rw [List.filterMap_map, ← List.filterMap_eq_map]
  exact List.filterMap_congr h

theorem filterMap_map_eq_self {α β : Type} {f : α → β} {g : β → Option α} {xs : List α}
    (h : ∀ x ∈ xs, g (f x) = some x) : (xs.map f).filterMap g = xs :=
  (filterMap_map_of_eq_some h).trans (List.map_id xs)

/-- The query of what is there is a test that reads as the clause, or joins tests whose alternatives
are the clause.  Only values in several fields and alternative spans join tests, and these differ in the
first of them. -/
theorem Positive.test_or_oneOf {c : Clause} (h : c.Positive) : ofTest? c.query = some c ∨
    ∃ queries, c.query = Query.oneOf queries ∧ ofAlternatives (queries.filterMap ofTest?) = c := by
  cases h with
  | exactMatch field value => exact Or.inl (ofTest?_term field value)
  | fuzzyMatch field value fuzziness => exact Or.inl (ofTest?_nearly field value fuzziness)
  | phraseMatch field value => exact Or.inl (ofTest?_phrase field value)
  | fieldPresent field => exact Or.inl (ofTest?_fieldExists field)
  | @multiFieldMatch fields hseveral value mode =>
      cases mode with
      | exact =>
          refine Or.inr ⟨_, rfl, ?_⟩
          rw [filterMap_map_of_eq_some fun field _ => ofTest?_term field value]
          have hfields : (fields.map (Clause.exactMatch · value)).filterMap field? = fields := by
            refine filterMap_map_eq_self fun field _ => ?_
            rfl
          cases fields with
          | nil => cases hseveral
          | cons field fields =>
              exact congrArg (fun fields => Clause.multiFieldMatch fields value .exact) hfields
      | fuzzy fuzziness => exact Or.inl (ofTest?_nearlyInOne fields value fuzziness)
      | phrase => exact Or.inl (ofTest?_phraseInOne fields value)
  | @proximityMatch terms hseveral field slop fuzziness =>
      exact Or.inl (IsSpan.ofTest?_query ⟨field, terms, slop, fuzziness, hseveral, rfl⟩)
  | @anyOf clauses hseveral hspans =>
      refine Or.inr ⟨_, rfl, ?_⟩
      rw [clauseQueries_eq_map, filterMap_map_eq_self fun c hc => (hspans c hc).ofTest?_query]
      cases clauses with
      | nil => cases hseveral
      | cons c clauses =>
          obtain ⟨field, terms, slop, fuzziness, -, rfl⟩ := hspans c List.mem_cons_self
          rfl

theorem Positive.ofMatch?_query {c : Clause} (h : c.Positive) : ofMatch? c.query = some c := by
  rcases h.test_or_oneOf with htest | ⟨queries, hquery, halternatives⟩
  · rw [ofMatch?, ofJson?_eq_none_of_ofTest? htest]
    exact htest
  · rw [hquery, ofMatch?, BoolQuery.ofJson?_oneOf]
    exact congrArg some halternatives

theorem Positive.mustNot_eq_none {c : Clause} (h : c.Positive) :
    (BoolQuery.ofJson? c.query).bind (·.mustNot) = none := by
  rcases h.test_or_oneOf with htest | ⟨queries, hquery, -⟩
  · rw [ofJson?_eq_none_of_ofTest? htest, Option.bind_none]
  · rw [hquery, BoolQuery.ofJson?_oneOf]
    rfl

/-- A clause of a form that attributes are searched by comes back from its query. -/
theorem Formed.ofQuery?_query {c : Clause} (h : c.Formed) : ofQuery? c.query = some c := by
  cases h with
  | positive h =>
      rw [ofQuery?, h.mustNot_eq_none]
      exact h.ofMatch?_query
  | @negatedMatch clause hmatch h =>
      have hread : [clause.query].filterMap ofMatch? = [clause] := by
        rw [List.filterMap_cons_some h.ofMatch?_query, List.filterMap_nil]
      rw [Clause.query, ofQuery?_noneOf, hread]
      cases hmatch
      all_goals rfl
  | @fieldAbsent fields hsome =>
      have hread : ∀ field ∈ fields, ofMatch? (Query.fieldExists field) = some (.fieldPresent field) :=
        fun field _ => (Positive.fieldPresent field).ofMatch?_query
      rw [Clause.query, ofQuery?_noneOf, filterMap_map_of_eq_some hread]
      have hfields : (fields.map Clause.fieldPresent).filterMap field? = fields := by
        refine filterMap_map_eq_self fun field _ => ?_
        rfl
      cases fields with
      | nil => exact absurd rfl hsome
      | cons field fields => exact congrArg (fun fields => some (Clause.fieldAbsent fields)) hfields

theorem eq_of_map_query_eq {cs cs' : List Clause} (hcs : ∀ c ∈ cs, c.Formed)
    (hcs' : ∀ c ∈ cs', c.Formed) (h : cs.map query = cs'.map query) : cs = cs' := by
  rw [← filterMap_map_eq_self fun c hc => (hcs c hc).ofQuery?_query, h,
    filterMap_map_eq_self fun c hc => (hcs' c hc).ofQuery?_query]

end Clause

/-! ### Searches -/

namespace Descriptor

/-- The clauses of a search have the forms by which attributes are searched. -/
structure Formed (d : Descriptor) : Prop where
  must : ∀ c ∈ d.must, c.Formed
  should : ∀ c ∈ d.should, c.Formed

def nameOfQuery? (query : Json) : Option String :=
  (query.member? "bool").bind fun members => (members.member? "_name").bind Json.string?

theorem nameOfQuery?_query (d : Descriptor) : nameOfQuery? d.query = d.label := by
  rw [d.query_eq]
  generalize d.must.map Clause.query = must, d.should.map Clause.query = should, d.label = label
  cases must <;> cases should <;> cases label <;> rfl

theorem listed_inj {queries queries' : List Json}
    (h : BoolQuery.listed queries = BoolQuery.listed queries') : queries = queries' := by
  rw [← BoolQuery.getD_listed queries, h, BoolQuery.getD_listed]

/-- Two searches of the forms by which attributes are searched have one query exactly if they have the
same clauses and the same marker. -/
theorem query_eq_iff {d d' : Descriptor} (hd : d.Formed) (hd' : d'.Formed) :
    d.query = d'.query ↔ d.must = d'.must ∧ d.should = d'.should ∧ d.marker = d'.marker := by
  constructor
  · intro h
    have hbool := congrArg BoolQuery.ofJson? h
    rw [BoolQuery.ofJson?_descriptor, BoolQuery.ofJson?_descriptor, Option.some.injEq,
      BoolQuery.mk.injEq] at hbool
    obtain ⟨hmust, hshould, -⟩ := hbool
    have hname := congrArg nameOfQuery? h
    rw [nameOfQuery?_query, nameOfQuery?_query] at hname
    refine ⟨Clause.eq_of_map_query_eq hd.must hd'.must (listed_inj hmust),
      Clause.eq_of_map_query_eq hd.should hd'.should (listed_inj hshould), ?_⟩
    exact Option.map_injective (fun _ _ => Marker.label_injective) hname
  · rintro ⟨hmust, hshould, hmarker⟩
    rw [query, query, label, label, hmust, hshould, hmarker]

/-- Two alternatives and two exclusions in a row do not make one query of two searches. -/
theorem query_eq_iff_inTwoFields :
    let d : Descriptor := {
      must := [.multiFieldMatch ["firstName", "usageName"] "ada" .exact,
        .fieldAbsent ["login", "mail"]]
      marker := some ⟨"R#1", 2⟩ }
    let d' : Descriptor := {
      must := [.anyOf [.proximityMatch "firstName" ["ada", "mae"] 1 1,
          .proximityMatch "usageName" ["ada", "mae"] 1 1],
        .negatedMatch (.multiFieldMatch ["login", "mail"] "m.berg" .exact)]
      marker := some ⟨"R#1", 2⟩ }
    d.Formed ∧ d'.Formed ∧ d.query ≠ d'.query := by
  intro d d'
  have hd : d.Formed := by
    refine ⟨List.forall_mem_cons.mpr ⟨.positive (.multiFieldMatch (by decide) _ _), ?_⟩, nofun⟩
    exact List.forall_mem_singleton.mpr (.fieldAbsent (by decide))
  have hd' : d'.Formed := by
    refine ⟨List.forall_mem_cons.mpr ⟨.positive (.anyOf (by decide) ?_), ?_⟩, nofun⟩
    · refine List.forall_mem_cons.mpr ⟨⟨_, _, _, _, by decide, rfl⟩, ?_⟩
      exact List.forall_mem_singleton.mpr ⟨_, _, _, _, by decide, rfl⟩
    · exact List.forall_mem_singleton.mpr
        (.negatedMatch (.multiFieldMatch _ _ _) (.multiFieldMatch (by decide) _ _))
  refine ⟨hd, hd', fun h => ?_⟩
  obtain ⟨hmust, -, -⟩ := (query_eq_iff hd hd').mp h
  cases hmust

end Descriptor

end Lookalike
