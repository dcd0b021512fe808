import Mathlib.Data.List.Basic
import Lookalike.Engine.Query
import Lookalike.Synthesis

/-! # What a query means

The engine is known by two rules only: a test of fields has some truth on a document, and a `bool`
query holds by the truth of the queries that it joins.  `LeafQuery.ofJson?` and `BoolQuery.ofJson?`
read both kinds off a JSON value, with every option and no other, `SearchEngine` states the two rules
of what was read, and `SearchEngine.ofTruth` is an engine for any truth of the tests.

`Clause.Holds` says what a clause asks of a document, without a query.  Main statement:
`SearchEngine.query_means`, by induction over the clauses: the query of a clause holds where the
clause does, and that of a search where its clauses do. -/

namespace Lookalike

/-! ### Tests of fields -/

/-- A word of a span, as one field nearly has it. -/
structure SpanWord where
  field : String
  value : String
  fuzziness : Nat

/-- A query that tests fields itself, with its options. -/
inductive LeafQuery where
  | term (field value : String)
  | nearly (field text : String) (fuzziness : Nat) (operator : String)
  | nearlyInOne (fields : List String) (text kind : String) (fuzziness : Nat) (operator : String)
  | inOne (fields : List String) (text kind : String)
  | phrase (field text : String)
  | span (words : List SpanWord) (slop : Nat) (inOrder : Bool)
  | fieldExists (field : String)

def SpanWord.ofJson? : Json → Option SpanWord
  | .object [("span_multi", .object [("match", .object [("fuzzy", .object [(field, .object [
      ("fuzziness", .integer (.ofNat fuzziness)), ("value", .string value)])])])])] =>
    some ⟨field, value, fuzziness⟩
  | _ => none

/-- Reads a test; a member that it does not know makes it no test. -/
def LeafQuery.ofJson? : Json → Option LeafQuery
  | .object [("term", .object [(field, .object [("value", .string value)])])] =>
      some (.term field value)
  | .object [("match", .object [(field, .object [
      ("fuzziness", .integer (.ofNat fuzziness)), ("operator", .string operator),
      ("query", .string text)])])] =>
    some (.nearly field text fuzziness operator)
  | .object [("multi_match", .object [
      ("fields", .array fields), ("fuzziness", .integer (.ofNat fuzziness)),
      ("operator", .string operator), ("query", .string text), ("type", .string kind)])] =>
    (fields.mapM Json.string?).map (.nearlyInOne · text kind fuzziness operator)
  | .object [("multi_match", .object [
      ("fields", .array fields), ("query", .string text), ("type", .string kind)])] =>
    (fields.mapM Json.string?).map (.inOne · text kind)
  | .object [("match_phrase", .object [(field, .string text)])] => some (.phrase field text)
  | .object [("span_near", .object [
      ("clauses", .array words), ("in_order", .boolean inOrder),
      ("slop", .integer (.ofNat slop))])] =>
    (words.mapM SpanWord.ofJson?).map (.span · slop inOrder)
  | .object [("exists", .object [("field", .string field)])] => some (.fieldExists field)
  | _ => none

/-! ### Joined queries -/

/-- That a property holds at so many places of a list. -/
def AtLeast {α : Type} (n : Nat) (p : α → Prop) (xs : List α) : Prop :=
  ∃ held : List α, held.Sublist xs ∧ n ≤ held.length ∧ ∀ x ∈ held, p x

/-- The queries that a `bool` query joins; a missing list is not an empty one. -/
structure BoolQuery where
  must : Option (List Json) := none
  should : Option (List Json) := none
  mustNot : Option (List Json) := none
  minimumShouldMatch : Option Nat := none

namespace BoolQuery

/-- The query with one more member, if it may have that. -/
def withMember? (b : BoolQuery) : String × Json → Option BoolQuery
  | ("must", .array queries) => some { b with must := some queries }
  | ("should", .array queries) => some { b with should := some queries }
  | ("must_not", .array queries) => some { b with mustNot := some queries }
  | ("minimum_should_match", .integer (.ofNat n)) => some { b with minimumShouldMatch := some n }
  | ("_name", .string _) => some b
  | _ => none

def ofMembers? : List (String × Json) → Option BoolQuery
  | [] => some {}
  | m :: ms => (ofMembers? ms).bind (·.withMember? m)

def ofJson? : Json → Option BoolQuery
  | .object [("bool", .object members)] => ofMembers? members
  | _ => none

/-- How many of the `should` queries have to hold. -/
def required (b : BoolQuery) : Nat :=
  b.minimumShouldMatch.getD (if b.must.isSome ∨ b.should.isNone then 0 else 1)

/-- What a `bool` query says, by what the queries that it joins say. -/
def Holds (b : BoolQuery) (p : Json → Prop) : Prop :=
  (∀ q ∈ b.must.getD [], p q) ∧ (∀ q ∈ b.mustNot.getD [], ¬ p q) ∧
    AtLeast b.required p (b.should.getD [])

end BoolQuery

/-- A search engine, by what its queries say of the documents: the tests of fields say something, and
a `bool` query joins what its queries say. -/
structure SearchEngine (Document : Type) where
  Holds : Json → Document → Prop
  truth : LeafQuery → Document → Prop
  holds_leaf : ∀ {query : Json} {leaf : LeafQuery} (doc : Document),
    LeafQuery.ofJson? query = some leaf → (Holds query doc ↔ truth leaf doc)
  holds_bool : ∀ {query : Json} {b : BoolQuery} (doc : Document),
    BoolQuery.ofJson? query = some b → (Holds query doc ↔ b.Holds (Holds · doc))

section Lists

variable {α : Type} {p : α → Prop} {xs : List α}

theorem atLeast_zero : AtLeast 0 p xs :=
  ⟨[], List.nil_sublist xs, Nat.le_refl 0, fun _ hx => absurd hx List.not_mem_nil⟩

theorem atLeast_one : AtLeast 1 p xs ↔ ∃ x ∈ xs, p x := by
  constructor
  · rintro ⟨held, hsub, hlen, hheld⟩
    obtain ⟨x, hx⟩ := List.exists_mem_of_length_pos hlen
    exact ⟨x, hsub.subset hx, hheld x hx⟩
  · rintro ⟨x, hx, hp⟩
    exact ⟨[x], List.singleton_sublist.mpr hx, Nat.le_refl 1,
      fun y hy => List.mem_singleton.mp hy ▸ hp⟩

theorem AtLeast.congr {n : Nat} {p' : α → Prop} (h : ∀ x ∈ xs, p x ↔ p' x) :
    AtLeast n p xs ↔ AtLeast n p' xs := by
  refine exists_congr fun held => and_congr_right fun hsub => and_congr_right fun _ => ?_
  exact forall₂_congr fun x hx => h x (hsub.subset hx)

theorem mapM_map_of_eq_some {β γ : Type} {f : α → β} {g : β → Option γ} {h : α → γ}
    (hread : ∀ x, g (f x) = some (h x)) (xs : List α) :
    (xs.map f).mapM g = some (xs.map h) := by
  induction xs with
  | nil => rfl
  | cons x xs ih => simp [List.mapM_cons, hread x, ih]

end Lists

/-! ### An engine for any truth -/

namespace BoolQuery

/-- The queries that a `bool` query joins, in all of its lists. -/
def queries (b : BoolQuery) : List Json :=
  b.must.getD [] ++ b.mustNot.getD [] ++ b.should.getD []

theorem mem_queries {b : BoolQuery} {q : Json} :
    q ∈ b.queries ↔ q ∈ b.must.getD [] ∨ q ∈ b.mustNot.getD [] ∨ q ∈ b.should.getD [] := by
  simp [queries]

/-- What a `bool` query says depends on what the queries that it joins say, and on nothing else. -/
theorem Holds.congr {b : BoolQuery} {p p' : Json → Prop} (h : ∀ q ∈ b.queries, p q ↔ p' q) :
    b.Holds p ↔ b.Holds p' := by
  refine and_congr ?_ (and_congr ?_ ?_)
  · exact forall₂_congr fun q hq => h q (mem_queries.mpr (Or.inl hq))
  · exact forall₂_congr fun q hq => not_congr (h q (mem_queries.mpr (Or.inr (Or.inl hq))))
  · exact AtLeast.congr fun q hq => h q (mem_queries.mpr (Or.inr (Or.inr hq)))

theorem sizeOf_lt_member {name : String} {queries : List Json} {q : Json} (h : q ∈ queries) :
    sizeOf q < sizeOf (name, Json.array queries) := by
  have := List.sizeOf_lt_of_mem h
  simp only [Prod.mk.sizeOf_spec, Json.array.sizeOf_spec]
  omega

theorem sizeOf_lt_of_withMember? {b b' : BoolQuery} {m : String × Json}
    (h : b.withMember? m = some b') {q : Json} (hq : q ∈ b'.queries) :
    q ∈ b.queries ∨ sizeOf q < sizeOf m := by
  unfold withMember? at h
  rw [mem_queries] at hq ⊢
  split at h <;> cases h
  · exact hq.elim (fun hq => Or.inr (sizeOf_lt_member hq)) fun hq => Or.inl (Or.inr hq)
  · rcases hq with hq | hq | hq
    · exact Or.inl (Or.inl hq)
    · exact Or.inl (Or.inr (Or.inl hq))
    · exact Or.inr (sizeOf_lt_member hq)
  · rcases hq with hq | hq | hq
    · exact Or.inl (Or.inl hq)
    · exact Or.inr (sizeOf_lt_member hq)
    · exact Or.inl (Or.inr (Or.inr hq))
  · exact Or.inl hq
  · exact Or.inl hq

theorem sizeOf_lt_of_ofMembers? {members : List (String × Json)} {b : BoolQuery}
    (h : ofMembers? members = some b) {q : Json} (hq : q ∈ b.queries) :
    sizeOf q < sizeOf members := by
  induction members generalizing b with
  | nil =>
      obtain rfl : ({} : BoolQuery) = b := Option.some.inj h
      exact absurd hq List.not_mem_nil
  | cons m ms ih =>
      obtain ⟨b', hb', hm⟩ := Option.bind_eq_some_iff.mp h
      rw [List.cons.sizeOf_spec]
      rcases sizeOf_lt_of_withMember? hm hq with hq | hlt
      · have := ih hb' hq
        omega
      · omega

theorem sizeOf_lt_of_ofJson? {query : Json} {b : BoolQuery} (h : ofJson? query = some b) {q : Json}
    (hq : q ∈ b.queries) : sizeOf q < sizeOf query := by
  unfold ofJson? at h
  split at h
  · rename_i members
    have := sizeOf_lt_of_ofMembers? h hq
    simp only [Json.object.sizeOf_spec, List.cons.sizeOf_spec, Prod.mk.sizeOf_spec]
    omega
  · cases h

end BoolQuery

namespace SearchEngine

variable {Document : Type}

/-- What a query says of a document, given what the tests say.  The bound is for the recursion: every query
that is joined by another meets it. -/
def evaluate (truth : LeafQuery → Document → Prop) (query : Json) (doc : Document) : Prop :=
  match LeafQuery.ofJson? query, BoolQuery.ofJson? query with
  | some leaf, _ => truth leaf doc
  | none, some b => b.Holds fun q => ∃ _ : sizeOf q < sizeOf query, evaluate truth q doc
  | none, none => False
termination_by sizeOf query

/-- An engine for any truth of the tests; a value that is no query holds nowhere. -/
def ofTruth (truth : LeafQuery → Document → Prop) : SearchEngine Document where
  Holds := evaluate truth
  truth := truth
  holds_leaf := by
    intro query leaf doc h
    rw [evaluate, h]
  holds_bool := by
    intro query b doc h
    have hleaf : LeafQuery.ofJson? query = none := by
      unfold BoolQuery.ofJson? at h
      split at h
      · rfl
      · cases h
    rw [evaluate, hleaf, h]
    exact BoolQuery.Holds.congr fun q hq =>
      ⟨fun ⟨_, hholds⟩ => hholds, fun hholds => ⟨BoolQuery.sizeOf_lt_of_ofJson? h hq, hholds⟩⟩

end SearchEngine

/-! ### What a clause asks -/

mutual

/-- Whether a clause holds of a document, given which tests of its fields do. -/
def Clause.Holds (truth : LeafQuery → Prop) : Clause → Prop
  | .exactMatch field value => truth (.term field value)
  | .fuzzyMatch field value fuzziness => truth (.nearly field value fuzziness.toNat "and")
  | .multiFieldMatch fields value .exact => ∃ field ∈ fields, truth (.term field value)
  | .multiFieldMatch fields value (.fuzzy fuzziness) =>
      truth (.nearlyInOne fields value "best_fields" fuzziness.toNat "and")
  | .multiFieldMatch fields value .phrase => truth (.inOne fields value "phrase")
  | .phraseMatch field value => truth (.phrase field value)
  | .negatedMatch clause => ¬ clause.Holds truth
  | .proximityMatch field terms slop fuzziness =>
      truth (.span (terms.map fun term => ⟨field, term, fuzziness.toNat⟩) slop.toNat true)
  | .anyOf clauses => anyHolds truth clauses
  | .fieldAbsent fields => ∀ field ∈ fields, ¬ truth (.fieldExists field)
  | .fieldPresent field => truth (.fieldExists field)

def anyHolds (truth : LeafQuery → Prop) : List Clause → Prop
  | [] => False
  | c :: cs => c.Holds truth ∨ anyHolds truth cs

end

/-- What a search asks of a document: all that it requires, and where it requires nothing, one of the
clauses that would add to the score. -/
def Descriptor.Holds (truth : LeafQuery → Prop) (d : Descriptor) : Prop :=
  (∀ c ∈ d.must, c.Holds truth) ∧ (d.must = [] → d.should ≠ [] → ∃ c ∈ d.should, c.Holds truth)

theorem anyHolds_iff {truth : LeafQuery → Prop} {cs : List Clause} :
    anyHolds truth cs ↔ ∃ c ∈ cs, c.Holds truth := by
  induction cs with
  | nil => simp [anyHolds]
  | cons c cs ih => simp [anyHolds, ih]

theorem clauseQueries_eq_map (cs : List Clause) : clauseQueries cs = cs.map Clause.query := by
  induction cs with
  | nil => rfl
  | cons c cs ih => rw [clauseQueries, ih, List.map_cons]

/-! ### What the queries read as

A query is written with its members in the order that reads best, and read in the order of their
names. -/

theorem mapM_string? (texts : List String) :
    (texts.map Json.string).mapM Json.string? = some texts := by
  simpa using mapM_map_of_eq_some (f := Json.string) (h := id) (fun _ => rfl) texts

theorem SpanWord.ofJson?_spanWord (field term : String) (fuzziness : UInt8) :
    ofJson? (Query.spanWord field term fuzziness) = some ⟨field, term, fuzziness.toNat⟩ := by
  have hword : Query.spanWord field term fuzziness =
      .object [("span_multi", .object [("match", .object [("fuzzy", .object [(field, .object [
        ("fuzziness", .nat fuzziness.toNat),
        ("value", .string term)])])])])] := by
    simp (disch := decide) only [Query.spanWord, Json.obj, sortEntries, List.foldl, insertEntry_nil,
      insertEntry_cons_of_lt]
  rw [hword]
  rfl

namespace LeafQuery

theorem ofJson?_term (field value : String) :
    ofJson? (Query.term field value) = some (.term field value) := rfl

theorem ofJson?_nearly (field value : String) (fuzziness : UInt8) :
    ofJson? (Query.nearly field value fuzziness) =
      some (.nearly field value fuzziness.toNat "and") := by
  have hquery : Query.nearly field value fuzziness =
      .object [("match", .object [(field, .object [
        ("fuzziness", .nat fuzziness.toNat),
        ("operator", .string "and"),
        ("query", .string value)])])] := by
    simp (disch := decide) only [Query.nearly, Json.obj, sortEntries, List.foldl, insertEntry_nil,
      insertEntry_cons_of_lt, insertEntry_cons_of_gt]
  rw [hquery]
  rfl

theorem ofJson?_nearlyInOne (fields : List String) (value : String) (fuzziness : UInt8) :
    ofJson? (Query.nearlyInOne fields value fuzziness) =
      some (.nearlyInOne fields value "best_fields" fuzziness.toNat "and") := by
  have hquery : Query.nearlyInOne fields value fuzziness =
      .object [("multi_match", .object [
        ("fields", .strings fields),
        ("fuzziness", .nat fuzziness.toNat),
        ("operator", .string "and"),
        ("query", .string value),
        ("type", .string "best_fields")])] := by
    simp (disch := decide) only [Query.nearlyInOne, Json.obj, sortEntries, List.foldl,
      insertEntry_nil, insertEntry_cons_of_lt, insertEntry_cons_of_gt]
  rw [hquery]
  exact congrArg (Option.map (LeafQuery.nearlyInOne · value "best_fields" fuzziness.toNat "and"))
    (mapM_string? fields)

theorem ofJson?_phrase (field value : String) :
    ofJson? (Query.phrase field value) = some (.phrase field value) := rfl

theorem ofJson?_phraseInOne (fields : List String) (value : String) :
    ofJson? (Query.phraseInOne fields value) = some (.inOne fields value "phrase") := by
  have hquery : Query.phraseInOne fields value =
      .object [("multi_match", .object [
        ("fields", .strings fields),
        ("query", .string value),
        ("type", .string "phrase")])] := by
    simp (disch := decide) only [Query.phraseInOne, Json.obj, sortEntries, List.foldl,
      insertEntry_nil, insertEntry_cons_of_lt, insertEntry_cons_of_gt]
  rw [hquery]
  exact congrArg (Option.map (LeafQuery.inOne · value "phrase")) (mapM_string? fields)

theorem ofJson?_span (field : String) (terms : List String) (slop : UInt32) (fuzziness : UInt8) :
    ofJson? (Query.span field terms slop fuzziness) =
      some (.span (terms.map fun term => ⟨field, term, fuzziness.toNat⟩) slop.toNat true) := by
  have hquery : Query.span field terms slop fuzziness =
      .object [("span_near", .object [
        ("clauses", .array (terms.map fun term => Query.spanWord field term fuzziness)),
        ("in_order", .boolean true),
        ("slop", .nat slop.toNat)])] := by
    simp (disch := decide) only [Query.span, Json.obj, sortEntries, List.foldl, insertEntry_nil,
      insertEntry_cons_of_lt, insertEntry_cons_of_gt]
  rw [hquery]
  exact congrArg (Option.map (LeafQuery.span · slop.toNat true))
    (mapM_map_of_eq_some (fun term => SpanWord.ofJson?_spanWord field term fuzziness) terms)

theorem ofJson?_fieldExists (field : String) :
    ofJson? (Query.fieldExists field) = some (.fieldExists field) := rfl

end LeafQuery

/-- The members of the query of a search are written with its name last, and the name comes first in
their order. -/
theorem Descriptor.query_eq (d : Descriptor) :
    d.query = .object [("bool", .object (
      (d.label.map fun label => ("_name", Json.string label)).toList ++
        listMember "must" (d.must.map Clause.query) ++
        listMember "should" (d.should.map Clause.query)))] := by
  unfold query
  rw [clauseQueries_eq_map, clauseQueries_eq_map]
  generalize d.must.map Clause.query = must, d.should.map Clause.query = should, d.label = label
  have hsorted : sortEntries (listMember "must" must ++ listMember "should" should ++
      (label.map fun label => ("_name", Json.string label)).toList) =
      (label.map fun label => ("_name", Json.string label)).toList ++
        listMember "must" must ++ listMember "should" should := by
    cases must <;> cases should <;> cases label <;>
      simp (disch := decide) [listMember, sortEntries, insertEntry_nil, insertEntry_cons_of_lt,
        insertEntry_cons_of_gt]
  rw [Json.obj, Json.obj, hsorted]
  rfl

namespace BoolQuery

theorem ofJson?_oneOf (queries : List Json) :
    ofJson? (Query.oneOf queries) =
      some { should := some queries, minimumShouldMatch := some 1 } := by
  have hquery : Query.oneOf queries =
      .object [("bool", .object [("minimum_should_match", .nat 1), ("should", .array queries)])] := by
    simp (disch := decide) only [Query.oneOf, Json.obj, sortEntries, List.foldl, insertEntry_nil,
      insertEntry_cons_of_lt]
  rw [hquery]
  rfl

theorem ofJson?_noneOf (queries : List Json) :
    ofJson? (Query.noneOf queries) = some { mustNot := some queries } := rfl

/-- The list of some queries, or none for no query. -/
def listed (queries : List Json) : Option (List Json) :=
  if queries.isEmpty then none else some queries

theorem getD_listed (queries : List Json) : (listed queries).getD [] = queries := by
  cases queries <;> rfl

theorem required_listed (must should : List Json) :
    required { must := listed must, should := listed should } =
      if must = [] ∧ should ≠ [] then 1 else 0 := by
  cases must <;> cases should <;> rfl

/-- An empty list of a search is missing from its query, and the name is no part of it. -/
theorem ofJson?_descriptor (d : Descriptor) :
    ofJson? d.query = some {
      must := listed (d.must.map Clause.query)
      should := listed (d.should.map Clause.query) } := by
  rw [d.query_eq]
  generalize d.must.map Clause.query = must, d.should.map Clause.query = should, d.label = label
  cases must <;> cases should <;> cases label <;> rfl

end BoolQuery

namespace SearchEngine

variable {Document : Type} (e : SearchEngine Document) (doc : Document)

theorem holds_oneOf (queries : List Json) :
    e.Holds (Query.oneOf queries) doc ↔ ∃ q ∈ queries, e.Holds q doc := by
  rw [e.holds_bool doc (BoolQuery.ofJson?_oneOf queries)]
  simp [BoolQuery.Holds, BoolQuery.required, atLeast_one]

theorem holds_noneOf (queries : List Json) :
    e.Holds (Query.noneOf queries) doc ↔ ∀ q ∈ queries, ¬ e.Holds q doc := by
  rw [e.holds_bool doc (BoolQuery.ofJson?_noneOf queries)]
  simp [BoolQuery.Holds, BoolQuery.required, atLeast_zero]

/-- A search that requires something leaves the other clauses to the score; with nothing required, one
of them has to hold. -/
theorem holds_descriptor (d : Descriptor) :
    e.Holds d.query doc ↔ (∀ c ∈ d.must, e.Holds c.query doc) ∧
      (d.must = [] → d.should ≠ [] → ∃ c ∈ d.should, e.Holds c.query doc) := by
  rw [e.holds_bool doc (BoolQuery.ofJson?_descriptor d)]
  simp only [BoolQuery.Holds, BoolQuery.getD_listed, BoolQuery.required_listed, List.forall_mem_map,
    ne_eq, List.map_eq_nil_iff]
  refine and_congr_right fun _ => (and_iff_right fun q hq => absurd hq List.not_mem_nil).trans ?_
  by_cases hshould : d.must = [] ∧ ¬ d.should = []
  · rw [if_pos hshould, atLeast_one]
    simp [hshould]
  · rw [if_neg hshould]
    exact iff_of_true atLeast_zero fun hmust hne => absurd ⟨hmust, hne⟩ hshould

mutual

/-- The query of a clause holds where the clause does, by induction over the clauses inside it. -/
theorem holds_query : ∀ c : Clause, e.Holds c.query doc ↔ c.Holds (e.truth · doc)
  | .exactMatch field value => e.holds_leaf doc (LeafQuery.ofJson?_term field value)
  | .fuzzyMatch field value fuzziness =>
      e.holds_leaf doc (LeafQuery.ofJson?_nearly field value fuzziness)
  | .multiFieldMatch fields value .exact => by
      simp only [Clause.query, e.holds_oneOf, Clause.Holds, List.mem_map, exists_exists_and_eq_and,
        e.holds_leaf doc (LeafQuery.ofJson?_term _ value)]
  | .multiFieldMatch fields value (.fuzzy fuzziness) =>
      e.holds_leaf doc (LeafQuery.ofJson?_nearlyInOne fields value fuzziness)
  | .multiFieldMatch fields value .phrase =>
      e.holds_leaf doc (LeafQuery.ofJson?_phraseInOne fields value)
  | .phraseMatch field value => e.holds_leaf doc (LeafQuery.ofJson?_phrase field value)
  | .negatedMatch clause => by
      rw [Clause.query, e.holds_noneOf, List.forall_mem_singleton, holds_query clause, Clause.Holds]
  | .proximityMatch field terms slop fuzziness =>
      e.holds_leaf doc (LeafQuery.ofJson?_span field terms slop fuzziness)
  | .anyOf clauses => by
      simp only [Clause.query, e.holds_oneOf, clauseQueries_eq_map, List.mem_map,
        exists_exists_and_eq_and, Clause.Holds, anyHolds_iff]
      exact exists_congr fun c => and_congr_right fun hc => holds_queries clauses c hc
  | .fieldAbsent fields => by
      simp only [Clause.query, e.holds_noneOf, Clause.Holds, List.forall_mem_map,
        e.holds_leaf doc (LeafQuery.ofJson?_fieldExists _)]
  | .fieldPresent field => e.holds_leaf doc (LeafQuery.ofJson?_fieldExists field)

theorem holds_queries :
    ∀ cs : List Clause, ∀ c ∈ cs, e.Holds c.query doc ↔ c.Holds (e.truth · doc)
  | [], _, hc => absurd hc List.not_mem_nil
  | c :: cs, c', hc => by
      rcases List.mem_cons.mp hc with heq | hc
      · rw [heq]
        exact holds_query c
      · exact holds_queries cs c' hc

end

end SearchEngine

/-! ### The clauses of attributes -/

section Attributes

variable {truth : LeafQuery → Prop}

/-- An exact match over some fields holds in one of them, also where it is over one field alone. -/
theorem Clause.holds_matching_exact (fields : List String) (value : String) :
    (Clause.matching fields value .exact).Holds truth ↔
      ∃ field ∈ fields, truth (.term field value) := by
  match fields with
  | [field] => simp [Clause.matching, Clause.Holds]
  | [] | _ :: _ :: _ => simp [Clause.matching, Clause.Holds]

/-- An attribute that has to be unlike has the opposite clause of one that has to be alike. -/
theorem SynthesisOptions.attributeClause_different (o : SynthesisOptions) (a : ObservedAttribute) :
    o.attributeClause ⟨a, .different⟩ = .negatedMatch (o.attributeClause ⟨a, .strict⟩) := by
  obtain ⟨key, value, treatment, outputKeys, kind⟩ := a
  cases kind <;> rfl

end Attributes

/-! ### Queries and clauses -/

/-- On an engine of which only its rules are known, the query of a clause holds of a document where
the clause does, at any depth, and the query of a search where all that it requires does, or, where
it requires nothing, one of its other clauses.  An exact match holds in one of its fields.  The query
of an attribute that has to be unlike holds where that of the attribute alike does not, and the query
of an absent one where none of its fields exists. -/
theorem SearchEngine.query_means {Document : Type} (e : SearchEngine Document) (doc : Document) :
    (∀ c : Clause, e.Holds c.query doc ↔ c.Holds (e.truth · doc)) ∧
    (∀ d : Descriptor, e.Holds d.query doc ↔ d.Holds (e.truth · doc)) ∧
    (∀ (fields : List String) (value : String),
      e.Holds (Clause.matching fields value .exact).query doc ↔
        ∃ field ∈ fields, e.truth (.term field value) doc) ∧
    (∀ (o : SynthesisOptions) (a : ObservedAttribute),
      (e.Holds (o.attributeClause ⟨a, .different⟩).query doc ↔
        ¬ e.Holds (o.attributeClause ⟨a, .strict⟩).query doc) ∧
      (e.Holds (o.attributeClause ⟨a, .absent⟩).query doc ↔
        ∀ field ∈ a.outputKeys, ¬ e.truth (.fieldExists field) doc)) := by
  have hclause := e.holds_query doc
  refine ⟨hclause, fun d => ?_, fun fields value => ?_, fun o a => ⟨?_, ?_⟩⟩
  · simp only [e.holds_descriptor, Descriptor.Holds, hclause]
  · rw [hclause, Clause.holds_matching_exact]
  · rw [o.attributeClause_different, hclause, hclause, Clause.Holds]
  · have habsent : o.attributeClause ⟨a, .absent⟩ = .fieldAbsent a.outputKeys := rfl
    rw [habsent, hclause, Clause.Holds]

/-- A test on stored values that are compared as they are. -/
def stored : LeafQuery → List (String × String) → Prop
  | .term field value, doc => (field, value) ∈ doc
  | .fieldExists field, doc => ∃ value, (field, value) ∈ doc
  | _, _ => False

/-- A search that requires nothing, on documents that have and have not one of its clauses. -/
theorem SearchEngine.query_means_stored :
    let d : Descriptor := { should := [.anyOf [
      .negatedMatch (.multiFieldMatch ["login", "mail"] "m.berg" .exact),
      .fieldAbsent ["mail"]]] }
    (ofTruth stored).Holds d.query [("login", "m.berg")] ∧
      ¬ (ofTruth stored).Holds d.query [("login", "m.berg"), ("mail", "m@berg.example")] := by
  intro d
  rw [(query_means (ofTruth stored) _).2.1, (query_means (ofTruth stored) _).2.1]
  simp [d, Descriptor.Holds, Clause.Holds, anyHolds, ofTruth, stored]

end Lookalike
