import Lookalike.Engine.Query
import Lookalike.Proofs.JsonText

/-! # Lines of a batch

Every query that a search is rendered as is plain, whatever names and values its clauses hold, by
induction over the clauses.  So the text of a search keeps it, and holds no line feed.

Main statement: `batchBody_framed`, that the body of a batch is two lines for each search, of which the
first reads back as the header and the second as the search. -/

namespace Lookalike
namespace Json

/-! ### Plain values -/

theorem Plain.obj {members : List (String × Json)} (h : ∀ m ∈ members, Plain m.2) :
    Plain (Json.obj members) :=
  .object (keysIncrease_sortEntries members) fun m hm => h m (mem_of_mem_sortEntries hm)

theorem Plain.obj_singleton {name : String} {v : Json} (h : Plain v) :
    Plain (Json.obj [(name, v)]) :=
  .obj (List.forall_mem_singleton.mpr h)

theorem Plain.nat {n : Nat} (h : n < UInt64.size) : Plain (Json.nat n) :=
  .integer (by omega) (by omega)

theorem Plain.byte (b : UInt8) : Plain (Json.nat b.toNat) :=
  .nat (Nat.lt_trans b.toNat_lt (by decide))

theorem Plain.word32 (w : UInt32) : Plain (Json.nat w.toNat) :=
  .nat (Nat.lt_trans w.toNat_lt (by decide))

theorem Plain.strings (texts : List String) : Plain (Json.strings texts) :=
  .array (List.forall_mem_map.mpr fun text _ => .string text)

end Json

namespace Query

open Json

theorem plain_term (field value : String) : Plain (term field value) :=
  .obj_singleton (.obj_singleton (.obj_singleton (.string value)))

theorem plain_fieldExists (field : String) : Plain (fieldExists field) :=
  .obj_singleton (.obj_singleton (.string field))

theorem plain_oneOf {queries : List Json} (h : ∀ q ∈ queries, Plain q) : Plain (oneOf queries) := by
  have hone : Plain (Json.nat 1) := .nat (by decide)
  refine .obj_singleton (.obj ?_)
  simp [Plain.array h, hone]

theorem plain_noneOf {queries : List Json} (h : ∀ q ∈ queries, Plain q) : Plain (noneOf queries) :=
  .obj_singleton (.obj_singleton (.array h))

theorem plain_nearly (field value : String) (fuzziness : UInt8) :
    Plain (nearly field value fuzziness) := by
  refine .obj_singleton (.obj_singleton (.obj ?_))
  simp [Plain.string, Plain.byte]

theorem plain_nearlyInOne (fields : List String) (value : String) (fuzziness : UInt8) :
    Plain (nearlyInOne fields value fuzziness) := by
  refine .obj_singleton (.obj ?_)
  simp [Plain.string, Plain.strings, Plain.byte]

theorem plain_phrase (field value : String) : Plain (phrase field value) :=
  .obj_singleton (.obj_singleton (.string value))

theorem plain_phraseInOne (fields : List String) (value : String) :
    Plain (phraseInOne fields value) := by
  refine .obj_singleton (.obj ?_)
  simp [Plain.string, Plain.strings]

theorem plain_spanWord (field term : String) (fuzziness : UInt8) :
    Plain (spanWord field term fuzziness) := by
  refine .obj_singleton (.obj_singleton (.obj_singleton (.obj_singleton (.obj ?_))))
  simp [Plain.string, Plain.byte]

theorem plain_span (field : String) (terms : List String) (slop : UInt32) (fuzziness : UInt8) :
    Plain (span field terms slop fuzziness) := by
  have hwords : Plain (.array (terms.map fun term => spanWord field term fuzziness)) :=
    .array (List.forall_mem_map.mpr fun term _ => plain_spanWord field term fuzziness)
  refine .obj_singleton (.obj ?_)
  simp [hwords, Plain.word32, Plain.boolean]

end Query

open Json

mutual

/-- The query of a clause is plain, by induction over the clauses inside it. -/
theorem Clause.plain_query : ∀ c : Clause, Plain c.query
  | .exactMatch field value => Query.plain_term field value
  | .fuzzyMatch field value fuzziness => Query.plain_nearly field value fuzziness
  | .multiFieldMatch _ value .exact =>
      Query.plain_oneOf (List.forall_mem_map.mpr fun field _ => Query.plain_term field value)
  | .multiFieldMatch fields value (.fuzzy fuzziness) =>
      Query.plain_nearlyInOne fields value fuzziness
  | .multiFieldMatch fields value .phrase => Query.plain_phraseInOne fields value
  | .phraseMatch field value => Query.plain_phrase field value
  | .negatedMatch clause =>
      Query.plain_noneOf (List.forall_mem_singleton.mpr clause.plain_query)
  | .proximityMatch field terms slop fuzziness => Query.plain_span field terms slop fuzziness
  | .anyOf clauses => Query.plain_oneOf (plain_clauseQueries clauses)
  | .fieldAbsent _ =>
      Query.plain_noneOf (List.forall_mem_map.mpr fun field _ => Query.plain_fieldExists field)
  | .fieldPresent field => Query.plain_fieldExists field

theorem plain_clauseQueries : ∀ cs : List Clause, ∀ q ∈ clauseQueries cs, Plain q
  | [] => fun _ hq => absurd hq List.not_mem_nil
  | c :: cs => List.forall_mem_cons.mpr ⟨c.plain_query, plain_clauseQueries cs⟩

end

namespace Descriptor

theorem plain_listMember {name : String} {items : List Json} (h : ∀ v ∈ items, Plain v) :
    ∀ m ∈ listMember name items, Plain m.2 := by
  unfold listMember
  split_ifs
  · simp
  · exact List.forall_mem_singleton.mpr (.array h)

theorem plain_query (d : Descriptor) : Plain d.query := by
  have hname : ∀ m ∈ (d.label.map fun label => ("_name", Json.string label)).toList, Plain m.2 := by
    cases d.label with
    | none => simp
    | some label => exact List.forall_mem_singleton.mpr (.string label)
  refine .obj_singleton (.obj fun m hm => ?_)
  rcases List.mem_append.mp hm with hm | hm
  · rcases List.mem_append.mp hm with hm | hm
    · exact plain_listMember (plain_clauseQueries d.must) m hm
    · exact plain_listMember (plain_clauseQueries d.should) m hm
  · exact hname m hm

theorem plain_projection (d : Descriptor) (identityKeyField : String) :
    Plain (d.projection identityKeyField) := by
  unfold projection
  split_ifs
  · exact .boolean true
  · exact .strings _
  · exact .strings _

theorem plain_search (d : Descriptor) (offset size : UInt32) (identityKeyField : String) :
    Plain (d.search ⟨offset.toNat, size.toNat⟩ identityKeyField) := by
  have hquery := d.plain_query
  have hprojection := d.plain_projection identityKeyField
  refine .obj ?_
  simp [hquery, hprojection, Plain.word32, Plain.boolean]

end Descriptor

/-! ### Lines -/

/-- A text is made of some lines, each ended by a line feed and none with another one in it. -/
structure IsLines (lines : List String) (body : String) : Prop where
  ended : body.toList = lines.flatMap fun line => line.toList ++ ['\n']
  unbroken : ∀ line ∈ lines, '\n' ∉ line.toList

/-- A text is read as a value, by every reader that goes as deep as the value is nested and by no
other. -/
def Json.ReadAs (line : String) (v : Json) : Prop :=
  ∀ depth, readWithin? depth line = if v.nesting ≤ depth then some v else none

theorem Json.readAs_text {v : Json} (h : Plain v) : ReadAs v.text v := readWithin?_text h

theorem Json.not_mem_text {v : Json} (h : Plain v) : '\n' ∉ v.text.toList := by
  intro hmem
  rw [text, String.toList_ofList] at hmem
  have hcontrol := not_isControl_write h '\n' hmem
  cases hcontrol

theorem getElem?_flatMap_pair {α β : Type} (f g : α → β) (xs : List α) (i : Nat) :
    (xs.flatMap fun x => [f x, g x])[2 * i]? = xs[i]?.map f ∧
      (xs.flatMap fun x => [f x, g x])[2 * i + 1]? = xs[i]?.map g := by
  induction xs generalizing i with
  | nil => simp
  | cons x xs ih =>
      cases i with
      | zero => simp
      | succ i =>
          have hnext : 2 * (i + 1) = 2 * i + 1 + 1 := by omega
          obtain ⟨hf, hg⟩ := ih i
          rw [hnext]
          exact ⟨hf, hg⟩

/-- The lines of a batch: for every search a header that names the index, and itself. -/
def batchLines (index : String) (ds : List Descriptor) (w : Window) (identityKeyField : String) :
    List String :=
  ds.flatMap fun d =>
    [(Json.obj [("index", .string index)]).text, (d.search w identityKeyField).text]

/-- The body of a batch is made of two lines for each search, which names and values cannot break: the
first reads back as a header with the index alone, the second as the search in its window. -/
theorem batchBody_framed (index : String) (ds : List Descriptor) (offset size : UInt32)
    (identityKeyField : String) :
    let w : Window := ⟨offset.toNat, size.toNat⟩
    ∃ lines, IsLines lines (batchBody index ds w identityKeyField) ∧
      lines.length = 2 * ds.length ∧
      ∀ i d, ds[i]? = some d →
        (∃ header, lines[2 * i]? = some header ∧
          Json.ReadAs header (.object [("index", .string index)])) ∧
        ∃ search, lines[2 * i + 1]? = some search ∧
          Json.ReadAs search (d.search w identityKeyField) := by
  intro w
  have hheader : Plain (Json.obj [("index", .string index)]) := .obj_singleton (.string index)
  have hsearch (d : Descriptor) : Plain (d.search w identityKeyField) :=
    d.plain_search offset size identityKeyField
  refine ⟨batchLines index ds w identityKeyField, ⟨?ended, ?unbroken⟩, ?length, ?reads⟩
  case ended =>
    rw [batchBody, String.toList_ofList, batchLines, List.flatMap_assoc]
    simp [Json.text]
  case unbroken =>
    intro line hline
    obtain ⟨d, -, hline⟩ := List.mem_flatMap.mp hline
    rcases List.mem_pair.mp hline with rfl | rfl
    · exact Json.not_mem_text hheader
    · exact Json.not_mem_text (hsearch d)
  case length =>
    simp [batchLines, List.length_flatMap]
    omega
  case reads =>
    intro i d hd
    obtain ⟨hfirst, hsecond⟩ := getElem?_flatMap_pair
      (fun _ : Descriptor => (Json.obj [("index", .string index)]).text)
      (fun d : Descriptor => (d.search w identityKeyField).text) ds i
    rw [hd, Option.map_some] at hfirst hsecond
    exact ⟨⟨_, hfirst, Json.readAs_text hheader⟩, _, hsecond, Json.readAs_text (hsearch d)⟩

end Lookalike
