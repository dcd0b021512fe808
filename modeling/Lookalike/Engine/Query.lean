import Lookalike.Backend
import Lookalike.Json.Writer

/-! # Queries of the search engine

The engine takes queries as JSON: `term`, `match`, `multi_match`, `match_phrase`, `span_near` and
`exists` test a field, `bool` joins tests.  `Descriptor.query` renders a search, `Descriptor.search`
adds the window and the projection, which always keeps the field of the identity key, and `batchBody`
writes a batch as lines, a header and a search in turn. -/

namespace Lookalike

namespace Query

/-- That a field has exactly a value. -/
def term (field value : String) : Json :=
  .obj [("term", .obj [(field, .obj [("value", .string value)])])]

/-- That a field has a value. -/
def fieldExists (field : String) : Json := .obj [("exists", .obj [("field", .string field)])]

/-- That one of some queries holds. -/
def oneOf (queries : List Json) : Json :=
  .obj [("bool", .obj [("should", .array queries), ("minimum_should_match", .nat 1)])]

/-- That none of some queries holds. -/
def noneOf (queries : List Json) : Json := .obj [("bool", .obj [("must_not", .array queries)])]

/-- That a field nearly has a value, all of its words. -/
def nearly (field value : String) (fuzziness : UInt8) : Json :=
  .obj [("match", .obj [(field, .obj [
    ("query", .string value),
    ("fuzziness", .nat fuzziness.toNat),
    ("operator", .string "and")])])]

/-- That the best of some fields nearly has a value, all of its words. -/
def nearlyInOne (fields : List String) (value : String) (fuzziness : UInt8) : Json :=
  .obj [("multi_match", .obj [
    ("query", .string value),
    ("fields", .strings fields),
    ("type", .string "best_fields"),
    ("fuzziness", .nat fuzziness.toNat),
    ("operator", .string "and")])]

/-- That a field has a phrase. -/
def phrase (field value : String) : Json :=
  .obj [("match_phrase", .obj [(field, .string value)])]

/-- That one of some fields has a phrase. -/
def phraseInOne (fields : List String) (value : String) : Json :=
  .obj [("multi_match", .obj [
    ("query", .string value),
    ("fields", .strings fields),
    ("type", .string "phrase")])]

/-- A word of a span, nearly. -/
def spanWord (field term : String) (fuzziness : UInt8) : Json :=
  .obj [("span_multi", .obj [("match", .obj [("fuzzy", .obj [(field, .obj [
    ("value", .string term),
    ("fuzziness", .nat fuzziness.toNat)])])])])]

/-- That a field has some words nearly, in their order and not far apart. -/
def span (field : String) (terms : List String) (slop : UInt32) (fuzziness : UInt8) : Json :=
  .obj [("span_near", .obj [
    ("clauses", .array (terms.map fun term => spanWord field term fuzziness)),
    ("slop", .nat slop.toNat),
    ("in_order", .boolean true)])]

end Query

mutual

def Clause.query : Clause → Json
  | .exactMatch field value => Query.term field value
  | .fuzzyMatch field value fuzziness => Query.nearly field value fuzziness
  | .multiFieldMatch fields value .exact =>
      Query.oneOf (fields.map fun field => Query.term field value)
  | .multiFieldMatch fields value (.fuzzy fuzziness) => Query.nearlyInOne fields value fuzziness
  | .multiFieldMatch fields value .phrase => Query.phraseInOne fields value
  | .phraseMatch field value => Query.phrase field value
  | .negatedMatch clause => Query.noneOf [clause.query]
  | .proximityMatch field terms slop fuzziness => Query.span field terms slop fuzziness
  | .anyOf clauses => Query.oneOf (clauseQueries clauses)
  | .fieldAbsent fields => Query.noneOf (fields.map Query.fieldExists)
  | .fieldPresent field => Query.fieldExists field

def clauseQueries : List Clause → List Json
  | [] => []
  | c :: cs => c.query :: clauseQueries cs

end

namespace Descriptor

/-- A member that is left out when it has no items. -/
def listMember (name : String) (items : List Json) : List (String × Json) :=
  if items.isEmpty then [] else [(name, .array items)]

/-- The query of a search; its marker is the name of the query. -/
def query (d : Descriptor) : Json :=
  .obj [("bool", .obj (
    listMember "must" (clauseQueries d.must) ++
    listMember "should" (clauseQueries d.should) ++
    (d.label.map fun label => ("_name", Json.string label)).toList))]

/-- The stored fields that come back with each hit. -/
def projection (d : Descriptor) (identityKeyField : String) : Json :=
  if d.sourceFields.isEmpty then .boolean true
  else if d.sourceFields.contains identityKeyField then .strings d.sourceFields
  else .strings (d.sourceFields ++ [identityKeyField])

/-- The body of a search for one window of its hits. -/
def search (d : Descriptor) (w : Window) (identityKeyField : String) : Json :=
  .obj [
    ("query", d.query),
    ("from", .nat w.offset),
    ("size", .nat w.size),
    ("track_total_hits", .boolean true),
    ("_source", d.projection identityKeyField)]

end Descriptor

/-- The lines of a batch, each ended: for every search a header that names the index, and itself. -/
def batchBody (index : String) (ds : List Descriptor) (w : Window) (identityKeyField : String) :
    String :=
  let header := Json.write (.obj [("index", .string index)])
  String.ofList (ds.flatMap fun d =>
    header ++ '\n' :: (d.search w identityKeyField).write ++ ['\n'])

end Lookalike
