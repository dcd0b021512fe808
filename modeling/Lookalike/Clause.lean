import Lookalike.Json.Basic

/-! # Clauses

A clause is a condition on a stored document: that a field has a value, exactly or nearly, as one
phrase or as words close to each other; that a field is there or not; and the negation and the
alternative of such conditions.  A clause over several fields holds when one of them matches. -/

namespace Lookalike

/-- How the fields of a clause over several of them match. -/
inductive MatchMode where
  | exact
  | fuzzy (fuzziness : UInt8)
  | phrase
deriving DecidableEq

/-- A condition on a stored document. -/
inductive Clause where
  | exactMatch (field value : String)
  | fuzzyMatch (field value : String) (fuzziness : UInt8)
  | multiFieldMatch (fields : List String) (value : String) (mode : MatchMode)
  | phraseMatch (field value : String)
  | negatedMatch (clause : Clause)
  | proximityMatch (field : String) (terms : List String) (slop : UInt32) (fuzziness : UInt8)
  | anyOf (clauses : List Clause)
  | fieldAbsent (fields : List String)
  | fieldPresent (field : String)

namespace Clause

instance : Inhabited Clause := ⟨anyOf []⟩

/-- The match of a value in one field, or over any other number of them. -/
def matching (fields : List String) (value : String) (mode : MatchMode) : Clause :=
  match fields, mode with
  | [field], .exact => exactMatch field value
  | [field], .fuzzy fuzziness => fuzzyMatch field value fuzziness
  | [field], .phrase => phraseMatch field value
  | fields, mode => multiFieldMatch fields value mode

end Clause

/-! ### Clauses in JSON -/

def MatchMode.toJson : MatchMode → Json
  | exact => .obj [("type", .string "exact")]
  | fuzzy fuzziness => .obj [("type", .string "fuzzy"), ("fuzziness", .nat fuzziness.toNat)]
  | phrase => .obj [("type", .string "phrase")]

mutual

/-- Writes a clause as an object that names its kind. -/
def Clause.toJson : Clause → Json
  | .exactMatch field value =>
      .obj [("op", .string "exact_match"), ("field", .string field), ("value", .string value)]
  | .fuzzyMatch field value fuzziness =>
      .obj [("op", .string "fuzzy_match"), ("field", .string field), ("value", .string value),
            ("fuzziness", .nat fuzziness.toNat)]
  | .multiFieldMatch fields value mode =>
      .obj [("op", .string "multi_field_match"), ("fields", .strings fields),
            ("value", .string value), ("mode", mode.toJson)]
  | .phraseMatch field value =>
      .obj [("op", .string "phrase_match"), ("field", .string field), ("value", .string value)]
  | .negatedMatch clause => .obj [("op", .string "negated_match"), ("clause", clause.toJson)]
  | .proximityMatch field terms slop fuzziness =>
      .obj [("op", .string "proximity_match"), ("field", .string field),
            ("terms", .strings terms), ("slop", .nat slop.toNat),
            ("fuzziness", .nat fuzziness.toNat)]
  | .anyOf clauses => .obj [("op", .string "any_of"), ("clauses", .array (clausesToJson clauses))]
  | .fieldAbsent fields => .obj [("op", .string "field_absent"), ("fields", .strings fields)]
  | .fieldPresent field => .obj [("op", .string "field_present"), ("field", .string field)]

def clausesToJson : List Clause → List Json
  | [] => []
  | c :: cs => c.toJson :: clausesToJson cs

end

end Lookalike
