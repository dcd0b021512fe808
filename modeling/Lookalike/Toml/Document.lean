import Lookalike.Toml.Text
import Lookalike.Toml.Scalar
import Lookalike.Toml.Table

/-! # Reading TOML documents

`Toml.read?` gives the value of a document as a JSON object.  Arrays and inline tables may be spread
over lines, also around the equals signs of a table but not inside its keys, end with a comma and be
nested `maxDepth` deep.  A byte order mark at the start does not count. -/

namespace Lookalike.Toml

/-! ### Values -/

/-- Reads the items of an array, each by `value`, through the closing bracket. -/
def readItems (value : List Char → Option (Json × List Char)) (cs : List Char) :
    Option (List Json × List Char) :=
  match skipLines false cs with
  | none => none
  | some (']' :: rest) => some ([], rest)
  | some start =>
      match value start with
      | none => none
      | some (v, rest) =>
          match skipLines false rest with
          | some (']' :: rest) => some ([v], rest)
          | some (',' :: rest) =>
              if rest.length < cs.length then
                (readItems value rest).map fun r => (v :: r.1, r.2)
              else none
          | _ => none
termination_by cs.length

/-- Skips what may stand on either side of an equals sign: blanks and, in an inline table, line ends
and comments. -/
def skipAroundEquals (inTable : Bool) (cs : List Char) : Option (List Char) :=
  if inTable then skipLines false cs else some (skipBlanks cs)

/-- Reads a key, an equals sign and a value by `value`, in an inline table or on one line. -/
def readAssignment (inTable : Bool) (value : List Char → Option (Json × List Char))
    (cs : List Char) : Option ((List String × String) × Json × List Char) :=
  match readKey cs with
  | none => none
  | some (key, rest) =>
      match skipAroundEquals inTable rest with
      | some ('=' :: rest) =>
          match skipAroundEquals inTable rest with
          | some start => (value start).map fun r => (key, r.1, r.2)
          | none => none
      | _ => none

/-- Reads the members of an inline table, their values by `value`, through the closing brace. -/
def readMembers (value : List Char → Option (Json × List Char)) (members : Members)
    (cs : List Char) : Option (Members × List Char) :=
  match skipLines false cs with
  | none => none
  | some ('\x7d' :: rest) => some (members, rest)
  | some start =>
      match readAssignment true value start with
      | none => none
      | some (key, v, rest) =>
          match setKey key.2 v key.1 members, skipLines false rest with
          | some members, some ('\x7d' :: rest) => some (members, rest)
          | some members, some (',' :: rest) =>
              if rest.length < cs.length then readMembers value members rest else none
          | _, _ => none
termination_by cs.length

/-- Reads a value in which arrays and inline tables are nested at most as deep as given. -/
def readValue : Nat → List Char → Option (Json × List Char)
  | 0, cs => readPlain cs
  | depth + 1, '[' :: cs => (readItems (readValue depth) cs).map fun r => (.array r.1, r.2)
  | depth + 1, '\x7b' :: cs =>
      (readMembers (readValue depth) [] cs).map fun r => (.obj (membersToJson r.1), r.2)
  | _ + 1, cs => readPlain cs
where
  /-- Reads a string or a word. -/
  readPlain (cs : List Char) : Option (Json × List Char) :=
    match cs with
    | '"' :: _ => (readString cs).map fun r => (.string r.1, r.2)
    | '\'' :: _ => (readString cs).map fun r => (.string r.1, r.2)
    | cs => readScalar cs

/-- The deepest nesting of arrays and inline tables that is read. -/
def maxDepth : Nat := 80

/-! ### Statements -/

/-- A document as far as it has been read: all its members, and the path of the open table. -/
structure Progress where
  members : Members
  path : List String

/-- Reads the key of a header up to its closing bracket. -/
def readHeaderKey (cs : List Char) : Option ((List String × String) × List Char) :=
  match readKey (skipBlanks cs) with
  | none => none
  | some (key, rest) =>
      match skipBlanks rest with
      | ']' :: rest => some (key, rest)
      | _ => none

/-- Reads one statement and carries it out. -/
def readStatement (p : Progress) : List Char → Option (Progress × List Char)
  | '[' :: '[' :: cs =>
      match readHeaderKey cs with
      | some (key, ']' :: rest) =>
          (within (appendTable key.2) key.1 p.members).map fun members =>
            (⟨members, key.1 ++ [key.2]⟩, rest)
      | _ => none
  | '[' :: cs =>
      match readHeaderKey cs with
      | some (key, rest) =>
          (within (openTable key.2) key.1 p.members).map fun members =>
            (⟨members, key.1 ++ [key.2]⟩, rest)
      | none => none
  | cs =>
      match readAssignment false (readValue maxDepth) cs with
      | some (key, v, rest) =>
          (within (setKey key.2 v key.1) p.path p.members).map fun members =>
            (⟨members, p.path⟩, rest)
      | none => none

/-- Reads the statements to the end of a document. -/
def readStatements (p : Progress) (cs : List Char) : Option Members :=
  match skipLines false cs with
  | none => none
  | some [] => some p.members
  | some start =>
      match readStatement p start with
      | none => none
      | some (p, rest) =>
          match endLine false rest with
          | none => none
          | some rest => if rest.length < cs.length then readStatements p rest else none
termination_by cs.length

/-- The value of a document. -/
def read? (document : String) : Option Json :=
  let cs := match document.toList with
    | '\uFEFF' :: cs => cs
    | cs => cs
  (readStatements ⟨[], []⟩ cs).map fun members => .obj (membersToJson members)

end Lookalike.Toml
