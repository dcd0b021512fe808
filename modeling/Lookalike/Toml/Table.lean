import Lookalike.Json.Basic

/-! # Tables of a TOML document

A document fills tables in three ways: a header `[a.b]` opens one, a header `[[a.b]]` adds one to an
array, and a key `a.b.c` reaches into the table that is open.  A table is opened by a header at most
once, and a key does not reach into a table that a header opened.  A table that is so far only the
parent of others can still be opened by a header or be reached into by a key, and a table that a key
made or reached into is not opened by a header any more.  The newest table of an array is passed
through, but a key does not set a member in it.  Whatever stands after an equals sign is complete
and is not extended. -/

namespace Lookalike.Toml

/-- How a table is defined: by its own header, so far only as the parent of others, or by a key
that made it or reached into it. -/
inductive TableOrigin where
  | header
  | parent
  | key
deriving DecidableEq

/-- A part of a document; the tables of an array are listed from the newest. -/
inductive Node where
  | value (v : Json)
  | table (origin : TableOrigin) (members : List (String × Node))
  | tables (newestFirst : List (List (String × Node)))

/-- The members of a table that is being filled. -/
abbrev Members := List (String × Node)

/-- Puts a member in place of the one with its name. -/
def replaceMember (name : String) (node : Node) (members : Members) : Members :=
  members.map fun m => if m.1 = name then (name, node) else m

/-- Changes the table at a path below some members and makes the parents that are missing. -/
def within (change : Members → Option Members) : List String → Members → Option Members
  | [], members => change members
  | name :: path, members =>
      match members.lookup name with
      | none => (within change path []).map fun ms => members ++ [(name, .table .parent ms)]
      | some (.table origin ms) =>
          (within change path ms).map fun ms => replaceMember name (.table origin ms) members
      | some (.tables (ms :: older)) =>
          (within change path ms).map fun ms => replaceMember name (.tables (ms :: older)) members
      | some _ => none

/-- Opens the table of a header in its parent. -/
def openTable (name : String) (members : Members) : Option Members :=
  match members.lookup name with
  | none => some (members ++ [(name, .table .header [])])
  | some (.table .parent ms) => some (replaceMember name (.table .header ms) members)
  | some _ => none

/-- Adds a table to an array in its parent. -/
def appendTable (name : String) (members : Members) : Option Members :=
  match members.lookup name with
  | none => some (members ++ [(name, .tables [[]])])
  | some (.tables mss) => some (replaceMember name (.tables ([] :: mss)) members)
  | some _ => none

/-- Sets a key of some words before the last, and the last, below the open table; the tables on the
way are then defined by a key. -/
def setKey (last : String) (v : Json) : List String → Members → Option Members
  | [], members =>
      match members.lookup last with
      | none => some (members ++ [(last, .value v)])
      | some _ => none
  | name :: path, members =>
      match members.lookup name with
      | none => (setKey last v path []).map fun ms => members ++ [(name, .table .key ms)]
      | some (.table .header _) => none
      | some (.table _ ms) =>
          (setKey last v path ms).map fun ms => replaceMember name (.table .key ms) members
      | some (.tables (ms :: older)) =>
          if path.isEmpty then none
          else (setKey last v path ms).map fun ms => replaceMember name (.tables (ms :: older)) members
      | some _ => none

mutual

def Node.toJson : Node → Json
  | .value v => v
  | .table _ members => .obj (membersToJson members)
  | .tables mss => .array (tablesToJson mss).reverse

def membersToJson : List (String × Node) → List (String × Json)
  | [] => []
  | m :: ms => memberToJson m :: membersToJson ms

def memberToJson : String × Node → String × Json
  | (name, node) => (name, node.toJson)

/-- The values of the tables of an array. -/
def tablesToJson : List (List (String × Node)) → List Json
  | [] => []
  | ms :: mss => .obj (membersToJson ms) :: tablesToJson mss

end

end Lookalike.Toml
