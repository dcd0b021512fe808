import Lookalike.Json.Basic

/-! # Records in JSON

A record is written as an object, whose unknown members do not count, or as an array of its fields
in order.  The functions here read one field each: `required` demands it, `withDefault` supplies a
value for one that is left out (but not for a `null`), `optional` takes both as the absence of a
value.  They fail on a value of another kind, without a reason. -/

namespace Lookalike

namespace Json

def bool? : Json → Option Bool
  | boolean b => some b
  | _ => none

/-- The number of an integer from zero up to a limit, which is left out. -/
def natBelow? (limit : Nat) : Json → Option Nat
  | integer n => if 0 ≤ n ∧ n < limit then some n.toNat else none
  | _ => none

/-- The number of an integer that fits a signed word of 32 bits. -/
def signed32? : Json → Option Int
  | integer n => if -0x80000000 ≤ n ∧ n < 0x80000000 then some n else none
  | _ => none

/-- The number of an integer that fits a byte. -/
def byte? (v : Json) : Option UInt8 := (v.natBelow? UInt8.size).map UInt8.ofNat

/-- The number of an integer that fits an unsigned word of 32 bits. -/
def word32? (v : Json) : Option UInt32 := (v.natBelow? UInt32.size).map UInt32.ofNat

/-- The items of an array, each read by `item`. -/
def list? {α : Type} (item : Json → Option α) (v : Json) : Option (List α) :=
  v.items?.bind (List.mapM item)

/-- The members of an object, each value read by `value`. -/
def entries? {α : Type} (value : Json → Option α) : Json → Option (List (String × α))
  | object members => members.mapM fun m => (value m.2).map fun v => (m.1, v)
  | _ => none

/-- Nothing for `null`, else the value read by `value`. -/
def orNull? {α : Type} (value : Json → Option α) : Json → Option (Option α)
  | null => some none
  | v => (value v).map some

end Json

/-- The fields of a record, by name or by position. -/
inductive Record where
  | named (members : List (String × Json))
  | positional (items : List Json)

/-- Whether a record in array form may have more items than fields. -/
inductive Surplus where
  | refused
  | ignored

namespace Record

/-- The record of a value that has `width` fields. -/
def ofJson? (surplus : Surplus) (width : Nat) : Json → Option Record
  | .object members => some (named members)
  | .array items =>
      match surplus with
      | .ignored => some (positional items)
      | .refused => if items.length ≤ width then some (positional items) else none
  | _ => none

/-- The value of the field at a position with a name. -/
def field? (r : Record) (position : Nat) (name : String) : Option Json :=
  match r with
  | named members => members.lookup name
  | positional items => items[position]?

variable {α : Type}

/-- A field that must be there. -/
def required (r : Record) (position : Nat) (name : String) (value : Json → Option α) :
    Option α :=
  (r.field? position name).bind value

/-- A field that has a default. -/
def withDefault (r : Record) (position : Nat) (name : String) (default : α)
    (value : Json → Option α) : Option α :=
  match r.field? position name with
  | none => some default
  | some v => value v

/-- A field that may be missing from the names or be `null`. -/
def optional (r : Record) (position : Nat) (name : String) (value : Json → Option α) :
    Option (Option α) :=
  match r with
  | named members =>
      match members.lookup name with
      | none => some none
      | some v => v.orNull? value
  | positional items => items[position]?.bind (Json.orNull? value)

end Record

end Lookalike
