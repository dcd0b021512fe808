import Lookalike.KeyMap
import Lookalike.Binary64.Rounding

/-! # JSON values

Numbers are integers or doubles, as they were written.  The members of an object are listed by
increasing name, and a name occurs once; `Json.obj` brings members into that order. -/

namespace Lookalike

/-- A JSON value. -/
inductive Json where
  | null
  | boolean (value : Bool)
  | integer (value : Int)
  | float (value : Binary64)
  | string (value : String)
  | array (items : List Json)
  | object (members : List (String × Json))

namespace Json

instance : Inhabited Json := ⟨null⟩

/-- The object of some members; of several with one name the last counts. -/
def obj (members : List (String × Json)) : Json := object (sortEntries members)

def nat (n : Nat) : Json := integer n

def strings (texts : List String) : Json := array (texts.map string)

/-- The value or `null`. -/
def nullable {α : Type} (encode : α → Json) : Option α → Json
  | none => null
  | some v => encode v

/-- The member of an object with a name. -/
def member? : Json → String → Option Json
  | object members, name => members.lookup name
  | _, _ => none

def string? : Json → Option String
  | string s => some s
  | _ => none

theorem string?_eq_some_iff {v : Json} {text : String} :
    v.string? = some text ↔ v = .string text := by
  cases v <;> simp [string?]

def items? : Json → Option (List Json)
  | array items => some items
  | _ => none

/-- The number of an integer that fits an unsigned word of 64 bits. -/
def word? : Json → Option UInt64
  | integer n => if 0 ≤ n ∧ n < UInt64.size then some (UInt64.ofNat n.toNat) else none
  | _ => none

/-- The double nearest to a number. -/
def number? : Json → Option Binary64
  | integer n => some (Binary64.ofInt n)
  | float x => some x
  | _ => none

end Json

end Lookalike
