import Lookalike.Json.Basic
import Lookalike.Binary64.Decimal

/-! # Reading JSON text

`Json.read?` reads one value with blanks around it.  Every function takes the text still to be read
and gives a value with the text after it, or nothing when the text does not start with one.
Containers may be nested `maxDepth` deep.  A number without point and exponent that fits 64 bits is
an integer, any other a double; `-0` is a double, since no integer carries its sign. -/

namespace Lookalike.Json

/-! ### Strings -/

def hexValue? (c : Char) : Option Nat :=
  if '0' ≤ c ∧ c ≤ '9' then some (c.toNat - 48)
  else if 'a' ≤ c ∧ c ≤ 'f' then some (c.toNat - 87)
  else if 'A' ≤ c ∧ c ≤ 'F' then some (c.toNat - 55)
  else none

/-- The number of four hexadecimal digits. -/
def hexUnit? (a b c d : Char) : Option Nat := do
  let w ← hexValue? a
  let x ← hexValue? b
  let y ← hexValue? c
  let z ← hexValue? d
  pure (((w * 16 + x) * 16 + y) * 16 + z)

/-- The character of an escape of one letter. -/
def shortEscape? (c : Char) : Option Char :=
  if c = '"' ∨ c = '\\' ∨ c = '/' then some c
  else if c = 'b' then some '\x08'
  else if c = 'f' then some '\x0c'
  else if c = 'n' then some '\x0a'
  else if c = 'r' then some '\x0d'
  else if c = 't' then some '\x09'
  else none

/-- Whether a unit opens a pair that stands for one character. -/
def opensPair (u : Nat) : Bool := decide (0xD800 ≤ u) && decide (u < 0xDC00)

def closesPair (u : Nat) : Bool := decide (0xDC00 ≤ u) && decide (u < 0xE000)

/-- The character of a pair of units. -/
def pairChar (high low : Nat) : Char :=
  Char.ofNat (0x10000 + (high - 0xD800) * 0x400 + (low - 0xDC00))

/-- Reads a string whose opening quote has been read. -/
def readString : List Char → Option (List Char × List Char)
  | [] => none
  | c :: cs =>
      if c = '"' then some ([], cs)
      else if c = '\\' then
        match cs with
        | 'u' :: w :: x :: y :: z :: cs =>
            match hexUnit? w x y z with
            | none => none
            | some u =>
                if opensPair u then
                  match cs with
                  | '\\' :: 'u' :: w :: x :: y :: z :: cs =>
                      match hexUnit? w x y z with
                      | none => none
                      | some v =>
                          if closesPair v then (readString cs).map fun r => (pairChar u v :: r.1, r.2)
                          else none
                  | _ => none
                else if closesPair u then none
                else (readString cs).map fun r => (Char.ofNat u :: r.1, r.2)
        | e :: cs =>
            match shortEscape? e with
            | none => none
            | some e => (readString cs).map fun r => (e :: r.1, r.2)
        | [] => none
      else if c.toNat < 0x20 then none
      else (readString cs).map fun r => (c :: r.1, r.2)

/-! ### Numbers -/

/-- Splits a text after its leading digits. -/
def spanDigits (cs : List Char) : List Char × List Char :=
  (cs.takeWhile Char.isDigit, cs.dropWhile Char.isDigit)

def digitValue (c : Char) : Nat := c.toNat - 48

/-- Appends digits to a number as long as it fits 64 bits; also the count of those left over. -/
def keepDigits (n : Nat) : List Char → Nat × Nat
  | [] => (n, 0)
  | c :: cs =>
      let m := n * 10 + digitValue c
      if m < UInt64.size then keepDigits m cs else (n, cs.length + 1)

/-- Reads the digits after a point, if there is one. -/
def readFraction : List Char → Option (List Char × List Char)
  | '.' :: cs =>
      let (digits, cs) := spanDigits cs
      if digits.isEmpty then none else some (digits, cs)
  | cs => some ([], cs)

/-- Reads the digits of an exponent. -/
def readExponentDigits (negative : Bool) (cs : List Char) : Option (Option Int × List Char) :=
  let (digits, cs) := spanDigits cs
  if digits.isEmpty then none
  else
    let n : Int := Nat.ofDigitChars 10 digits 0
    some (some (if negative then -n else n), cs)

/-- Reads an exponent, if there is one. -/
def readExponent : List Char → Option (Option Int × List Char)
  | c :: cs =>
      if c = 'e' ∨ c = 'E' then
        match cs with
        | '+' :: cs => readExponentDigits false cs
        | '-' :: cs => readExponentDigits true cs
        | cs => readExponentDigits false cs
      else some (none, c :: cs)
  | [] => some (none, [])

/-- The double of the parts of a numeral. -/
def decimal? (negative : Bool) (whole fraction : List Char) (exponent : Int) : Option Json :=
  let (n, left) := keepDigits 0 whole
  let (n, unused) := keepDigits n fraction
  let places := (fraction.length - unused : Nat)
  (Binary64.ofDecimal? negative n (exponent + left - places)).map float

/-- The number of a numeral without point and exponent. -/
def integerOrFloat? (negative : Bool) (digits : List Char) : Option Json :=
  let n := Nat.ofDigitChars 10 digits 0
  if negative then
    if n ≠ 0 ∧ n ≤ 0x8000000000000000 then some (integer (-(n : Int))) else decimal? true digits [] 0
  else if n < UInt64.size then some (integer n)
  else decimal? false digits [] 0

/-- Reads a number without its sign. -/
def readUnsigned (negative : Bool) (cs : List Char) : Option (Json × List Char) := do
  let (whole, cs) := spanDigits cs
  guard (!whole.isEmpty && (whole.length == 1 || whole.head? != some '0'))
  let (fraction, cs) ← readFraction cs
  let (exponent, cs) ← readExponent cs
  let number ← match fraction, exponent with
    | [], none => integerOrFloat? negative whole
    | fraction, exponent => decimal? negative whole fraction (exponent.getD 0)
  pure (number, cs)

/-! ### Values -/

def isBlank (c : Char) : Bool := c == ' ' || c == '\n' || c == '\t' || c == '\r'

def skipBlanks (cs : List Char) : List Char := cs.dropWhile isBlank

/-- Reads parts between commas, each by `part`, through the character that closes them. -/
def readParts {α : Type} (close : Char) (part : List Char → Option (α × List Char))
    (cs : List Char) : Option (List α × List Char) :=
  match part cs with
  | none => none
  | some (a, rest) =>
      match skipBlanks rest with
      | [] => none
      | c :: rest =>
          if c = close then some ([a], rest)
          else if c = ',' ∧ rest.length < cs.length then
            (readParts close part rest).map fun r => (a :: r.1, r.2)
          else none
termination_by cs.length

/-- Reads a name, the colon after it and a value by `value`. -/
def readMember (value : List Char → Option (Json × List Char)) (cs : List Char) :
    Option ((String × Json) × List Char) :=
  match skipBlanks cs with
  | '"' :: cs =>
      match readString cs with
      | none => none
      | some (name, cs) =>
          match skipBlanks cs with
          | ':' :: cs => (value cs).map fun r => ((String.ofList name, r.1), r.2)
          | _ => none
  | _ => none

/-- Reads the items of an array whose opening bracket has been read. -/
def readArray (value : List Char → Option (Json × List Char)) (cs : List Char) :
    Option (Json × List Char) :=
  match skipBlanks cs with
  | ']' :: cs => some (array [], cs)
  | cs => (readParts ']' value cs).map fun r => (array r.1, r.2)

/-- Reads the members of an object whose opening brace has been read. -/
def readObject (value : List Char → Option (Json × List Char)) (cs : List Char) :
    Option (Json × List Char) :=
  match skipBlanks cs with
  | '\x7d' :: cs => some (obj [], cs)
  | cs => (readParts '\x7d' (readMember value) cs).map fun r => (obj r.1, r.2)

/-- Reads a value that is no container. -/
def readScalar : List Char → Option (Json × List Char)
  | 'n' :: 'u' :: 'l' :: 'l' :: cs => some (null, cs)
  | 't' :: 'r' :: 'u' :: 'e' :: cs => some (boolean true, cs)
  | 'f' :: 'a' :: 'l' :: 's' :: 'e' :: cs => some (boolean false, cs)
  | '"' :: cs => (readString cs).map fun r => (string (String.ofList r.1), r.2)
  | '-' :: cs => readUnsigned true cs
  | cs => readUnsigned false cs

/-- Reads a value in which containers are nested at most as deep as given. -/
def readValue : Nat → List Char → Option (Json × List Char)
  | 0, cs =>
      match skipBlanks cs with
      | '[' :: _ => none
      | '\x7b' :: _ => none
      | cs => readScalar cs
  | depth + 1, cs =>
      match skipBlanks cs with
      | '[' :: cs => readArray (readValue depth) cs
      | '\x7b' :: cs => readObject (readValue depth) cs
      | cs => readScalar cs

/-- The value of a text whose containers are nested at most as deep as given. -/
def readWithin? (depth : Nat) (s : String) : Option Json :=
  match readValue depth s.toList with
  | some (v, rest) => if (skipBlanks rest).isEmpty then some v else none
  | none => none

/-- The deepest nesting of containers that is read. -/
def maxDepth : Nat := 127

/-- The value of a text. -/
def read? (s : String) : Option Json := readWithin? maxDepth s

end Lookalike.Json
