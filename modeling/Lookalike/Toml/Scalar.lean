import Lookalike.Json.Basic
import Lookalike.Binary64.Rounding

/-! # Numbers, dates and booleans in TOML

A scalar that is not a string is a word without blanks, save the one that may divide a date from a
time.  Underscores may stand between digits; a decimal integer has no leading zeros.  A float that
is past the largest double is refused.  Dates and times are checked against the calendar and kept as
canonical text, in the one member of an object. -/

namespace Lookalike.Toml

/-! ### Numbers -/

/-- The digits of a numeral, in which single underscores may stand between digits. -/
def digits? (isDigit : Char → Bool) : List Char → Option (List Char)
  | [] => none
  | [c] => if isDigit c then some [c] else none
  | c :: '_' :: cs => if isDigit c then (digits? isDigit cs).map (c :: ·) else none
  | c :: cs => if isDigit c then (digits? isDigit cs).map (c :: ·) else none

def digitValue (c : Char) : Nat :=
  if c.isDigit then c.toNat - 48 else c.toLower.toNat - 87

/-- The number of some digits in a base. -/
def number (base : Nat) (digits : List Char) : Nat :=
  digits.foldl (fun n c => n * base + digitValue c) 0

def isHexDigit (c : Char) : Bool :=
  c.isDigit || ('a' ≤ c && c ≤ 'f') || ('A' ≤ c && c ≤ 'F')

/-- Decimal digits without a leading zero. -/
def decimalDigits? (cs : List Char) : Option (List Char) :=
  match digits? Char.isDigit cs with
  | some ('0' :: _ :: _) => none
  | digits => digits

/-- A sign before a numeral: whether it is negative, and the rest. -/
def splitSign : List Char → Bool × List Char
  | '+' :: cs => (false, cs)
  | '-' :: cs => (true, cs)
  | cs => (false, cs)

/-- The integer of a word. -/
def integer? : List Char → Option Int
  | '0' :: 'x' :: cs => (digits? isHexDigit cs).map fun ds => (number 16 ds : Int)
  | '0' :: 'o' :: cs =>
      (digits? (fun c => '0' ≤ c && c ≤ '7') cs).map fun ds => (number 8 ds : Int)
  | '0' :: 'b' :: cs =>
      (digits? (fun c => c == '0' || c == '1') cs).map fun ds => (number 2 ds : Int)
  | cs =>
      let (negative, cs) := splitSign cs
      (decimalDigits? cs).map fun ds =>
        if negative then -(number 10 ds : Int) else (number 10 ds : Int)

/-- The double nearest to some digits times a power of ten, unless it is past the largest. -/
def nearest? (negative : Bool) (digits : List Char) (exponent : Int) : Option Binary64 :=
  let n := number 10 digits
  let order := digits.length + exponent
  if n = 0 ∨ order < -400 then some (Binary64.ofMagnitude negative 0)
  else if 400 < exponent then none
  else
    let x := Binary64.ofRatio negative (n * Binary64.powerOfTen exponent.toNat)
      (Binary64.powerOfTen (-exponent).toNat)
    if x.isFinite then some x else none

/-- The exponent of a float, where there is one. -/
def exponent? : List Char → Option Int
  | [] => some 0
  | _ :: cs =>
      let (negative, cs) := splitSign cs
      (digits? Char.isDigit cs).map fun ds =>
        if negative then -(number 10 ds : Int) else (number 10 ds : Int)

/-- The digits after the point of a float, where there is one. -/
def fraction? : List Char → Option (List Char)
  | [] => some []
  | _ :: cs => digits? Char.isDigit cs

/-- The float of a word. -/
def float? (word : List Char) : Option Binary64 :=
  let (negative, cs) := splitSign word
  if cs = ['i', 'n', 'f'] then some (Binary64.ofMagnitude negative Binary64.infinite)
  else if cs = ['n', 'a', 'n'] then
    some (Binary64.ofMagnitude negative (Binary64.infinite + 0x8000000000000))
  else do
    let isExponent (c : Char) := c == 'e' || c == 'E'
    let mantissa := cs.takeWhile (!isExponent ·)
    let whole ← decimalDigits? (mantissa.takeWhile (· != '.'))
    let fraction ← fraction? (mantissa.dropWhile (· != '.'))
    let exponent ← exponent? (cs.dropWhile (!isExponent ·))
    nearest? negative (whole ++ fraction) (exponent - fraction.length)

/-! ### Dates and times -/

/-- The number of a text of digits of a length. -/
def fixed? (length : Nat) (cs : List Char) : Option (Nat × List Char) :=
  let digits := cs.take length
  if digits.length = length ∧ digits.all Char.isDigit then
    some (number 10 digits, cs.drop length)
  else none

def daysIn (year month : Nat) : Nat :=
  if month = 2 then
    if year % 4 = 0 ∧ (year % 100 ≠ 0 ∨ year % 400 = 0) then 29 else 28
  else if month = 4 ∨ month = 6 ∨ month = 9 ∨ month = 11 then 30
  else 31

/-- The text after a date. -/
def afterDate? (cs : List Char) : Option (List Char) := do
  let (year, cs) ← fixed? 4 cs
  let cs ← dash? cs
  let (month, cs) ← fixed? 2 cs
  let cs ← dash? cs
  let (day, cs) ← fixed? 2 cs
  guard (1 ≤ month ∧ month ≤ 12 ∧ 1 ≤ day ∧ day ≤ daysIn year month)
  pure cs
where
  /-- The text after a dash. -/
  dash? : List Char → Option (List Char)
    | '-' :: cs => some cs
    | _ => none

/-- The text after an hour and a minute. -/
def afterMinute? (cs : List Char) : Option (List Char) := do
  let (hour, cs) ← fixed? 2 cs
  match cs with
  | ':' :: cs =>
      let (minute, cs) ← fixed? 2 cs
      guard (hour ≤ 23 ∧ minute ≤ 59)
      pure cs
  | _ => none

/-- The fraction of a second with its point and the text after it: nine digits count, without the
zeros at their end but for one if no other digit is left. -/
def secondFraction? : List Char → Option (List Char × List Char)
  | '.' :: cs =>
      let digits := cs.takeWhile Char.isDigit
      if digits.isEmpty then none
      else
        let kept := ((digits.take 9).reverse.dropWhile (· == '0')).reverse
        some ('.' :: if kept.isEmpty then ['0'] else kept, cs.dropWhile Char.isDigit)
  | cs => some ([], cs)

/-- A time of day and the text after it; the seconds may be left out. -/
def time? (cs : List Char) : Option (List Char × List Char) := do
  let rest ← afterMinute? cs
  let minute := cs.take 5
  match rest with
  | ':' :: rest =>
      let (second, after) ← fixed? 2 rest
      guard (second ≤ 60)
      let (fraction, after) ← secondFraction? after
      pure (minute ++ ':' :: rest.take 2 ++ fraction, after)
  | rest => pure (minute, rest)

/-- The distance from universal time that ends a text, if any; no distance has the sign `+`. -/
def offset? : List Char → Option (List Char)
  | [] => some []
  | [c] => if c = 'Z' ∨ c = 'z' then some ['Z'] else none
  | sign :: cs =>
      if sign = '+' ∨ sign = '-' then
        match afterMinute? cs with
        | some [] => some (if cs = ['0', '0', ':', '0', '0'] then '+' :: cs else sign :: cs)
        | _ => none
      else none

/-- The canonical text of a date, a time or both. -/
def instant? (word : List Char) : Option (List Char) :=
  match afterDate? word with
  | some [] => some word
  | some (divider :: rest) =>
      if divider = 'T' ∨ divider = 't' ∨ divider = ' ' then do
        let (time, rest) ← time? rest
        let offset ← offset? rest
        pure (word.take 10 ++ 'T' :: time ++ offset)
      else none
  | none =>
      match time? word with
      | some (time, []) => some time
      | _ => none

/-- The name of the one member of the object that stands for a date or time. -/
def instantMember : String := "$__toml_private_datetime"

/-! ### Words -/

/-- The integers that some reader can take: those of at most 128 bits, with a sign or without. -/
def inRange (n : Int) : Bool := decide (-(1 <<< 127 : Nat) ≤ n) && decide (n < (1 <<< 128 : Nat))

/-- The value of a word. -/
def scalar (word : List Char) : Option Json :=
  if word = ['t', 'r', 'u', 'e'] then some (.boolean true)
  else if word = ['f', 'a', 'l', 's', 'e'] then some (.boolean false)
  else
    match integer? word with
    | some n => if inRange n then some (.integer n) else none
    | none =>
        match float? word with
        | some x => some (.float x)
        | none => (instant? word).map fun t => .obj [(instantMember, .string (String.ofList t))]

/-- The characters of a word. -/
def isWordChar (c : Char) : Bool :=
  c.isAlphanum || c == '+' || c == '-' || c == '_' || c == '.' || c == ':'

/-- Reads a word; a blank may divide a date from a time. -/
def readScalar (cs : List Char) : Option (Json × List Char) :=
  let word := cs.takeWhile isWordChar
  let rest := cs.dropWhile isWordChar
  match rest with
  | ' ' :: next =>
      let more := next.takeWhile isWordChar
      if afterDate? word == some [] && (afterMinute? more).isSome then
        (scalar (word ++ ' ' :: more)).map (·, next.dropWhile isWordChar)
      else (scalar word).map (·, rest)
  | rest => (scalar word).map (·, rest)

end Lookalike.Toml
