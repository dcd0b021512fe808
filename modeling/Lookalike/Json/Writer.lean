import Lookalike.Json.Basic
import Lookalike.Binary64.Shortest

/-! # Compact JSON text

`Json.write` writes a value without blanks.  In a string the quote, the backslash and the controls
below the space are escaped, the latter by a letter where there is one and as `\u00xx` otherwise;
all else stands for itself.  A double is written with the fewest digits that read back, and as
`null` when it is no finite number. -/

namespace Lookalike.Json

def hexDigit (n : Nat) : Char := Char.ofNat (if n < 10 then 48 + n else 87 + n)

/-- A character inside a string. -/
def escapeChar (c : Char) : List Char :=
  if c = '"' then ['\\', '"']
  else if c = '\\' then ['\\', '\\']
  else if c.toNat < 0x20 then
    if c = '\x08' then ['\\', 'b']
    else if c = '\x09' then ['\\', 't']
    else if c = '\x0a' then ['\\', 'n']
    else if c = '\x0c' then ['\\', 'f']
    else if c = '\x0d' then ['\\', 'r']
    else ['\\', 'u', '0', '0', hexDigit (c.toNat / 16), hexDigit (c.toNat % 16)]
  else [c]

def quoted (s : String) : List Char := '"' :: (s.toList.flatMap escapeChar ++ ['"'])

/-- Doubles are positional from `0.00001` up to sixteen digits before the point. -/
def floatFormat : Binary64.FloatFormat := ⟨16, 4, "+"⟩

/-- An integer in decimal digits. -/
def integerText (n : Int) : List Char :=
  if n < 0 then '-' :: Nat.toDigits 10 n.natAbs else Nat.toDigits 10 n.natAbs

/-- A double, or `null` when it is infinite or no number. -/
def floatText (x : Binary64) : List Char :=
  if x.isFinite then (floatFormat.text x).toList else ['n', 'u', 'l', 'l']

mutual

/-- The text of a value. -/
def write : Json → List Char
  | null => ['n', 'u', 'l', 'l']
  | boolean true => ['t', 'r', 'u', 'e']
  | boolean false => ['f', 'a', 'l', 's', 'e']
  | integer n => integerText n
  | float x => floatText x
  | string s => quoted s
  | array items => '[' :: (writeItems items ++ [']'])
  | object members => '\x7b' :: (writeMembers members ++ ['\x7d'])

/-- Values between commas. -/
def writeItems : List Json → List Char
  | [] => []
  | v :: vs => write v ++ (if vs.isEmpty then [] else ',' :: writeItems vs)

/-- Members between commas. -/
def writeMembers : List (String × Json) → List Char
  | [] => []
  | m :: ms => writeMember m ++ (if ms.isEmpty then [] else ',' :: writeMembers ms)

/-- A name and its value. -/
def writeMember : String × Json → List Char
  | (name, v) => quoted name ++ ':' :: write v

end

def text (v : Json) : String := String.ofList v.write

end Lookalike.Json
