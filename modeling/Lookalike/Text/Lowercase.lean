import Lookalike.Text.CaseTable

/-! # Small letters

`lowercase` writes a text in small letters by the full Unicode mapping.  One rule looks at the
neighbours: a capital sigma at the end of a word becomes `ς`, any other `σ`.  It ends a word when a
cased character comes before it and none after it, where case-ignorable characters in between do
not count. -/

namespace Lookalike.Text

def isCased (c : Char) : Bool := inRanges casedRanges c.toNat

def isCaseIgnorable (c : Char) : Bool := inRanges caseIgnorableRanges c.toNat

/-- The small form of a character by itself. -/
def lowerChar (c : Char) : List Char :=
  if c.toNat < 0x80 then [c.toLower]
  else if c = '\u0130' then ['i', '\u0307']
  else match smallLetters.find? (·.holds c.toNat) with
    | some run => [Char.ofNat (run.small c.toNat)]
    | none => [c]

/-- Whether the first character that is not case-ignorable is cased. -/
def startsCased (cs : List Char) : Bool :=
  match cs.dropWhile isCaseIgnorable with
  | [] => false
  | c :: _ => isCased c

/-- The small form of a character between the text before it, read backwards, and the text after. -/
def lowerAt (before : List Char) (c : Char) (after : List Char) : List Char :=
  if c = '\u03A3' then
    if startsCased before && !startsCased after then ['\u03C2'] else ['\u03C3']
  else lowerChar c

/-- Small letters for the rest of a text whose beginning, read backwards, is `before`. -/
def lowerAfter (before : List Char) : List Char → List Char
  | [] => []
  | c :: cs => lowerAt before c cs ++ lowerAfter (c :: before) cs

def lowercaseChars (cs : List Char) : List Char := lowerAfter [] cs

/-- Writes a text in small letters. -/
def lowercase (s : String) : String := String.ofList (lowercaseChars s.toList)

/-! ### Facts -/

theorem lowerChar_space : lowerChar ' ' = [' '] := by decide

theorem not_isCased_space : isCased ' ' = false := by decide +kernel

theorem not_isCaseIgnorable_space : isCaseIgnorable ' ' = false := by decide +kernel

end Lookalike.Text
