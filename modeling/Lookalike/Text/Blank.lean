/-! # Blanks

White space is the Unicode property `White_Space`: the five controls from tab to carriage return,
the space, the next-line and no-break controls, the general-purpose spaces and the two separators.
`trim` drops it from both ends of a text, `isBlank` tells a text that holds nothing else. -/

namespace Lookalike.Text

/-- The characters with the property `White_Space`. -/
def isSpace (c : Char) : Bool :=
  let n := c.toNat
  (0x09 ≤ n && n ≤ 0x0D) || n == 0x20 || n == 0x85 || n == 0xA0 || n == 0x1680 ||
    (0x2000 ≤ n && n ≤ 0x200A) || n == 0x2028 || n == 0x2029 || n == 0x202F || n == 0x205F ||
    n == 0x3000

/-- Drops the longest end of a list all of whose members satisfy `p`. -/
def dropEnd {α : Type} (p : α → Bool) (cs : List α) : List α :=
  (cs.reverse.dropWhile p).reverse

def trimChars (cs : List Char) : List Char :=
  dropEnd isSpace (cs.dropWhile isSpace)

/-- Drops white space from both ends. -/
def trim (s : String) : String := String.ofList (trimChars s.toList)

def isBlank (s : String) : Bool := s.toList.all isSpace

/-! ### Facts -/

theorem toList_trim (s : String) : (trim s).toList = trimChars s.toList := by
  simp [trim]

end Lookalike.Text
