import Lookalike.Text.Blank

/-! # Words of a vocabulary

Words such as treatments and field kinds are compared without regard to the case of the letters `A`
to `Z` and to blanks around them; every other character stands for itself, so `ſ` is not an `s`. -/

namespace Lookalike.Text

/-- Writes the letters `A` to `Z` small and leaves all else. -/
def lowerAscii (s : String) : String := String.ofList (s.toList.map Char.toLower)

/-- Whether two words differ at most in the case of their ASCII letters. -/
def sameWord (a b : String) : Bool := lowerAscii a == lowerAscii b

/-- The spelling of a word in small letters without blanks around it. -/
def canonicalWord (s : String) : String := lowerAscii (trim s)

end Lookalike.Text
