import Lookalike.Text.Blank
import Lookalike.Text.Lowercase

/-! # Normal forms of names

A family name is compared with its hyphens and spaces evened out: runs of either shrink to one, and
a hyphen takes in the spaces beside it.  A first name is compared in small letters with single
spaces, and falls into words at its spaces.  Only the space proper counts here; blanks of other
kinds are dropped at the ends and kept inside. -/

namespace Lookalike.PersonName

/-- Shrinks every run of a character to one. -/
def squeeze (c : Char) : List Char → List Char
  | [] => []
  | a :: cs =>
      match squeeze c cs with
      | [] => [a]
      | b :: rest => if a = c ∧ b = c then b :: rest else a :: b :: rest

/-- Drops a space before and a space after each hyphen, from left to right. -/
def closeHyphens : List Char → List Char
  | ' ' :: '-' :: ' ' :: cs => '-' :: closeHyphens cs
  | ' ' :: '-' :: cs => '-' :: closeHyphens cs
  | '-' :: ' ' :: cs => '-' :: closeHyphens cs
  | c :: cs => c :: closeHyphens cs
  | [] => []

def familyChars (cs : List Char) : List Char :=
  closeHyphens (squeeze ' ' (squeeze '-' (Text.trimChars cs)))

def firstChars (cs : List Char) : List Char :=
  Text.lowercaseChars (squeeze ' ' (Text.trimChars cs))

/-- The parts of a text between spaces that are not empty. -/
def wordChars (cs : List Char) : List (List Char) :=
  (cs.splitOn ' ').filter fun word => !word.isEmpty

/-- The normal form of a family name. -/
def family (name : String) : String := String.ofList (familyChars name.toList)

/-- The normal form of a first name. -/
def first (name : String) : String := String.ofList (firstChars name.toList)

/-- The words of a text. -/
def words (text : String) : List String := (wordChars text.toList).map String.ofList

end Lookalike.PersonName
