import Lookalike.Binary64.Basic

/-! # Rounding to double precision

`ofRatio` gives the double nearest to a quotient of natural numbers, of two equally near ones the
one whose last bit is zero, and an infinite one past the largest.  Products and quotients of doubles
are the exact ones rounded in this way.  A double is read back as a whole number of units
(`significand`) of a power of two (`exponent`). -/

namespace Lookalike.Binary64

/-- The whole number nearest to a quotient; a half goes to the even neighbour. -/
def roundQuotient (num den : Nat) : Nat :=
  let q := num / den
  let twice := 2 * (num % den)
  if den < twice || (twice == den && q % 2 == 1) then q + 1 else q

def powerOfTen (e : Nat) : Nat := Nat.pow 10 e

/-- A numerator and a denominator of the quotient times a power of two. -/
def timesPowerOfTwo (num den : Nat) (e : Int) : Nat × Nat :=
  if 0 ≤ e then (num <<< e.toNat, den) else (num, den <<< (-e).toNat)

/-- The greatest `e` with `2 ^ e` at most the quotient of two positive numbers. -/
def binaryOrder (num den : Nat) : Int :=
  let e : Int := (Nat.log2 num : Int) - Nat.log2 den
  let (n, d) := timesPowerOfTwo num den (-e)
  if n < d then e - 1 else e

/-- The double nearest to a quotient. -/
def ofRatio (negative : Bool) (num den : Nat) : Binary64 :=
  if num = 0 then ofMagnitude negative 0
  else
    let unit := Max.max (binaryOrder num den - 52) (-1074)
    let (n, d) := timesPowerOfTwo num den (-unit)
    let steps := (unit + 1074).toNat * exponentBit + roundQuotient n d
    ofMagnitude negative (Min.min steps infinite)

/-- The double nearest to a natural number. -/
def ofNat (n : Nat) : Binary64 := ofRatio false n 1

/-- The double nearest to an integer. -/
def ofInt (n : Int) : Binary64 := ofRatio (decide (n < 0)) n.natAbs 1

/-- The units that a finite number counts. -/
def significand (x : Binary64) : Nat :=
  if x.magnitude < exponentBit then x.magnitude else exponentBit + x.magnitude % exponentBit

/-- The power of two of one unit of a finite number. -/
def exponent (x : Binary64) : Int :=
  if x.magnitude < exponentBit then -1074 else (x.magnitude / exponentBit : Nat) - 1075

/-- The rounded product of two finite numbers. -/
def mul (x y : Binary64) : Binary64 :=
  let (n, d) := timesPowerOfTwo (x.significand * y.significand) 1 (x.exponent + y.exponent)
  ofRatio (x.isNegative != y.isNegative) n d

/-- The rounded quotient of a finite number by one that is finite and not zero. -/
def div (x y : Binary64) : Binary64 :=
  let (n, d) := timesPowerOfTwo x.significand y.significand (x.exponent - y.exponent)
  ofRatio (x.isNegative != y.isNegative) n d

end Lookalike.Binary64
