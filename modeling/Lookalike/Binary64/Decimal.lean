import Lookalike.Binary64.Rounding

/-! # Doubles of decimal numerals

A numeral in a document is a whole number of significant digits, at most 64 bits long, times a power
of ten.  It is read by rounding the digits to a double and scaling that by a rounded power of ten,
in steps of `10 ^ 308` where the power is smaller than any double; a result past the largest double
is refused. -/

namespace Lookalike.Binary64

/-- The double nearest to a power of ten. -/
def tenTo (e : Nat) : Binary64 := ofNat (powerOfTen e)

/-- Divides by a power of ten of any size, `10 ^ 308` at a time. -/
def divideByTenTo (x : Binary64) (e : Nat) : Binary64 :=
  if e ≤ 308 then x.div (tenTo e)
  else if x.isZero then x
  else divideByTenTo (x.div (tenTo 308)) (e - 308)
termination_by e

/-- The double of `digits` times a power of ten, unless it is past the largest. -/
def ofDecimal? (negative : Bool) (digits : Nat) (exponent : Int) : Option Binary64 :=
  let x := ofNat digits
  let scaled : Option Binary64 :=
    if exponent < 0 then some (x.divideByTenTo (-exponent).toNat)
    else if exponent ≤ 308 then
      let y := x.mul (tenTo exponent.toNat)
      if y.isFinite then some y else none
    else if x.isZero then some x
    else none
  scaled.map fun y => if negative then y.neg else y

end Lookalike.Binary64
