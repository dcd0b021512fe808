import Lookalike.Binary64.Rounding

/-! # Shortest decimals

A finite double is written with the fewest significant digits that read back as the same double,
and among those with the digits nearest to its value.  The decimals that read back fill an interval
around the value, which holds its ends when the significand is even; for one digit, two digits and
so on the two neighbours of the value among the decimals of that length are tried. -/

namespace Lookalike.Binary64

/-- A positive decimal: its digits as a whole number, times a power of ten. -/
structure Decimal where
  digits : Nat
  exponent : Int
deriving DecidableEq

/-- The positive quotient `num / den` compared with `m * 2 ^ q`, as two naturals. -/
def Decimal.against (d : Decimal) (m : Nat) (q : Int) : Nat × Nat :=
  let ten := d.exponent
  ((d.digits * powerOfTen ten.toNat) <<< (-q).toNat, (m * powerOfTen (-ten).toNat) <<< q.toNat)

/-- Whether a decimal reads back as the finite positive double `x`. -/
def readsBack (x : Binary64) (d : Decimal) : Bool :=
  let m := x.significand
  let q := x.exponent - 2
  let low := if m = exponentBit && decide (-1074 < x.exponent) then 4 * m - 1 else 4 * m - 2
  let high := 4 * m + 2
  let (a, l) := d.against low q
  let (b, h) := d.against high q
  if m % 2 = 0 then decide (l ≤ a) && decide (b ≤ h) else decide (l < a) && decide (b < h)

/-- The decimal of the grid `10 ^ e` just below a positive double. -/
def below (x : Binary64) (e : Int) : Decimal :=
  let num := (x.significand * powerOfTen (-e).toNat) <<< x.exponent.toNat
  let den := powerOfTen e.toNat <<< (-x.exponent).toNat
  ⟨num / den, e⟩

/-- Whether the upper of two neighbours on a grid is the nearer one; a tie goes to the even. -/
def upperIsNearer (x : Binary64) (d : Decimal) : Bool :=
  let (a, v) := (⟨2 * d.digits + 1, d.exponent⟩ : Decimal).against (2 * x.significand) x.exponent
  decide (a < v) || (a == v && d.digits % 2 == 1)

/-- The decimal of a grid that reads back as the double, if there is one. -/
def onGrid? (x : Binary64) (e : Int) : Option Decimal :=
  let d := x.below e
  let u : Decimal := ⟨d.digits + 1, e⟩
  match x.readsBack d, x.readsBack u with
  | true, true => some (if x.upperIsNearer d then u else d)
  | true, false => some d
  | false, true => some u
  | false, false => none

/-- The greatest `e` with `10 ^ e` at most the positive double, starting from an estimate. -/
def decimalOrder (x : Binary64) : Int :=
  let estimate : Int := (x.exponent + Nat.log2 x.significand) * 30103 / 100000
  let reaches (e : Int) : Bool := (x.below e).digits != 0
  if reaches (estimate + 1) then estimate + 1
  else if reaches estimate then estimate
  else estimate - 1

/-- The first decimal that reads back on grids that become finer by a digit at a time. -/
def firstOnGrids (x : Binary64) (e : Int) : Nat → Decimal
  | 0 => x.below e
  | more + 1 => (x.onGrid? e).getD (x.firstOnGrids (e - 1) more)

/-- The shortest decimal that reads back as a positive finite double. -/
def shortest (x : Binary64) : Decimal := x.firstOnGrids x.decimalOrder 17

/-- Strips final zeros of the digits. -/
def Decimal.strip (d : Decimal) : Nat → Decimal
  | 0 => d
  | fuel + 1 =>
      if d.digits % 10 = 0 ∧ d.digits ≠ 0 then strip ⟨d.digits / 10, d.exponent + 1⟩ fuel else d

/-! ### Text -/

/-- How a double is written: the largest count of digits before a point that stands among or after
the digits, the largest count of zeros just after a point, and the sign of a positive exponent. -/
structure FloatFormat where
  wholeDigits : Nat
  leadingZeros : Nat
  exponentSign : String

/-- The digits with a point after the first `whole` of them. -/
def pointed (digits : List Char) (whole : Nat) : List Char :=
  digits.take whole ++ '.' :: digits.drop whole

/-- The text of a decimal. -/
def FloatFormat.decimal (f : FloatFormat) (d : Decimal) : String :=
  let digits := Nat.toDigits 10 d.digits
  let whole : Int := digits.length + d.exponent
  if 0 < whole ∧ whole ≤ f.wholeDigits then
    let zeros := List.replicate d.exponent.toNat '0'
    let fraction := if 0 ≤ d.exponent then ['0'] else []
    String.ofList (pointed (digits ++ zeros ++ fraction) whole.toNat)
  else if whole ≤ 0 ∧ -whole ≤ f.leadingZeros then
    String.ofList ('0' :: '.' :: List.replicate (-whole).toNat '0' ++ digits)
  else
    let power := whole - 1
    let mantissa := if digits.length = 1 then digits else pointed digits 1
    let sign := if power < 0 then "-" else f.exponentSign
    String.ofList mantissa ++ "e" ++ sign ++ Nat.repr power.natAbs

/-- The text of a finite double. -/
def FloatFormat.text (f : FloatFormat) (x : Binary64) : String :=
  let sign := if x.isNegative then "-" else ""
  if x.isZero then sign ++ "0.0"
  else
    let positive := ofMagnitude false x.magnitude
    sign ++ f.decimal (positive.shortest.strip 17)

end Lookalike.Binary64
