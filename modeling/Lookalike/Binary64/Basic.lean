/-! # Double-precision numbers

A `Binary64` is the word of an IEEE 754 double: a sign, eleven bits of exponent and fifty-two of
fraction.  Two orders live on it.  `lt` compares numbers, so the two zeros are equal and a value
that is no number is below nothing; `rank` orders all words, negative before positive, and tells
the zeros apart.  On numbers, of which the first is not the negative zero, the two agree
(`rank_lt_iff_lt`). -/

namespace Lookalike

/-- The word of a double. -/
structure Binary64 where
  bits : UInt64
deriving DecidableEq

namespace Binary64

/-- The bit of the sign, which is also the count of words without one. -/
def signBit : Nat := 0x8000000000000000

/-- The lowest bit of the exponent, which is also the count of fractions. -/
def exponentBit : Nat := 0x10000000000000

/-- The word without sign of the infinite numbers; greater ones are no numbers. -/
def infinite : Nat := 0x7FF0000000000000

/-- The word of a sign and the bits below it. -/
def ofMagnitude (negative : Bool) (magnitude : Nat) : Binary64 :=
  ⟨UInt64.ofNat (if negative then signBit + magnitude else magnitude)⟩

def isNegative (x : Binary64) : Bool := decide (signBit ≤ x.bits.toNat)

/-- The bits below the sign, which grow with the absolute value. -/
def magnitude (x : Binary64) : Nat := x.bits.toNat % signBit

def isNaN (x : Binary64) : Bool := decide (infinite < x.magnitude)

/-- Whether the word stands for a number other than the infinite ones. -/
def isFinite (x : Binary64) : Bool := decide (x.magnitude < infinite)

def isZero (x : Binary64) : Bool := x.magnitude == 0

def zero : Binary64 := ⟨0⟩

instance : Inhabited Binary64 := ⟨zero⟩

/-- The number with the other sign. -/
def neg (x : Binary64) : Binary64 := ofMagnitude (!x.isNegative) x.magnitude

/-! ### Order of numbers -/

/-- The place of a number among all numbers; the two zeros share one. -/
def place (x : Binary64) : Int := if x.isNegative then -(x.magnitude : Int) else x.magnitude

/-- Whether both are numbers and the first is the smaller. -/
def lt (x y : Binary64) : Bool := !x.isNaN && !y.isNaN && decide (x.place < y.place)

/-- The greater of two numbers; the first when neither is greater, the other when one is none. -/
def max (x y : Binary64) : Binary64 := if x.isNaN || x.lt y then y else x

/-! ### Order of words -/

/-- The place of a word in the total order, in which the negative zero is below the other. -/
def rank (x : Binary64) : Int :=
  if x.isNegative then -(x.magnitude : Int) - 1 else x.magnitude

theorem rank_lt_iff_lt {x y : Binary64} (hx : x.isNaN = false) (hy : y.isNaN = false)
    (hzero : x.isNegative = true → x.magnitude ≠ 0) : x.rank < y.rank ↔ x.lt y = true := by
  have hlt : x.lt y = true ↔ x.place < y.place := by simp [lt, hx, hy]
  rw [hlt, rank, rank, place, place]
  by_cases hneg : x.isNegative = true
  · have hmagnitude := hzero hneg
    rw [if_pos hneg, if_pos hneg]
    split <;> omega
  · rw [if_neg hneg, if_neg hneg]
    split <;> omega

theorem max_eq_left {x y : Binary64} (hx : x.isNaN = false) (h : x.lt y = false) :
    x.max y = x := by simp [max, hx, h]

end Binary64

end Lookalike
