import Courier.Decimal.Powers

/-!
# Binary floating-point numbers

A finite 64-bit binary floating-point number is a sign, a significand below
2^53 and a power of two.  All operations here are exact integer arithmetic
followed by one rounding to the nearest such number, a tie going to the even
significand.
-/

namespace Courier

/-- The number `± significand * 2 ^ exponent`.  Zero has the least exponent, and
any other number the least exponent at which its significand stays below
2^53, so that equal numbers of one sign are equal data. -/
structure Binary64 where
  negative : Bool
  significand : Nat
  exponent : Int
deriving DecidableEq, Repr, Inhabited

namespace Binary64

/-- The least exponent. -/
def minExponent : Int := -1074

/-- The greatest exponent. -/
def maxExponent : Int := 971

/-- Zero of either sign. -/
def zero (negative : Bool) : Binary64 :=
  ⟨negative, 0, minExponent⟩

/-- The integer nearest to `num / den`, a tie going to the even one. -/
def roundQuotient (num den : Nat) : Nat :=
  let quotient := num / den
  let twice := 2 * (num % den)
  if twice < den then quotient
  else if den < twice then quotient + 1
  else quotient + quotient % 2

/-- The fraction `num / den` divided by `2 ^ e`. -/
def shiftFraction (num den : Nat) (e : Int) : Nat × Nat :=
  if 0 ≤ e then (num, den * twoTo e.toNat) else (num * twoTo (-e).toNat, den)

/-- The number nearest to `± num / den`; none if it is out of range. -/
def ofRatio? (negative : Bool) (num den : Nat) : Option Binary64 :=
  if num = 0 then some (zero negative)
  else
    let magnitude : Int := (num.log2 : Int) - (den.log2 : Int)
    let low := max (magnitude - 53) minExponent
    let exponent :=
      let (n, d) := shiftFraction num den low
      if n / d < twoTo 53 then low else low + 1
    let (n, d) := shiftFraction num den exponent
    let significand := roundQuotient n d
    let rounded : Binary64 :=
      if significand = twoTo 53 then ⟨negative, twoTo 52, exponent + 1⟩
      else ⟨negative, significand, exponent⟩
    if rounded.exponent ≤ maxExponent then some rounded else none

/-- The number nearest to `± digits * 10 ^ scale`; none if it is out of range. -/
def ofDecimal? (negative : Bool) (digits : Nat) (scale : Int) : Option Binary64 :=
  if digits = 0 then some (zero negative)
  else if 400 < scale then none
  else
    let width : Int := digits.log2 / 3 + 1
    if scale + width < -400 then some (zero negative)
    else if 0 ≤ scale then ofRatio? negative (digits * tenTo scale.toNat) 1
    else ofRatio? negative digits (tenTo (-scale).toNat)

/-- The number nearest to an integer; none if it is out of range. -/
def ofInt? (z : Int) : Option Binary64 :=
  ofRatio? (z < 0) z.natAbs 1

/-- The absolute value as a fraction. -/
def toFraction (x : Binary64) : Nat × Nat :=
  shiftFraction x.significand 1 (-x.exponent)

/-- The rounded product; none if it is out of range. -/
def mul? (x y : Binary64) : Option Binary64 :=
  let (a, b) := x.toFraction
  let (c, d) := y.toFraction
  ofRatio? (x.negative != y.negative) (a * c) (b * d)

/-- The rounded quotient by a number other than zero; none if it is out of
range. -/
def div? (x y : Binary64) : Option Binary64 :=
  let (a, b) := x.toFraction
  let (c, d) := y.toFraction
  ofRatio? (x.negative != y.negative) (a * d) (b * c)

/-- Numeric equality: the two zeros are one number. -/
def same (x y : Binary64) : Bool :=
  x == y || (x.significand == 0 && y.significand == 0)

/-- Numeric order. -/
def isNegative (x : Binary64) : Bool :=
  x.negative && x.significand != 0

end Binary64

end Courier
