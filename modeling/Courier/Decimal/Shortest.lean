import Courier.Decimal.Binary64

/-!
# The shortest decimal that reads back

Among the decimals that round to a given binary number, the shortest one lies
on the coarsest grid of powers of ten that has a point in the rounding
interval; of the two points of that grid next to the number the nearer one is
taken.
-/

namespace Courier

/-- A decimal `digits * 10 ^ scale`. -/
structure Decimal where
  digits : Nat
  scale : Int
deriving DecidableEq, Repr, Inhabited

namespace Decimal

/-- The digits of a positive number without the zeros at its end; `fuel` bounds
their number. -/
def stripZeros : (fuel : Nat) → Nat → Int → Decimal
  | 0, digits, scale => ⟨digits, scale⟩
  | fuel + 1, digits, scale =>
      if digits % 10 = 0 ∧ digits ≠ 0 then stripZeros fuel (digits / 10) (scale + 1)
      else ⟨digits, scale⟩

/-- A decimal in normal form: no zero at the end of its digits. -/
def normal (d : Decimal) : Decimal :=
  stripZeros (d.digits.log2 + 1) d.digits d.scale

end Decimal

namespace Binary64

/-- The rounding interval of a positive number in units of `2 ^ (exponent - 2)`:
lower end, the number itself, upper end.  Below a power of two the
neighbouring number is twice as near. -/
def interval (x : Binary64) : Nat × Nat × Nat :=
  let m := x.significand
  let below := if m = twoTo 52 ∧ minExponent < x.exponent then 1 else 2
  (4 * m - below, 4 * m, 4 * m + 2)

/-- Whether the grid point `p * 10 ^ k` rounds to `x`; the ends of the interval
round to it exactly if its significand is even. -/
def covers (x : Binary64) (p : Nat) (k : Int) : Bool :=
  let (low, _, high) := x.interval
  let unit := x.exponent - 2
  let (point, scale) := if 0 ≤ k then (p * tenTo k.toNat, 1) else (p, tenTo (-k).toNat)
  let (num, den) := shiftFraction point scale unit
  if x.significand % 2 = 0 then decide (low * den ≤ num ∧ num ≤ high * den)
  else decide (low * den < num ∧ num < high * den)

/-- The point of the grid `10 ^ k` that is nearest to `x` among those that round
to it. -/
def gridPoint? (x : Binary64) (k : Int) : Option Nat :=
  let (a, b) := x.toFraction
  let (num, den) := if 0 ≤ k then (a, b * tenTo k.toNat) else (a * tenTo (-k).toNat, b)
  let below := num / den
  let nearest := roundQuotient num den
  let other := if nearest = below then below + 1 else below
  if x.covers nearest k then some nearest
  else if x.covers other k then some other
  else none

/-- The shortest decimal that rounds to the absolute value of a number. -/
def shortest (x : Binary64) : Decimal :=
  if x.significand = 0 then ⟨0, 0⟩
  else
    let magnitude : Int := (x.significand.log2 : Int) + x.exponent
    let coarsest := magnitude * 30103 / 100000 + 2
    let found := (List.range 24).findSome? fun i : Nat =>
      (x.gridPoint? (coarsest - i)).map fun p => (p, coarsest - (i : Int))
    match found with
    | some (p, k) => Decimal.normal ⟨p, k⟩
    | none => ⟨x.significand, x.exponent⟩

end Binary64

/-- How a decimal is written: the decimal exponents that are written
positionally, whether a positive exponent carries its sign, and whether an
integer keeps a decimal point in positional form. -/
structure DecimalStyle where
  minPositional : Int
  maxPositional : Int
  plusSign : Bool
  keepsPoint : Bool

/-- The text of `± d`. -/
def DecimalStyle.render (style : DecimalStyle) (negative : Bool) (d : Decimal) : String :=
  let digits := toString d.digits
  let count : Int := digits.length
  let sign := if negative then "-" else ""
  let point := if style.keepsPoint then ".0" else ""
  let leading := count - 1 + d.scale
  if d.digits = 0 then sign ++ "0" ++ point
  else if style.minPositional ≤ leading ∧ leading ≤ style.maxPositional then
    let zeros (n : Int) := String.ofList (List.replicate n.toNat '0')
    if 0 ≤ d.scale then sign ++ digits ++ zeros d.scale ++ point
    else if 0 ≤ leading then
      let whole := (leading + 1).toNat
      sign ++ String.ofList (digits.toList.take whole) ++ "." ++
        String.ofList (digits.toList.drop whole)
    else sign ++ "0." ++ zeros (-leading - 1) ++ digits
  else
    let fraction := String.ofList (digits.toList.drop 1)
    let mantissa := String.ofList (digits.toList.take 1) ++
      (if fraction.isEmpty then "" else "." ++ fraction)
    let mark := if leading < 0 then "e-" else if style.plusSign then "e+" else "e"
    sign ++ mantissa ++ mark ++ toString leading.natAbs

end Courier
