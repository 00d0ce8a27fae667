import Courier.Decimal.Shortest

/-!
# Floating-point numbers with infinities

What a floating-point literal can stand for: a finite number, one of the two
infinities, or no number at all.
-/

namespace Courier

/-- A finite number, an infinity, or no number. -/
inductive Extended where
  | finite (x : Binary64)
  | infinite (negative : Bool)
  | undefined
deriving DecidableEq, Repr, Inhabited

namespace Extended

/-- All exponents are written positionally, and an integer has no point. -/
def style : DecimalStyle :=
  ⟨-400, 400, false, false⟩

/-- The fewest digits that read back, without exponent. -/
def text : Extended → String
  | finite x => style.render x.negative x.shortest
  | infinite negative => if negative then "-inf" else "inf"
  | undefined => "NaN"

/-- The number nearest to `± digits * 10 ^ scale`; beyond the finite numbers that
is an infinity. -/
def ofDecimal (negative : Bool) (digits : Nat) (scale : Int) : Extended :=
  match Binary64.ofDecimal? negative digits scale with
  | some x => finite x
  | none => infinite negative

/-- Whether a number is the positive infinity. -/
def isTop : Extended → Bool
  | infinite false => true
  | _ => false

/-- A finite number nearby: the greatest one for an infinity, and zero for no
number. -/
def nearest : Extended → Binary64
  | finite x => x
  | infinite negative => ⟨negative, twoTo 53 - 1, Binary64.maxExponent⟩
  | undefined => Binary64.zero false

end Extended

end Courier
