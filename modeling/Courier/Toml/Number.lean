import Courier.Settings.Tree
import Courier.Toml.Text

/-!
# Numbers in TOML files

Integers in four bases, which have to fit in 64 bits with sign, and floating-point
numbers with two infinities.  Single underscores may stand between digits.
-/

namespace Courier.Toml

open Text (Reader splitSign)

/-- The value of a digit in a base up to 16. -/
def digitValue? (base : Nat) (c : Char) : Option Nat :=
  (Text.hexValue? c).filter fun d => d < base

/-- Whether a character is a digit in a base. -/
def isDigit (base : Nat) (c : Char) : Bool :=
  (digitValue? base c).isSome

/-- Digits with single underscores between them, after the first; `fuel` bounds
their number. -/
def moreDigits (base : Nat) : (fuel : Nat) → Reader (List Char)
  | 0, s => some ([], s)
  | fuel + 1, s =>
      match s with
      | '_' :: c :: rest =>
          if isDigit base c then (moreDigits base fuel rest).map fun r => (c :: r.1, r.2)
          else none
      | ['_'] => none
      | c :: rest =>
          if isDigit base c then (moreDigits base fuel rest).map fun r => (c :: r.1, r.2)
          else some ([], s)
      | [] => some ([], [])

/-- Digits with single underscores between them. -/
def digits (base : Nat) : Reader (List Char)
  | c :: rest =>
      if isDigit base c then (moreDigits base rest.length rest).map fun r => (c :: r.1, r.2)
      else none
  | [] => none

/-- The number that digits stand for. -/
def digitsValue (base : Nat) (ds : List Char) : Nat :=
  ds.foldl (fun n d => n * base + (digitValue? base d).getD 0) 0

/-- Decimal digits without a zero in front of others. -/
def wholeDigits : Reader (List Char)
  | '0' :: rest => some (['0'], rest)
  | s => digits 10 s

/-- An integer that fits in 64 bits with sign. -/
def inRange (z : Int) : Option Tree :=
  if -(twoTo 63) ≤ z ∧ z < twoTo 63 then some (.integer true z) else none

/-- A decimal integer. -/
def decimalInteger : Reader Tree := fun s => do
  let (negative, s) := splitSign s
  let (ds, s) ← wholeDigits s
  let n : Int := digitsValue 10 ds
  return (← inRange (if negative then -n else n), s)

/-- An integer in another base. -/
def integerIn (base : Nat) : Reader Tree := fun s => do
  let (ds, s) ← digits base s
  return (← inRange (digitsValue base ds), s)

/-- An integer. -/
def integer : Reader Tree
  | '0' :: 'x' :: rest => integerIn 16 rest
  | '0' :: 'o' :: rest => integerIn 8 rest
  | '0' :: 'b' :: rest => integerIn 2 rest
  | s => decimalInteger s

/-- The exponent of a number, if there is one. -/
def exponent? : Reader (Option Int)
  | [] => some (none, [])
  | e :: rest =>
      if e = 'e' ∨ e = 'E' then do
        let (negative, s) := splitSign rest
        let (ds, s) ← digits 10 s
        let n : Int := digitsValue 10 ds
        return (some (if negative then -n else n), s)
      else some (none, e :: rest)

/-- The digits after the point, if there is one. -/
def fraction? : Reader (Option (List Char))
  | '.' :: rest => (digits 10 rest).map fun r => (some r.1, r.2)
  | s => some (none, s)

/-- The words for an infinity and for no number. -/
def specialReal (negative : Bool) : Reader Tree
  | 'i' :: 'n' :: 'f' :: rest => some (.real (.infinite negative), rest)
  | 'n' :: 'a' :: 'n' :: rest => some (.real .undefined, rest)
  | _ => none

/-- A number with a point or an exponent.  Only a number that is too small, not
one that is too great, may go beyond all finite ones. -/
def decimalReal : Reader Tree := fun s => do
  let (negative, s) := splitSign s
  let (whole, s) ← wholeDigits s
  let (fraction, s) ← fraction? s
  let (power, s) ← exponent? s
  if fraction.isNone && power.isNone then none
  else
    let x := Extended.ofDecimal negative (digitsValue 10 (whole ++ fraction.getD []))
      (power.getD 0 - (fraction.getD []).length)
    if x.isTop then none else return (.real x, s)

/-- A floating-point number. -/
def real : Reader Tree := fun s =>
  (decimalReal s).or (specialReal (splitSign s).1 (splitSign s).2)

end Courier.Toml
