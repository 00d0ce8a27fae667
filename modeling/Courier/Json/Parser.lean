import Courier.Json.Basic
import Courier.Text.Digits

/-!
# Reading JSON text

A reader takes characters off the front of its input.  It fails at the first
character that no JSON text could have there, or because the input ends too
early.  Arrays and objects may be nested up to a given depth.

Numbers without fraction and exponent that fit in 64 bits, signed or unsigned,
are integers.  Any other number keeps as many of its leading digits as fit in
64 bits and is rounded twice: once for these digits, once for the power of ten.
-/

namespace Courier.Json

/-- Why a text is refused. -/
inductive Fault where
  /-- The text ends before the value does. -/
  | unexpectedEnd
  /-- A character stands where it cannot stand. -/
  | malformed
  /-- The text is well formed so far but describes something else than asked. -/
  | wrongShape
deriving DecidableEq, Repr, Inhabited

/-- Takes a value off the front of the input. -/
abbrev Reader (α : Type) : Type :=
  List Char → Except Fault (α × List Char)

/-- The four characters that may stand between tokens. -/
def isBlank (c : Char) : Bool :=
  c == ' ' || c == '\n' || c == '\t' || c == '\r'

/-- The input without the blanks at its front. -/
def skipBlanks (s : List Char) : List Char :=
  s.dropWhile isBlank

/-- The fixed characters of a word such as `null`. -/
def word : List Char → Reader Unit
  | [], s => .ok ((), s)
  | _ :: _, [] => .error .unexpectedEnd
  | c :: cs, d :: s => if c = d then word cs s else .error .malformed

/-- How much a reader checks. -/
structure Strictness where
  /-- Whether what is read is also kept, so that it has to have a value. -/
  keeps : Bool

/-! ## Strings -/

/-- Four hexadecimal digits.  The input ends too early if fewer than four bytes
are left. -/
def hexUnit : Reader Nat := fun s =>
  let digits := s.take 4
  if (String.ofList digits).utf8ByteSize < 4 then .error .unexpectedEnd
  else
    match (Text.hexNumber? digits).filter fun _ => digits.length == 4 with
    | some unit => .ok (unit, s.drop 4)
    | none => .error .malformed

/-- What follows `\u`: one unit, or two that form a pair. -/
def unicodeEscape (strictness : Strictness) : Reader Char := fun s => do
  let (unit, rest) ← hexUnit s
  if !strictness.keeps then return (' ', rest)
  if 0xDC00 ≤ unit ∧ unit ≤ 0xDFFF then throw .malformed
  if ¬ (0xD800 ≤ unit ∧ unit ≤ 0xDBFF) then return (Char.ofNat unit, rest)
  match rest with
  | [] => throw .unexpectedEnd
  | '\\' :: [] => throw .unexpectedEnd
  | '\\' :: 'u' :: rest =>
      let (low, rest) ← hexUnit rest
      if 0xDC00 ≤ low ∧ low ≤ 0xDFFF then
        return (Char.ofNat (0x10000 + (unit - 0xD800) * 0x400 + (low - 0xDC00)), rest)
      else throw .malformed
  | _ => throw .malformed

/-- The character that a one-letter escape stands for. -/
def simpleEscape? : Char → Option Char
  | '"' => some '"'
  | '\\' => some '\\'
  | '/' => some '/'
  | 'b' => some '\x08'
  | 'f' => some '\x0c'
  | 'n' => some '\n'
  | 'r' => some '\r'
  | 't' => some '\t'
  | _ => none

/-- The rest of a string after its opening quote; `fuel` bounds the number of
characters, and `seen` holds those read so far, last first. -/
def stringTail (strictness : Strictness) : (fuel : Nat) → (seen : List Char) →
    Reader String
  | 0, _, _ => .error .unexpectedEnd
  | fuel + 1, seen, s =>
      match s with
      | [] => .error .unexpectedEnd
      | '"' :: rest => .ok (String.ofList seen.reverse, rest)
      | '\\' :: [] => .error .unexpectedEnd
      | '\\' :: 'u' :: rest =>
          match unicodeEscape strictness rest with
          | .error fault => .error fault
          | .ok (c, rest) => stringTail strictness fuel (c :: seen) rest
      | '\\' :: e :: rest =>
          match simpleEscape? e with
          | some c => stringTail strictness fuel (c :: seen) rest
          | none => .error .malformed
      | c :: rest =>
          if c.toNat < 32 then .error .malformed
          else stringTail strictness fuel (c :: seen) rest

/-- A string after its opening quote. -/
def stringBody (strictness : Strictness) : Reader String := fun s =>
  stringTail strictness (s.length + 1) [] s

/-! ## Numbers -/

/-- The leading digits of a number, as far as they fit in 64 bits, and the power
of ten that belongs to them. -/
structure Significand where
  digits : Nat
  scale : Int
deriving DecidableEq, Repr

namespace Significand

/-- The greatest value of the kept digits. -/
def limit : Nat := twoTo 64 - 1

/-- Whether one more digit fits. -/
def fits (n : Significand) (digit : Nat) : Bool :=
  n.digits * 10 + digit ≤ limit

/-- Take in the digits before the point: once one does not fit, it and those
after it only count for the magnitude. -/
def addWhole : Significand → List Nat → Significand
  | n, [] => n
  | n, d :: ds =>
      if n.fits d then addWhole ⟨n.digits * 10 + d, n.scale⟩ ds
      else ⟨n.digits, n.scale + (d :: ds).length⟩

/-- Take in the digits after the point: once one does not fit, it and those
after it are dropped. -/
def addFraction : Significand → List Nat → Significand
  | n, [] => n
  | n, d :: ds =>
      if n.fits d then addFraction ⟨n.digits * 10 + d, n.scale - 1⟩ ds else n

/-- The greatest power of ten that is applied in one step. -/
def maxStep : Nat := 308

/-- The number nearest to a power of ten up to `maxStep`. -/
def powerOfTen (k : Nat) : Binary64 :=
  (Binary64.ofRatio? false (tenTo k) 1).getD (Binary64.zero false)

/-- Divide by `10 ^ k` in steps of at most `maxStep`. -/
def divideDown : (fuel : Nat) → Binary64 → (k : Nat) → Option Binary64
  | 0, x, _ => some x
  | fuel + 1, x, k =>
      if k ≤ maxStep then x.div? (powerOfTen k)
      else if x.significand = 0 then some x
      else do divideDown fuel (← x.div? (powerOfTen maxStep)) (k - maxStep)

/-- The rounded value; none if it is out of range. -/
def value? (n : Significand) (negative : Bool) : Option Binary64 := do
  let x ← Binary64.ofRatio? negative n.digits 1
  if n.scale < 0 then divideDown 4 x (-n.scale).toNat
  else if n.scale ≤ maxStep then x.mul? (powerOfTen n.scale.toNat)
  else if x.significand = 0 then some x
  else none

end Significand

/-- The digits at the front of the input. -/
def digits (s : List Char) : List Nat × List Char :=
  ((s.takeWhile Char.isDigit).map fun c => c.toNat - 48, s.dropWhile Char.isDigit)

/-- The number that digits stand for. -/
def digitsValue (ds : List Nat) : Nat :=
  ds.foldl (fun n d => n * 10 + d) 0

/-- The fault of a number that lacks a digit where one has to stand. -/
def missingDigit (strictness : Strictness) (s : List Char) : Fault :=
  if s.isEmpty && strictness.keeps then .unexpectedEnd else .malformed

/-- The digits before the point: a single zero, or digits that start with
another one. -/
def wholeDigits (strictness : Strictness) : Reader (List Nat) := fun s =>
  match digits s with
  | ([], rest) => .error (missingDigit strictness rest)
  | (0 :: _ :: _, _) => .error .malformed
  | (ds, rest) => .ok (ds, rest)

/-- The digits after the point, if there is one. -/
def fractionDigits (strictness : Strictness) : Reader (Option (List Nat)) := fun s =>
  match s with
  | '.' :: rest =>
      match digits rest with
      | ([], rest) => .error (missingDigit strictness rest)
      | (ds, rest) => .ok (some ds, rest)
  | _ => .ok (none, s)

/-- The exponent, if there is one. -/
def exponent (strictness : Strictness) : Reader (Option Int) := fun s =>
  let unsigned (negative : Bool) (s : List Char) : Except Fault (Option Int × List Char) :=
    match digits s with
    | ([], rest) => .error (missingDigit strictness rest)
    | (ds, rest) =>
        let n : Int := digitsValue ds
        .ok (some (if negative then -n else n), rest)
  match s with
  | [] => .ok (none, s)
  | e :: rest =>
      if e = 'e' ∨ e = 'E' then
        match rest with
        | '+' :: rest => unsigned false rest
        | '-' :: rest => unsigned true rest
        | _ => unsigned false rest
      else .ok (none, s)

/-- A number whose sign has been read. -/
def numberBody (strictness : Strictness) (negative : Bool) : Reader Number := fun s => do
  let (whole, s) ← wholeDigits strictness s
  let (fraction, s) ← fractionDigits strictness s
  let (power, s) ← exponent strictness s
  if !strictness.keeps then return (.integer 0, s)
  let magnitude : Int := digitsValue whole
  let integral := fraction.isNone && power.isNone
  if integral && !negative && magnitude < twoTo 64 then
    return (.integer magnitude, s)
  else if integral && negative && 0 < magnitude && magnitude ≤ twoTo 63 then
    return (.integer (-magnitude), s)
  else
    let kept := (Significand.addWhole ⟨0, 0⟩ whole).addFraction (fraction.getD [])
    match (Significand.mk kept.digits (kept.scale + power.getD 0)).value? negative with
    | some x => return (.real x, s)
    | none => throw .malformed

/-! ## Arrays, objects and values -/

/-- What a bracketed list or a braced list has between its items. -/
def separated {α : Type} (item : Reader α) (close : Char) : (fuel : Nat) →
    (first : Bool) → (seen : List α) → Reader (List α)
  | 0, _, _, _ => .error .malformed
  | fuel + 1, first, seen, s =>
      match skipBlanks s with
      | [] => .error .unexpectedEnd
      | c :: rest =>
          if c = close then .ok (seen.reverse, rest)
          else if first then
            match item (c :: rest) with
            | .error fault => .error fault
            | .ok (a, rest) => separated item close fuel false (a :: seen) rest
          else if c = ',' then
            match skipBlanks rest with
            | [] => .error .unexpectedEnd
            | c :: rest =>
                if c = close then .error .malformed
                else
                  match item (c :: rest) with
                  | .error fault => .error fault
                  | .ok (a, rest) => separated item close fuel false (a :: seen) rest
          else .error .malformed

/-- A key. -/
def key (strictness : Strictness) : Reader String := fun s =>
  match s with
  | [] => .error .unexpectedEnd
  | '"' :: rest => stringBody strictness rest
  | _ => .error .malformed

/-- The colon after a key. -/
def colon : Reader Unit := fun s =>
  match skipBlanks s with
  | [] => .error .unexpectedEnd
  | ':' :: rest => .ok ((), rest)
  | _ => .error .malformed

/-- A field of an object. -/
def field (strictness : Strictness) (value : Reader Json) : Reader (String × Json) := fun s => do
  let (k, rest) ← key strictness s
  let (_, rest) ← colon rest
  let (a, rest) ← value rest
  return ((k, a), rest)

/-- A value that starts with `c` and is neither an array nor an object. -/
def scalar (strictness : Strictness) (c : Char) : Reader Json := fun s =>
  match c with
  | 'n' => do let (_, s) ← word ['u', 'l', 'l'] s; return (.null, s)
  | 't' => do let (_, s) ← word ['r', 'u', 'e'] s; return (.bool true, s)
  | 'f' => do let (_, s) ← word ['a', 'l', 's', 'e'] s; return (.bool false, s)
  | '"' => do let (t, s) ← stringBody strictness s; return (.string t, s)
  | '-' => do let (n, s) ← numberBody strictness true s; return (.number n, s)
  | c =>
      if c.isDigit then do
        let (n, s) ← numberBody strictness false (c :: s)
        return (.number n, s)
      else .error .malformed

/-- A value with at most `depth` arrays and objects around its innermost
parts. -/
def value (strictness : Strictness) : (depth : Nat) → Reader Json
  | 0, s =>
      match skipBlanks s with
      | [] => .error .unexpectedEnd
      | c :: rest => scalar strictness c rest
  | depth + 1, s =>
      match skipBlanks s with
      | [] => .error .unexpectedEnd
      | '[' :: rest => do
          let (elements, rest) ←
            separated (value strictness depth) ']' (rest.length + 1) true [] rest
          return (.array elements, rest)
      | '{' :: rest => do
          let (fields, rest) ←
            separated (field strictness (value strictness depth)) '}' (rest.length + 1)
              true [] rest
          return (.ofFields fields, rest)
      | c :: rest => scalar strictness c rest

/-- The number of arrays and objects that may be nested in a text. -/
def maxDepth : Nat := 127

/-- The value that a whole text describes. -/
def parseDepth (depth : Nat) (text : String) : Except Fault Json := do
  let (a, rest) ← value ⟨true⟩ depth text.toList
  if (skipBlanks rest).isEmpty then return a else throw .malformed

/-- The value that a whole text describes. -/
def parse (text : String) : Except Fault Json :=
  parseDepth maxDepth text

/-- Pass over a value without keeping it. -/
def skipValue : Reader Unit := fun s => do
  let (_, rest) ← value ⟨false⟩ s.length s
  return ((), rest)

end Courier.Json
