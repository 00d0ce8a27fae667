import Courier.Decimal.Powers
import Courier.Text.Digits
import Courier.Text.Ranges
import Courier.Text.Reader

/-!
# Points in time

A point in time is a number of seconds since the start of 1970, universal time,
and a number of nanoseconds.  A leap second counts as more than a thousand
million nanoseconds of the second before it.

The calendar is the Gregorian one, also before its introduction.
-/

namespace Courier

/-- A point in time. -/
structure Instant where
  seconds : Int
  nanoseconds : Nat
deriving DecidableEq, Repr, Inhabited

namespace Instant

open Text (Reader decimalNumber padded)

/-- A day of the calendar. -/
structure Day where
  year : Int
  month : Nat
  day : Nat
deriving DecidableEq, Repr

/-- Whether a year has a 29th of February. -/
def isLeapYear (year : Int) : Bool :=
  year % 4 == 0 && (year % 100 != 0 || year % 400 == 0)

/-- The number of days of a month. -/
def monthLength (year : Int) (month : Nat) : Nat :=
  if month = 2 then (if isLeapYear year then 29 else 28)
  else if month = 4 ∨ month = 6 ∨ month = 9 ∨ month = 11 then 30
  else 31

/-- Days from the first of March of year 0 to the start of 1970. -/
def epochShift : Int := 719468

/-- The number of days since the start of 1970.  Years are counted from March, so
that the leap day is the last one of a year. -/
def Day.number (d : Day) : Int :=
  let year := if d.month ≤ 2 then d.year - 1 else d.year
  let month : Int := if d.month ≤ 2 then d.month + 9 else d.month - 3
  365 * year + year / 4 - year / 100 + year / 400 + (153 * month + 2) / 5 + d.day - 1 -
    epochShift

/-- The day with a given number. -/
def Day.ofNumber (n : Int) : Day :=
  let shifted := n + epochShift
  let era := shifted / 146097
  let inEra := shifted % 146097
  let yearOfEra := (inEra - inEra / 1460 + inEra / 36524 - inEra / 146096) / 365
  let inYear := inEra - (365 * yearOfEra + yearOfEra / 4 - yearOfEra / 100)
  let month := (5 * inYear + 2) / 153
  let day := inYear - (153 * month + 2) / 5 + 1
  let year := yearOfEra + era * 400
  if month < 10 then ⟨year, (month + 3).toNat, day.toNat⟩
  else ⟨year + 1, (month - 9).toNat, day.toNat⟩

/-! ## Writing -/

/-- A year: four digits, with a sign if it is out of their range. -/
def yearText (year : Int) : String :=
  if 0 ≤ year ∧ year ≤ 9999 then padded 4 year.toNat
  else (if year < 0 then "-" else "+") ++ padded 4 year.natAbs

/-- The fraction of a second in groups of three digits, as many as are needed. -/
def fractionText (nanoseconds : Nat) : String :=
  if nanoseconds = 0 then ""
  else if nanoseconds % 1000000 = 0 then "." ++ padded 3 (nanoseconds / 1000000)
  else if nanoseconds % 1000 = 0 then "." ++ padded 6 (nanoseconds / 1000)
  else "." ++ padded 9 nanoseconds

/-- The written form in universal time. -/
def text (t : Instant) : String :=
  let day := Day.ofNumber (t.seconds / 86400)
  let second := (t.seconds % 86400).toNat
  let leap := t.nanoseconds / 1000000000
  yearText day.year ++ "-" ++ padded 2 day.month ++ "-" ++ padded 2 day.day ++ "T" ++
    padded 2 (second / 3600) ++ ":" ++ padded 2 (second / 60 % 60) ++ ":" ++
    padded 2 (second % 60 + leap) ++ fractionText (t.nanoseconds % 1000000000) ++ "Z"

/-! ## Reading -/

/-- The text after the white space at its front. -/
def skipBlanks (s : List Char) : List Char :=
  s.dropWhile Text.isBlank

/-- A number of at least one digit and at most `width`. -/
def number (width : Nat) : Reader Nat := fun s =>
  let ds := (s.take width).takeWhile Char.isDigit
  if ds.isEmpty then none else some (decimalNumber ds, s.drop ds.length)

/-- A number after white space. -/
def part (width : Nat) : Reader Nat := fun s =>
  number width (skipBlanks s)

/-- A year after white space: up to four digits, or a sign and any number of
digits. -/
def year : Reader Int := fun s =>
  match skipBlanks s with
  | '-' :: rest => (number rest.length rest).map fun (n, rest) => (-(n : Int), rest)
  | '+' :: rest => (number rest.length rest).map fun (n, rest) => ((n : Int), rest)
  | s => (number 4 s).map fun (n, rest) => ((n : Int), rest)

/-- A mark after white space. -/
def mark (c : Char) : Reader Unit := fun s =>
  match skipBlanks s with
  | d :: rest => if c = d then some ((), rest) else none
  | [] => none

/-- The fraction of a second in nanoseconds; digits after the ninth are dropped. -/
def fraction : Reader Nat := fun s =>
  match s with
  | '.' :: rest =>
      let ds := rest.takeWhile Char.isDigit
      if ds.isEmpty then none
      else
        let kept := ds.take 9
        some (decimalNumber kept * tenTo (9 - kept.length), rest.drop ds.length)
  | _ => some (0, s)

/-- The letters of a zone name in lower case. -/
def lowered (s : List Char) : List Char :=
  s.map Char.toLower

/-- The distance of local from universal time, in seconds. -/
def zone : Reader Int := fun s =>
  let digits (negative : Bool) (s : List Char) : Option (Int × List Char) := do
    let hours := s.take 2
    let rest := (s.drop 2).dropWhile fun c => c == ':' || Text.isBlank c
    let minutes := rest.take 2
    if hours.length = 2 ∧ hours.all Char.isDigit ∧ minutes.length = 2 ∧ minutes.all Char.isDigit ∧
        decimalNumber minutes < 60 ∧ decimalNumber hours < 24 then
      let n : Int := decimalNumber hours * 3600 + decimalNumber minutes * 60
      return (if negative then -n else n, rest.drop 2)
    else none
  match s with
  | '+' :: rest => digits false rest
  | '-' :: rest => digits true rest
  | '−' :: rest => digits true rest
  | c :: rest =>
      if c = 'z' ∨ c = 'Z' then some (0, rest)
      else if lowered (s.take 3) = ['u', 't', 'c'] then some (0, s.drop 3)
      else none
  | [] => none

/-- Whether a year has a place in the calendar. -/
def hasYear (year : Int) : Bool :=
  -262143 ≤ year && year ≤ 262142

/-- Read a point in time: a day, a time and a zone.  Both the local and the universal
day have to be in the calendar. -/
def ofText? (text : String) : Option Instant := do
  let (y, s) ← year text.toList
  let (_, s) ← mark '-' s
  let (month, s) ← part 2 s
  let (_, s) ← mark '-' s
  let (day, s) ← part 2 s
  let s ←
    match s with
    | c :: rest => if c = 'T' ∨ c = 't' ∨ c = ' ' then some rest else none
    | [] => none
  let (hour, s) ← part 2 s
  let (_, s) ← mark ':' s
  let (minute, s) ← part 2 s
  let (_, s) ← mark ':' s
  let (second, s) ← part 2 s
  let (nanos, s) ← fraction s
  let (offset, s) ← zone (skipBlanks s)
  if !(skipBlanks s).isEmpty then none
  if 1 ≤ month ∧ month ≤ 12 ∧ 1 ≤ day ∧ day ≤ monthLength y month ∧ hour < 24 ∧
      minute < 60 ∧ second ≤ 60 ∧ hasYear y then
    let inDay : Int := hour * 3600 + minute * 60 + min second 59
    let seconds := (Day.mk y month day).number * 86400 + inDay - offset
    if hasYear (Day.ofNumber (seconds / 86400)).year then
      return ⟨seconds, nanos + (if second = 60 then 1000000000 else 0)⟩
    else none
  else none

end Instant

end Courier
