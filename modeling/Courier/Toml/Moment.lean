import Courier.Audit.Instant
import Courier.Settings.Tree
import Courier.Toml.Text

/-!
# Dates and times in TOML files

A date, a time of day, or both, perhaps with a distance to universal time.  They
are kept as text in a normal form.
-/

namespace Courier.Toml

open Text (Reader padded)

/-- A number of exactly `count` digits in a range. -/
def field (count low high : Nat) : Reader Nat := fun s =>
  let ds := (s.take count).takeWhile Char.isDigit
  let n := Text.decimalNumber ds
  if ds.length = count ∧ low ≤ n ∧ n ≤ high then some (n, s.drop count) else none

/-- A character that has to stand there. -/
def mark (c : Char) : Reader Unit
  | d :: rest => if c = d then some ((), rest) else none
  | [] => none

/-- A day of the calendar. -/
def date : Reader String := fun s => do
  let (year, s) ← field 4 0 9999 s
  let (_, s) ← mark '-' s
  let (month, s) ← field 2 1 12 s
  let (_, s) ← mark '-' s
  let (day, s) ← field 2 1 31 s
  if day ≤ Instant.monthLength year month then
    return (padded 4 year ++ "-" ++ padded 2 month ++ "-" ++ padded 2 day, s)
  else none

/-- The part of a second: nine digits count, and zeros at the end are not
kept. -/
def secondPart : Reader String
  | '.' :: rest =>
      let ds := rest.takeWhile Char.isDigit
      let kept := ((ds.take 9).reverse.dropWhile fun c => c == '0').reverse
      if ds.isEmpty then none
      else
        let text := if kept.isEmpty then "" else "." ++ String.ofList kept
        some (text, rest.drop ds.length)
  | s => some ("", s)

/-- A time of day. -/
def time : Reader String := fun s => do
  let (hour, s) ← field 2 0 23 s
  let (_, s) ← mark ':' s
  let (minute, s) ← field 2 0 59 s
  let (_, s) ← mark ':' s
  let (second, s) ← field 2 0 60 s
  let (part, s) ← secondPart s
  return (padded 2 hour ++ ":" ++ padded 2 minute ++ ":" ++ padded 2 second ++ part, s)

/-- The distance to universal time, if there is one. -/
def zone : Reader String := fun s =>
  match s with
  | c :: rest =>
      if c = 'Z' ∨ c = 'z' then some ("Z", rest)
      else if c = '+' ∨ c = '-' then do
        let (hour, s) ← field 2 0 23 rest
        let (_, s) ← mark ':' s
        let (minute, s) ← field 2 0 59 s
        let sign := if c = '-' ∧ hour + minute ≠ 0 then "-" else "+"
        return (sign ++ padded 2 hour ++ ":" ++ padded 2 minute, s)
      else some ("", s)
  | [] => some ("", [])

/-- A date and the time of day that may follow it. -/
def dateTime : Reader String := fun s => do
  let (day, s) ← date s
  match s with
  | c :: rest =>
      if c = 'T' ∨ c = 't' ∨ c = ' ' then
        match time rest with
        | some (hour, s) => do
            let (offset, s) ← zone s
            return (day ++ "T" ++ hour ++ offset, s)
        | none => return (day, s)
      else return (day, s)
  | [] => return (day, [])

/-- The key under which a date or time stands in a tree. -/
def momentKey : String := "$__toml_private_datetime"

/-- A date, a time or both.  In a tree they are a table with a single key of its
own. -/
def moment : Reader Tree := fun s =>
  ((dateTime s).or (time s)).map fun r => (.table [(momentKey, .text r.1)], r.2)

end Courier.Toml
