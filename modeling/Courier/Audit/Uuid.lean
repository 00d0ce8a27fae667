import Courier.Text.Digits

/-!
# Row numbers

A row of the audit log is told apart by a number of 128 bits.  It is written as
32 lower-case hexadecimal digits in five groups.
-/

namespace Courier

/-- A number of 128 bits. -/
structure Uuid where
  number : Nat
deriving DecidableEq, Repr, Inhabited

namespace Uuid

/-- The last `count` hexadecimal digits of a number. -/
def hexDigits : (count : Nat) → Nat → List Char
  | 0, _ => []
  | count + 1, n => hexDigits count (n / 16) ++ [Text.hexDigit (n % 16)]

/-- The written form. -/
def text (u : Uuid) : String :=
  let ds := hexDigits 32 u.number
  let group (start count : Nat) := (ds.drop start).take count
  String.ofList (group 0 8 ++ '-' :: group 8 4 ++ '-' :: group 12 4 ++ '-' :: group 16 4 ++
    '-' :: group 20 12)

/-- The number of 32 hexadecimal digits. -/
def ofDigits? (ds : List Char) : Option Uuid :=
  if ds.length = 32 then (Text.hexNumber? ds).map Uuid.mk else none

/-- The number of 32 hexadecimal digits in five groups. -/
def ofGroups? (s : List Char) : Option Uuid :=
  let isHyphen (i : Nat) := s[i]? == some '-'
  if s.length = 36 ∧ isHyphen 8 ∧ isHyphen 13 ∧ isHyphen 18 ∧ isHyphen 23 then
    ofDigits? (s.take 8 ++ (s.drop 9).take 4 ++ (s.drop 14).take 4 ++ (s.drop 19).take 4 ++
      s.drop 24)
  else none

/-- The characters in front of a number that is written as a resource name, in any
case. -/
def resourceWords : List Char :=
  "urn:uuid:".toList

/-- Read a number: bare digits, or groups that may stand between braces or after
the words of a resource name. -/
def ofText? (text : String) : Option Uuid :=
  let s := text.toList
  if s.length = 32 then ofDigits? s
  else if s.length = 36 then ofGroups? s
  else if s.length = 38 ∧ s.head? = some '\x7b' ∧ s.getLast? = some '\x7d' then
    ofGroups? ((s.drop 1).take 36)
  else if s.length = 45 ∧ (s.take 9).map Char.toLower = resourceWords then ofGroups? (s.drop 9)
  else none

end Uuid

end Courier
