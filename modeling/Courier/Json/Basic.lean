import Courier.Dict
import Courier.Decimal.Shortest

/-!
# JSON values

A number is an integer or a binary floating-point number, and the two are
never equal.  The fields of an object are listed by increasing key; `Json.object`
itself does not enforce that order, `Json.ofFields` establishes it.
-/

namespace Courier

/-- A number: integers are exact, everything else is rounded. -/
inductive Number where
  | integer (z : Int)
  | real (x : Binary64)
deriving DecidableEq, Repr, Inhabited

/-- A JSON value. -/
inductive Json where
  | null
  | bool (b : Bool)
  | number (n : Number)
  | string (s : String)
  | array (elements : List Json)
  | object (fields : List (String × Json))
deriving Repr, Inhabited

namespace Number

/-- Numeric equality within each kind of number. -/
def same : Number → Number → Bool
  | integer a, integer b => a == b
  | real x, real y => x.same y
  | _, _ => false

/-- Real numbers are positional for decimal exponents from -5 to 15, and always
have a point there. -/
def style : DecimalStyle :=
  ⟨-5, 15, true, true⟩

/-- The text of a real number: the fewest digits that read back. -/
def realText (x : Binary64) : String :=
  style.render x.negative x.shortest

/-- The text of a number. -/
def text : Number → String
  | integer z => toString z
  | real x => realText x

end Number

namespace Json

/-- An integer value. -/
def int (z : Int) : Json :=
  .number (.integer z)

/-- The object of a list of pairs; of two values of one key the later counts. -/
def ofFields (pairs : List (String × Json)) : Json :=
  .object (pairs.foldl (fun fields pair => insertEntry pair.1 pair.2 fields) [])

/-- The object of a dictionary. -/
def ofDict (d : Dict Json) : Json :=
  .object d.entries

/-- The field of an object. -/
def field? : Json → String → Option Json
  | object fields, key => fields.lookup key
  | _, _ => none

/-- The text of a string value. -/
def string? : Json → Option String
  | string s => some s
  | _ => none

/-- The value of an integer. -/
def int? : Json → Option Int
  | number (.integer z) => some z
  | _ => none

/-- The value of a boolean. -/
def bool? : Json → Option Bool
  | bool b => some b
  | _ => none

/-- The elements of an array. -/
def array? : Json → Option (List Json)
  | array elements => some elements
  | _ => none

/-- The fields of an object. -/
def object? : Json → Option (List (String × Json))
  | object fields => some fields
  | _ => none

/-- Whether a value is null. -/
def isNull : Json → Bool
  | null => true
  | _ => false

mutual

/-- Equality of values up to the sign of zero. -/
def same : Json → Json → Bool
  | null, null => true
  | bool a, bool b => a == b
  | number a, number b => a.same b
  | string a, string b => a == b
  | array as, array bs => sameElements as bs
  | object as, object bs => sameFields as bs
  | _, _ => false

/-- Equality of elements, one by one. -/
def sameElements : List Json → List Json → Bool
  | [], [] => true
  | a :: as, b :: bs => a.same b && sameElements as bs
  | _, _ => false

/-- Equality of fields, one by one. -/
def sameFields : List (String × Json) → List (String × Json) → Bool
  | [], [] => true
  | (k, a) :: as, (l, b) :: bs => k == l && a.same b && sameFields as bs
  | _, _ => false

end

mutual

private def decEq : (a b : Json) → Decidable (a = b)
  | .null, .null => isTrue rfl
  | .bool a, .bool b => decidable_of_iff (a = b) (by simp)
  | .number a, .number b => decidable_of_iff (a = b) (by simp)
  | .string a, .string b => decidable_of_iff (a = b) (by simp)
  | .array as, .array bs =>
      have := decEqElements as bs
      decidable_of_iff (as = bs) (by simp)
  | .object as, .object bs =>
      have := decEqFields as bs
      decidable_of_iff (as = bs) (by simp)
  | .null, .bool _ | .null, .number _ | .null, .string _ | .null, .array _
  | .null, .object _ | .bool _, .null | .bool _, .number _ | .bool _, .string _
  | .bool _, .array _ | .bool _, .object _ | .number _, .null | .number _, .bool _
  | .number _, .string _ | .number _, .array _ | .number _, .object _
  | .string _, .null | .string _, .bool _ | .string _, .number _
  | .string _, .array _ | .string _, .object _ | .array _, .null
  | .array _, .bool _ | .array _, .number _ | .array _, .string _
  | .array _, .object _ | .object _, .null | .object _, .bool _
  | .object _, .number _ | .object _, .string _ | .object _, .array _ =>
      isFalse (by simp)

private def decEqElements : (as bs : List Json) → Decidable (as = bs)
  | [], [] => isTrue rfl
  | a :: as, b :: bs =>
      have := decEq a b
      have := decEqElements as bs
      decidable_of_iff (a = b ∧ as = bs) (by simp)
  | [], _ :: _ | _ :: _, [] => isFalse (by simp)

private def decEqFields : (as bs : List (String × Json)) → Decidable (as = bs)
  | [], [] => isTrue rfl
  | (k, a) :: as, (l, b) :: bs =>
      have := decEq a b
      have := decEqFields as bs
      decidable_of_iff (k = l ∧ a = b ∧ as = bs) (by simp [and_assoc])
  | [], _ :: _ | _ :: _, [] => isFalse (by simp)

end

instance : DecidableEq Json := decEq

end Json

end Courier
