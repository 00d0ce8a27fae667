import Courier.Json.Basic
import Courier.Text.Quoted

/-!
# Shapes of data

A shape says which JSON values describe a value of some type and what the
value looks like when it is written again: records with named fields, tuples,
variants, lists, numbers of a certain range and so on.

A value that does not fit is refused for one cause at one place; the wording of
a cause is a function of its own.
-/

namespace Courier

/-- What a field needs to be in a record. -/
inductive Presence where
  /-- The field has to be there. -/
  | required
  /-- A field that is not there counts as null. -/
  | nullable
  /-- A field that is not there has a default. -/
  | defaulted (value : Json)
deriving Repr, Inhabited

/-- What a variant holds. -/
inductive VariantKind where
  | bare
  | wrapped
  | record
deriving DecidableEq, Repr, Inhabited

/-- A description of data. -/
inductive Shape where
  /-- Any value, kept as it is. -/
  | any
  /-- Null. -/
  | unit
  | bool
  | string
  /-- A string of one character. -/
  | character
  /-- The name of a file. -/
  | path
  /-- An integer from `low` to `high`. -/
  | integer (name : String) (low high : Int)
  /-- A binary floating-point number. -/
  | real
  | list (item : Shape)
  /-- An object whose keys are free. -/
  | dict (item : Shape)
  /-- Null or a value. -/
  | optional (inner : Shape)
  /-- Named fields; a strict record has no others. -/
  | record (name : String) (strict : Bool) (fields : List (String × Presence × Shape))
  /-- A record without fields, written as null. -/
  | unitRecord (name : String)
  /-- A fixed number of values. -/
  | tuple (name : String) (items : List Shape)
  /-- One of several named cases. -/
  | variants (name : String) (cases : List (String × VariantKind × Shape))
deriving Repr, Inhabited

namespace Shape

/-- An integer of eight bits without sign. -/
def u8 : Shape := .integer "u8" 0 255

/-- An integer of thirty-two bits without sign. -/
def u32 : Shape := .integer "u32" 0 4294967295

/-- An integer of sixty-four bits without sign. -/
def u64 : Shape := .integer "u64" 0 18446744073709551615

/-- An integer of sixteen bits with sign. -/
def i16 : Shape := .integer "i16" (-32768) 32767

/-- An integer of sixty-four bits with sign. -/
def i64 : Shape := .integer "i64" (-9223372036854775808) 9223372036854775807

end Shape

/-- Why data is refused. -/
inductive Cause where
  /-- A value of another kind than expected. -/
  | invalidType (found : Json) (expected : String)
  /-- A value of the right kind that is not allowed. -/
  | invalidValue (found : Json) (expected : String)
  /-- The bare name of a variant that holds something. -/
  | bareVariant (expected : String)
  | missingField (name : String)
  | unknownField (name : String) (known : List String)
  /-- A name that is no variant of a type; it may be the key of an object. -/
  | unknownVariant (type name : String) (isKey : Bool) (known : List String)
  | invalidLength (length : Nat) (expected : String)
deriving Repr, Inhabited

/-- A cause and the keys that lead to the value in question. -/
structure Refusal where
  path : List String := []
  cause : Cause
deriving Repr, Inhabited

namespace Refusal

/-- The same refusal seen from the value that holds the refused one under
`key`. -/
def within (key : String) (r : Refusal) : Refusal :=
  { r with path := key :: r.path }

end Refusal

namespace Cause

/-- A name between backticks. -/
def ticked (name : String) : String :=
  "`" ++ name ++ "`"

/-- The alternatives for a name: one, one of two, or one of several. -/
def alternatives (names : List String) : String :=
  match names with
  | [] => "there are no"
  | [a] => ticked a
  | [a, b] => ticked a ++ " or " ++ ticked b
  | names => "one of " ++ ", ".intercalate (names.map ticked)

/-- What a value is, in a message about it. -/
def describe : Json → String
  | .null => "null"
  | .bool b => "boolean " ++ ticked (if b then "true" else "false")
  | .number (.integer z) => "integer " ++ ticked (toString z)
  | .number (.real x) => "floating point " ++ ticked (Number.realText x)
  | .string s => "string " ++ Text.quoted s
  | .array _ => "sequence"
  | .object _ => "map"

/-- The message for a cause. -/
def message : Cause → String
  | invalidType found expected =>
      "invalid type: " ++ describe found ++ ", expected " ++ expected
  | invalidValue found expected =>
      "invalid value: " ++ describe found ++ ", expected " ++ expected
  | bareVariant expected => "invalid type: unit variant, expected " ++ expected
  | missingField name => "missing field " ++ ticked name
  | unknownField name known =>
      "unknown field " ++ ticked name ++ ", expected " ++ alternatives known
  | unknownVariant _ name _ known =>
      "unknown variant " ++ ticked name ++ ", expected " ++ alternatives known
  | invalidLength length expected =>
      "invalid length " ++ toString length ++ ", expected " ++ expected

end Cause

end Courier
