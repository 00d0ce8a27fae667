import Courier.Json.Basic

/-!
# Redaction

Secret fields of a payload are masked before the payload is kept.  Only the
top-level fields of an object are looked at.
-/

namespace Courier.Redaction

/-- What stands in the place of a secret value. -/
def mask : Json :=
  .string "*******"

/-- Mask one field if it is named. -/
def maskField (names : List String) (field : String × Json) : String × Json :=
  if field.1 ∈ names then (field.1, mask) else field

/-- The payload with the named fields masked. -/
def apply (names : List String) : Json → Json
  | .object fields => .object (fields.map (maskField names))
  | a => a

/-- How many of the names, repeats included, are keys of the payload. -/
def count (names : List String) : Json → Nat
  | .object fields => names.countP fun name => (fields.lookup name).isSome
  | _ => 0

end Courier.Redaction
