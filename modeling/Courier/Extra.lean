import Courier.Json.Printer

/-!
# Call data

The extra data of one call on a bus: JSON values by key, the same for every
handler of the call.  A key that holds null counts as absent when it is asked
for, but it still is a key.
-/

namespace Courier

/-- The data that travels with one call. -/
structure Extra where
  values : Dict Json := .empty
deriving DecidableEq, Inhabited

namespace Extra

/-- No data. -/
def empty : Extra := ⟨.empty⟩

instance : EmptyCollection Extra := ⟨empty⟩

/-- Put a value under a key. -/
def insert (x : Extra) (key : String) (value : Json) : Extra :=
  ⟨x.values.insert key value⟩

/-- The value under a key, null included. -/
def entry? (x : Extra) (key : String) : Option Json :=
  x.values.get? key

/-- The value under a key, unless it is null. -/
def get? (x : Extra) (key : String) : Option Json :=
  (x.entry? key).filter fun a => !a.isNull

/-- Whether a key has a value other than null. -/
def contains (x : Extra) (key : String) : Bool :=
  (x.get? key).isSome

/-- A value as text: strings as they are, everything else as JSON. -/
def textOf : Json → String
  | .string s => s
  | a => a.text

/-- The value under a key as text. -/
def getText? (x : Extra) (key : String) : Option String :=
  (x.get? key).map textOf

/-- The number of keys. -/
def size (x : Extra) : Nat :=
  x.values.size

/-- The keys in order. -/
def keys (x : Extra) : List String :=
  x.values.keys

/-- The data of a list of pairs; of two values of one key the later counts. -/
def ofList (pairs : List (String × Json)) : Extra :=
  ⟨.ofList pairs⟩

/-- The data of a JSON object; any other value holds none. -/
def ofJson (a : Json) : Extra :=
  .ofList (a.object?.getD [])

/-- The data as a JSON object. -/
def toJson (x : Extra) : Json :=
  .ofDict x.values

/-- Equality of all values; the two zeros are one number. -/
def same (x y : Extra) : Bool :=
  x.toJson.same y.toJson

end Extra

end Courier
