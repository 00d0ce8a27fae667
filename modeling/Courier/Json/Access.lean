import Courier.Json.Basic

/-!
# Looking into JSON objects

The field of an object as a value of a given kind.  A field that is missing, or
of another kind, counts as absent.
-/

namespace Courier.Json

/-- The field of an object, or null. -/
def fieldD (a : Json) (key : String) : Json :=
  (a.field? key).getD .null

/-- The field that is a string. -/
def textAt? (a : Json) (key : String) : Option String :=
  (a.field? key).bind string?

/-- The field that is a string, or the empty string. -/
def textAt (a : Json) (key : String) : String :=
  (a.textAt? key).getD ""

/-- The field that is an integer. -/
def intAt? (a : Json) (key : String) : Option Int :=
  (a.field? key).bind int?

/-- The field that is an integer, or zero. -/
def intAt (a : Json) (key : String) : Int :=
  (a.intAt? key).getD 0

/-- The field that is a boolean. -/
def flagAt? (a : Json) (key : String) : Option Bool :=
  (a.field? key).bind bool?

/-- The field that is a boolean, or false. -/
def flagAt (a : Json) (key : String) : Bool :=
  (a.flagAt? key).getD false

/-- The elements of the field that is an array, or none. -/
def itemsAt (a : Json) (key : String) : List Json :=
  ((a.field? key).bind array?).getD []

/-- The strings among the elements of a field. -/
def textsAt (a : Json) (key : String) : List String :=
  (a.itemsAt key).filterMap string?

/-- The fields of the field that is an object, or none. -/
def entriesAt (a : Json) (key : String) : List (String × Json) :=
  ((a.field? key).bind object?).getD []

end Courier.Json
