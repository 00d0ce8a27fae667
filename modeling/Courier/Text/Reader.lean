/-!
# Readers of text

A reader takes a value off the front of its input, or fails.
-/

namespace Courier.Text

/-- Takes a value off the front of the input. -/
abbrev Reader (α : Type) : Type :=
  List Char → Option (α × List Char)

/-- A sign, if there is one: whether it is a minus, and the rest. -/
def splitSign (s : List Char) : Bool × List Char :=
  match s with
  | '-' :: rest => (true, rest)
  | '+' :: rest => (false, rest)
  | s => (false, s)

end Courier.Text
