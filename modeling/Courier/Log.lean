/-!
# Log lines

What the library reports about its work: notes at a level, and the opening of
spans.  A line has named fields, all as text; `message` is one of them.
-/

namespace Courier

/-- How important a line is. -/
inductive Level where
  | trace
  | debug
  | info
  | warn
  | error
deriving DecidableEq, Repr, Inhabited

namespace Level

/-- The levels in increasing order. -/
def all : List Level :=
  [trace, debug, info, warn, error]

/-- The place in that order. -/
def rank : Level → Nat
  | trace => 0
  | debug => 1
  | info => 2
  | warn => 3
  | error => 4

/-- The name in configurations. -/
def name : Level → String
  | trace => "trace"
  | debug => "debug"
  | info => "info"
  | warn => "warn"
  | error => "error"

/-- The name in log lines. -/
def label : Level → String
  | trace => "TRACE"
  | debug => "DEBUG"
  | info => "INFO"
  | warn => "WARN"
  | error => "ERROR"

/-- The level of a name. -/
def ofName? (name : String) : Option Level :=
  all.find? fun level => level.name == name

end Level

/-- The least important level that is shown, if any is. -/
abbrev Ceiling : Type := Option Level

namespace Ceiling

/-- Whether lines of a level are shown. -/
def admits (ceiling : Ceiling) (level : Level) : Bool :=
  match ceiling with
  | some least => least.rank ≤ level.rank
  | none => false

/-- The ceiling that shows what one of two shows. -/
def wider : Ceiling → Ceiling → Ceiling
  | some a, some b => if a.rank ≤ b.rank then some a else some b
  | some a, none => some a
  | none, b => b

end Ceiling

/-- A line of the log. -/
structure LogLine where
  level : Level
  /-- The name of the span that is opened, if it is one. -/
  span : Option String := none
  fields : List (String × String)
deriving DecidableEq, Repr, Inhabited

namespace LogLine

/-- A note with its fields. -/
def note (level : Level) (message : String) (fields : List (String × String)) : LogLine where
  level := level
  fields := ("message", message) :: fields

/-- The opening of a span. -/
def opened (span : String) (fields : List (String × String)) : LogLine where
  level := .debug
  span := some span
  fields := fields

end LogLine

end Courier
