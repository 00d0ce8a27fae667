import Courier.Log.Directive

/-!
# Filters of the log

A filter decides which lines of the log are shown.  Of its general directives the
one that describes a line most closely decides; where there is none, the line is not
shown.  A spanwise directive shows the spans that it concerns, and inside of them all
lines under its ceiling.
-/

namespace Courier

/-- Directives that are about different things. -/
structure LogRules where
  directives : List LogDirective := []
  /-- The widest ceiling of all directives that have been added, also of those that
  have been replaced. -/
  peak : Ceiling := none
deriving DecidableEq, Repr, Inhabited

namespace LogRules

/-- Add a directive, in the place of one about the same. -/
def add (rules : LogRules) (d : LogDirective) : LogRules where
  directives := d :: rules.directives.filter fun e => e.subject ≠ d.subject
  peak := rules.peak.wider d.ceiling

/-- The rules of some directives, of which later ones replace earlier ones. -/
def ofList (directives : List LogDirective) : LogRules :=
  directives.foldl add {}

end LogRules

/-- Which lines of the log are shown. -/
structure LogFilter where
  /-- What is shown everywhere. -/
  general : LogRules := {}
  /-- What is shown inside of spans. -/
  spanwise : LogRules := {}
deriving DecidableEq, Repr, Inhabited

namespace LogFilter

/-! ## Building -/

/-- Add a directive: to the general ones, if it can be one of them. -/
def add (f : LogFilter) (d : LogDirective) : LogFilter :=
  if d.isGeneral then { f with general := f.general.add d }
  else { f with spanwise := f.spanwise.add d }

/-- Add a directive, unless it is malformed. -/
def addText (f : LogFilter) (text : String) : LogFilter :=
  match LogDirective.parse? text with
  | some d => f.add d
  | none => f

/-- The filter of some directives.  One that asks for fields without values is both
general and spanwise. -/
def ofList (directives : List LogDirective) : LogFilter where
  general := .ofList (directives.filter (·.isGeneral))
  spanwise := .ofList (directives.filter (·.isSpanwise))

/-- Read directives between commas; all of them have to be well-formed. -/
def parse? (text : String) : Option LogFilter :=
  (((text.splitOn ",").filter fun part => part ≠ "").mapM LogDirective.parse?).map ofList

/-! ## Deciding -/

/-- The closer one of two directives. -/
def closer (best : Option LogDirective) (d : LogDirective) : Option LogDirective :=
  match best with
  | some b => if d.isCloser b then some d else some b
  | none => some d

/-- The general directive that decides about a line. -/
def decisive? (f : LogFilter) (target : String) (line : LogLine) : Option LogDirective :=
  (f.general.directives.filter fun d => d.concernsLine target line).foldl closer none

/-- Whether the general directives show a line. -/
def passes (f : LogFilter) (target : String) (line : LogLine) : Bool :=
  match f.decisive? target line with
  | some d => d.ceiling.admits line.level
  | none => false

/-- The ceiling of the whole filter: everything, if a directive asks for a value, which
can only be known when a span is there. -/
def peak (f : LogFilter) : Ceiling :=
  if f.spanwise.directives.any (·.asksForValue) then some .trace
  else f.general.peak.wider f.spanwise.peak

/-- The spanwise directives that concern a span. -/
def followers (f : LogFilter) (target : String) (span : LogLine) : List LogDirective :=
  if f.peak.admits span.level then
    f.spanwise.directives.filter fun d => d.concernsSpan target span
  else []

/-- The ceiling for the lines inside of a span.  Values are not compared with patterns:
a directive that asks for one shows the span, and nothing inside of it. -/
def ceilingInside (f : LogFilter) (target : String) (span : LogLine) : Ceiling :=
  ((f.followers target span).filter fun d => !d.asksForValue).foldl
    (fun ceiling d => ceiling.wider d.ceiling) none

/-- Whether a line is shown inside of some spans, each with its target. -/
def shows (f : LogFilter) (around : List (String × LogLine)) (target : String)
    (line : LogLine) : Bool :=
  f.passes target line || !(f.followers target line).isEmpty ||
    around.any fun span => (f.ceilingInside span.1 span.2).admits line.level

end LogFilter

end Courier
