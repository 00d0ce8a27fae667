import Courier.Log
import Courier.Text.Digits
import Courier.Text.Pattern

/-!
# Directives of the log

A directive says how much is shown of the lines that it concerns.  It may name a
target, a span, fields of the line or the span, and a ceiling:
`app::store[query{id=7}]=debug` lets lines of all levels down to `debug` through
inside of a span `query` whose field `id` is `7`, for targets that start with
`app::store`.
-/

namespace Courier

/-- A field that a directive asks for, and maybe its value: a number or a pattern. -/
structure LogField where
  name : String
  value : Option String := none
deriving DecidableEq, Repr, Inhabited

/-- A directive for the log. -/
structure LogDirective where
  /-- The text that a target has to start with. -/
  target : Option String := none
  /-- The name that a span has to have. -/
  span : Option String := none
  fields : List LogField := []
  /-- What is shown; without a word about it, everything. -/
  ceiling : Ceiling := some .trace
deriving DecidableEq, Repr, Inhabited

namespace LogDirective

/-! ## Meaning -/

/-- What a directive is about; of two that are about the same only one counts. -/
def subject (d : LogDirective) : Option String × Option String × List LogField :=
  (d.target, d.span, d.fields)

/-- Whether a directive asks for the value of a field. -/
def asksForValue (d : LogDirective) : Bool :=
  d.fields.any fun f => f.value.isSome

/-- Whether a directive can decide about a line by the line alone. -/
def isGeneral (d : LogDirective) : Bool :=
  d.span.isNone && !d.asksForValue

/-- Whether a directive is about the lines inside of spans. -/
def isSpanwise (d : LogDirective) : Bool :=
  d.span.isSome || !d.fields.isEmpty

/-- Whether a target starts as it has to. -/
def coversTarget (d : LogDirective) (target : String) : Bool :=
  match d.target with
  | some start => start.toList.isPrefixOf target.toList
  | none => true

/-- Whether a line has all fields that are asked for, whatever their values. -/
def coversFields (d : LogDirective) (line : LogLine) : Bool :=
  d.fields.all fun f => line.fields.any fun e => e.1 == f.name

/-- Whether a general directive concerns a line.  The opening of a span need not have
the fields that are asked for. -/
def concernsLine (d : LogDirective) (target : String) (line : LogLine) : Bool :=
  d.coversTarget target && (line.span.isSome || d.coversFields line)

/-- Whether a spanwise directive concerns a span. -/
def concernsSpan (d : LogDirective) (target : String) (span : LogLine) : Bool :=
  d.coversTarget target && span.span.isSome && d.span.all (span.span == some ·) &&
    d.coversFields span

/-- How closely a directive describes what it concerns: by a longer target, then by
more fields; the names of the fields break the tie. -/
def isCloser (d e : LogDirective) : Bool :=
  let length (d : LogDirective) := (d.target.map fun start => start.utf8ByteSize + 1).getD 0
  let names (d : LogDirective) := d.fields.map (·.name)
  if length d ≠ length e then length e < length d
  else if d.fields.length ≠ e.fields.length then e.fields.length < d.fields.length
  else names e < names d

/-! ## Ceilings -/

/-- The ceiling that a number stands for. -/
def ceilingOfNumber? (n : Nat) : Option Ceiling :=
  if n = 0 then some none else (Level.all.reverse[n - 1]?).map some

/-- The number that digits stand for; a plus sign may stand before them. -/
def number? (text : String) : Option Nat :=
  let digits :=
    match text.toList with
    | '+' :: rest => rest
    | s => s
  if Text.isNumeral digits then some (Text.decimalNumber digits) else none

/-- The ceiling that a word stands for, in any case of its letters. -/
def ceilingOfWord? (word : String) : Option Ceiling :=
  if word = "" then some (some .error)
  else if word = "off" then some none
  else (Level.ofName? word).map some

/-- The ceiling that a number or a word stands for. -/
def ceiling? (text : String) : Option Ceiling :=
  ((number? text).bind ceilingOfNumber?).or (ceilingOfWord? text.toLower)

/-! ## Reading -/

/-- The characters of a directive without the white space around it, each with the
character that has the same place in the text as it was given.  The former tell the
parts of a directive apart; the latter make them up, so that white space in front
shifts all parts but a word alone. -/
abbrev Marks : Type := List (Char × Char)

/-- The text of a part. -/
def textOf (part : Marks) : List Char :=
  part.map (·.2)

/-- Whether a directive may start with a character, if not with a bracket. -/
def isStart (c : Char) : Bool :=
  Text.isAlphanumeric c || c == '-' || c == ':' || c == '_'

/-- A word alone: a ceiling for all targets, or else a target of which everything is
shown. -/
def ofWord (word : String) : LogDirective :=
  match ceiling? word with
  | some ceiling => { ceiling }
  | none => { target := some word }

/-- The ceiling after an equals sign: nothing stands for everything, and a comma may
come last.  What follows the directive in the text, `tail`, belongs to it. -/
def ceilingAfter? (tail : List Char) (s : Marks) : Option Ceiling :=
  let ofText? (text : List Char) :=
    if text.isEmpty then some (some .trace) else ceiling? (String.ofList text)
  match s.span fun c => c.1 != ',' with
  | (level, []) => ofText? (textOf level ++ tail)
  | (level, [_]) => ofText? (textOf level)
  | _ => none

/-- The exponent of a number. -/
def isExponent (s : List Char) : Bool :=
  match s with
  | [] => true
  | e :: rest => (e == 'e' || e == 'E') && Text.isNumeral (Text.splitSign rest).2

/-- Whether a text is a number: digits, of which some may stand after a point, and an
exponent; or a word for what is no finite number. -/
def isNumber (s : List Char) : Bool :=
  let s := (Text.splitSign s).2
  let word := String.ofList (s.map Char.toLower)
  let whole := s.takeWhile Char.isDigit
  if word = "inf" ∨ word = "infinity" ∨ word = "nan" then true
  else
    match s.dropWhile Char.isDigit with
    | '.' :: rest =>
        !(whole.isEmpty && (rest.takeWhile Char.isDigit).isEmpty) &&
          isExponent (rest.dropWhile Char.isDigit)
    | rest => !whole.isEmpty && isExponent rest

/-- A field: a name, or a name with a value after an equals sign. -/
def field? (part : Marks) : Option LogField :=
  match (textOf part).splitOn '=' with
  | [] | [[]] => none
  | [name] => some { name := String.ofList name }
  | name :: value :: _ =>
      if isNumber value || Text.Pattern.isWellFormed value then
        some { name := String.ofList name, value := some (String.ofList value) }
      else none

/-- A directive after its closing bracket: a ceiling may follow. -/
def withCeiling? (d : LogDirective) (tail : List Char) : Marks → Option LogDirective
  | [] => some d
  | c :: rest =>
      if c.1 = '=' then (ceilingAfter? tail rest).map fun ceiling => { d with ceiling }
      else none

/-- What stands between brackets, and the rest of a directive: the name of a span, or
fields between braces after a name that may be missing. -/
def ofBrackets? (target : Option String) (tail : List Char) (s : Marks) :
    Option LogDirective :=
  match s.span fun c => c.1 != ']' && c.1 != '\x7b' with
  | (_, []) => none
  | (name, c :: rest) =>
      let name := String.ofList (textOf name)
      if c.1 = ']' then withCeiling? { target, span := some name } tail rest
      else
        match rest.span fun c => c.1 != '\x7d' with
        | (parts, _ :: close :: rest) =>
            if close.1 = ']' then do
              let fields ← (parts.splitOnP fun c => c.1 == ',').mapM field?
              let span := if name = "" then none else some name
              withCeiling? { target, span, fields } tail rest
            else none
        | _ => none

/-- Read a directive. -/
def parse? (text : String) : Option LogDirective :=
  let given := text.toList
  let trimmed := Text.trimChars given
  let tail := given.drop trimmed.length
  match trimmed.zip given with
  | [] => none
  | c :: rest =>
      if c.1 = '[' then ofBrackets? none tail rest
      else if !isStart c.1 then none
      else
        match (c :: rest).span fun c => c.1 != '=' && c.1 != '[' && c.1 != ',' with
        | (_, []) => some (ofWord text)
        | (target, c :: rest) =>
            let target := some (String.ofList (textOf target))
            if c.1 = '=' then (ceilingAfter? tail rest).map fun ceiling => { target, ceiling }
            else if c.1 = '[' then ofBrackets? target tail rest
            else if rest.isEmpty then some (ofWord text)
            else none

end LogDirective

end Courier
