import Courier.Files.Path
import Courier.Log.Filter
import Courier.Settings.Basic
import Courier.Text.Quoted

/-!
# Setting up the log

How the log is to be installed: what is shown, how, and where.  A setup is made
from settings or step by step.
-/

namespace Courier

/-- How the log is to be installed. -/
structure LogSetup where
  level : Level := .info
  /-- Directives as text, which may be malformed. -/
  directives : List String := []
  spanEvents : SpanEvents := {}
  format : LogFormat := .compact
  output : LogOutput := .stdout
  filePath : Option String := none
  showsTarget : Bool := true
  showsThreadIds : Bool := false
  showsLocation : Bool := false
deriving DecidableEq, Inhabited

/-- Where the lines of the log go. -/
inductive LogDestination where
  | stdout
  | stderr
  | file (directory name : String)
deriving DecidableEq, Repr, Inhabited

namespace SpanEvents

/-- The beginning and the end of each span. -/
def lifecycle : SpanEvents :=
  { new := true, close := true }

/-- All events. -/
def full : SpanEvents :=
  ⟨true, true, true, true⟩

/-- The structure of a choice of events as far as it is shown. -/
def outline (e : SpanEvents) : String :=
  let flag (b : Bool) := if b then "true" else "false"
  "SpanEvents \x7b new: " ++ flag e.new ++ ", enter: " ++ flag e.enter ++ ", exit: " ++
    flag e.exit ++ ", close: " ++ flag e.close ++ " \x7d"

end SpanEvents

namespace LogSetup

/-- The setup that settings ask for; their filters become directives in the order
of the targets. -/
def ofSettings (s : LoggingSettings) : LogSetup where
  level := s.level
  directives := s.filters.entries.map fun e => e.1 ++ "=" ++ e.2.name
  spanEvents := s.spanEvents
  format := s.format
  output := s.output
  filePath := s.filePath
  showsThreadIds := s.threadIds
  showsLocation := s.fileLocation

/-- The filter without the directives: the level, unless an environment variable
gives a well-formed filter. -/
def baseFilter (s : LogSetup) (override : Option String) : LogFilter :=
  match override.bind LogFilter.parse? with
  | some f => f
  | none => .ofList [{ ceiling := some s.level }]

/-- What is shown; malformed directives do not count. -/
def filter (s : LogSetup) (override : Option String) : LogFilter :=
  s.directives.foldl LogFilter.addText (s.baseFilter override)

/-- The name of a log file whose path does not end in one. -/
def standardName : String := "herald.log"

/-- Where the lines go; an output to a file without path falls back to the
standard output. -/
def destination (s : LogSetup) : LogDestination :=
  match s.output, s.filePath with
  | .stdout, _ => .stdout
  | .stderr, _ => .stderr
  | .file, some path =>
      .file ((Path.parent? path).getD ".") ((Path.fileName? path).getD standardName)
  | .file, none => .stdout

/-- Install a log in a process; of several only the first can be installed. -/
def install (installed : Option LogSetup) (s : LogSetup) : Except String LogSetup :=
  match installed with
  | none => .ok s
  | some _ =>
      .error "attempted to set a logger after the logging system was already initialized"

/-- Whether a line takes several lines of the output. -/
def isMultiline (s : LogSetup) : Bool :=
  s.format == .pretty

/-- Whether lines tell where in the program they come from. -/
def tellsLocation (s : LogSetup) : Bool :=
  s.showsLocation || s.format == .pretty

/-- A name with a capital letter. -/
def capital (name : String) : String :=
  match name.toList with
  | c :: rest => String.ofList (c.toUpper :: rest)
  | [] => ""

/-- The structure of a setup as far as it is shown. -/
def outline (s : LogSetup) : String :=
  let flag (b : Bool) := if b then "true" else "false"
  let path :=
    match s.filePath with
    | some path => "Some(" ++ Text.quoted path ++ ")"
    | none => "None"
  "LoggingBuilder \x7b level: Level(" ++ capital s.level.name ++ "), directives: " ++
    Text.quotedList s.directives ++ ", span_events: " ++ s.spanEvents.outline ++ ", format: " ++
    capital s.format.name ++ ", output: " ++ capital s.output.name ++ ", file_path: " ++ path ++
    ", target: " ++ flag s.showsTarget ++ ", thread_ids: " ++ flag s.showsThreadIds ++
    ", file_location: " ++ flag s.showsLocation ++ " \x7d"

end LogSetup

end Courier
