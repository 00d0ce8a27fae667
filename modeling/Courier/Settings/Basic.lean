import Courier.Dict
import Courier.Log

/-!
# Settings

The settings of the library: how it logs, what its buses do by default, and
how the links and mails of notifications are made.
-/

namespace Courier

/-- How a line of the log is laid out. -/
inductive LogFormat where
  | compact
  | full
  | pretty
  | json
deriving DecidableEq, Repr, Inhabited

/-- Where the log goes. -/
inductive LogOutput where
  | stdout
  | stderr
  | file
deriving DecidableEq, Repr, Inhabited

namespace LogFormat

def all : List LogFormat :=
  [compact, full, pretty, json]

/-- The name in configurations. -/
def name : LogFormat → String
  | compact => "compact"
  | full => "full"
  | pretty => "pretty"
  | json => "json"

/-- The format of a name. -/
def ofName? (name : String) : Option LogFormat :=
  all.find? fun format => format.name == name

end LogFormat

namespace LogOutput

def all : List LogOutput :=
  [stdout, stderr, file]

/-- The name in configurations. -/
def name : LogOutput → String
  | stdout => "stdout"
  | stderr => "stderr"
  | file => "file"

/-- The output of a name. -/
def ofName? (name : String) : Option LogOutput :=
  all.find? fun output => output.name == name

end LogOutput

/-- Which events in the life of a span are logged. -/
structure SpanEvents where
  new : Bool := false
  enter : Bool := false
  exit : Bool := false
  close : Bool := false
deriving DecidableEq, Repr, Inhabited

/-- How the library logs. -/
structure LoggingSettings where
  level : Level := .info
  format : LogFormat := .compact
  output : LogOutput := .stdout
  /-- Levels of single targets. -/
  filters : Dict Level := .empty
  spanEvents : SpanEvents := {}
  threadIds : Bool := false
  fileLocation : Bool := false
  filePath : Option String := none
deriving DecidableEq, Inhabited

/-- What buses do by default. -/
structure BusSettings where
  /-- The fields that are masked in the audit log. -/
  redactedFields : List String := ["password", "token"]
  /-- Whether there is an audit log. -/
  auditLog : Bool := true
deriving DecidableEq, Repr, Inhabited

/-- How notifications are made. -/
structure NotificationSettings where
  /-- Whether mail is sent. -/
  emailEnabled : Bool := false
  webProtocol : String := "https"
  baseDomain : String := "localhost"
deriving DecidableEq, Repr, Inhabited

/-- All settings. -/
structure Settings where
  logging : LoggingSettings := {}
  bus : BusSettings := {}
  notifications : NotificationSettings := {}
deriving DecidableEq, Inhabited

/-- The address of a path on the web site; slashes in front of the path do not
count. -/
def NotificationSettings.link (n : NotificationSettings) (path : String) : String :=
  n.webProtocol ++ "://" ++ n.baseDomain ++ "/" ++
    String.ofList (path.toList.dropWhile fun c => c == '/')

end Courier
