import Courier.Json.Access
import Courier.Settings.Basic
import Courier.Shape.Decode

/-!
# Settings as documents

The shape of the settings in a document, in which every setting may be left out,
and their way into documents and back.
-/

namespace Courier

namespace Settings

/-- One of several names. -/
def choice (name : String) (names : List String) : Shape :=
  .variants name (names.map fun n => (n, .bare, .unit))

/-- A setting that may be left out. -/
def setting (name : String) (standard : Json) (shape : Shape) : String × Presence × Shape :=
  (name, .defaulted standard, shape)

def levelShape : Shape :=
  choice "LogLevel" (Level.all.map (·.name))

def formatShape : Shape :=
  choice "LogFormat" (LogFormat.all.map (·.name))

def outputShape : Shape :=
  choice "LogOutput" (LogOutput.all.map (·.name))

end Settings

namespace SpanEvents

/-- As a document with every setting. -/
def toJson (e : SpanEvents) : Json :=
  .ofFields [("new", .bool e.new), ("enter", .bool e.enter), ("exit", .bool e.exit),
    ("close", .bool e.close)]

def shape : Shape :=
  .record "SpanEventConfig" false
    [Settings.setting "new" (.bool false) .bool, Settings.setting "enter" (.bool false) .bool,
     Settings.setting "exit" (.bool false) .bool, Settings.setting "close" (.bool false) .bool]

/-- From a document with every setting. -/
def ofNormal (a : Json) : SpanEvents :=
  ⟨a.flagAt "new", a.flagAt "enter", a.flagAt "exit", a.flagAt "close"⟩

end SpanEvents

namespace LoggingSettings

/-- As a document with every setting. -/
def toJson (s : LoggingSettings) : Json :=
  .ofFields
    [("level", .string s.level.name), ("format", .string s.format.name),
     ("output", .string s.output.name),
     ("filters", .object (s.filters.entries.map fun e => (e.1, .string e.2.name))),
     ("span_events", s.spanEvents.toJson), ("thread_ids", .bool s.threadIds),
     ("file_location", .bool s.fileLocation),
     ("file_path", (s.filePath.map Json.string).getD .null)]

def shape : Shape :=
  .record "LoggingConfig" false
    [Settings.setting "level" (.string "info") Settings.levelShape,
     Settings.setting "format" (.string "compact") Settings.formatShape,
     Settings.setting "output" (.string "stdout") Settings.outputShape,
     Settings.setting "filters" (.object []) (.dict Settings.levelShape),
     Settings.setting "span_events" (SpanEvents.toJson {}) SpanEvents.shape,
     Settings.setting "thread_ids" (.bool false) .bool,
     Settings.setting "file_location" (.bool false) .bool,
     Settings.setting "file_path" .null (.optional .path)]

/-- From a document with every setting. -/
def ofNormal (a : Json) : LoggingSettings :=
  { level := (Level.ofName? (a.textAt "level")).getD .info
    format := (LogFormat.ofName? (a.textAt "format")).getD .compact
    output := (LogOutput.ofName? (a.textAt "output")).getD .stdout
    filters := .ofList <| (a.entriesAt "filters").map fun e =>
      (e.1, (e.2.string?.bind Level.ofName?).getD .info)
    spanEvents := .ofNormal (a.fieldD "span_events")
    threadIds := a.flagAt "thread_ids"
    fileLocation := a.flagAt "file_location"
    filePath := a.textAt? "file_path" }

end LoggingSettings

namespace BusSettings

/-- As a document with every setting. -/
def toJson (s : BusSettings) : Json :=
  .ofFields
    [("redacted_fields", .array (s.redactedFields.map .string)), ("audit_log", .bool s.auditLog)]

def shape : Shape :=
  .record "BusConfig" false
    [Settings.setting "redacted_fields" (.array [.string "password", .string "token"])
      (.list .string),
     Settings.setting "audit_log" (.bool true) .bool]

/-- From a document with every setting. -/
def ofNormal (a : Json) : BusSettings where
  redactedFields := a.textsAt "redacted_fields"
  auditLog := a.flagAt "audit_log"

end BusSettings

namespace NotificationSettings

/-- As a document with every setting. -/
def toJson (s : NotificationSettings) : Json :=
  .ofFields
    [("email_enabled", .bool s.emailEnabled), ("web_protocol", .string s.webProtocol),
     ("base_domain", .string s.baseDomain)]

def shape : Shape :=
  .record "NotificationConfig" false
    [Settings.setting "email_enabled" (.bool false) .bool,
     Settings.setting "web_protocol" (.string "https") .string,
     Settings.setting "base_domain" (.string "localhost") .string]

/-- From a document with every setting. -/
def ofNormal (a : Json) : NotificationSettings where
  emailEnabled := a.flagAt "email_enabled"
  webProtocol := a.textAt "web_protocol"
  baseDomain := a.textAt "base_domain"

end NotificationSettings

namespace Settings

/-- As a document with every setting. -/
def toJson (s : Settings) : Json :=
  .ofFields
    [("logging", s.logging.toJson), ("bus", s.bus.toJson),
     ("notifications", s.notifications.toJson)]

def shape : Shape :=
  .record "HeraldConfig" false
    [setting "logging" (LoggingSettings.toJson {}) LoggingSettings.shape,
     setting "bus" (BusSettings.toJson {}) BusSettings.shape,
     setting "notifications" (NotificationSettings.toJson {}) NotificationSettings.shape]

/-- From a document with every setting. -/
def ofNormal (a : Json) : Settings where
  logging := .ofNormal (a.fieldD "logging")
  bus := .ofNormal (a.fieldD "bus")
  notifications := .ofNormal (a.fieldD "notifications")

/-- The settings that a document describes. -/
def ofDocument (dialect : Dialect) (a : Json) : Except Refusal Settings :=
  (shape.decode dialect a).map ofNormal

end Settings

end Courier
