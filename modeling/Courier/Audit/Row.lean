import Courier.Audit.Instant
import Courier.Audit.Uuid
import Courier.Codec.Redaction
import Courier.Error
import Courier.Extra
import Courier.Message

/-!
# Audit rows

A row of the audit log tells which event happened, with the secret fields of its
payload masked, who caused it and what it is about.  Both are taken from the
masked payload unless the call says otherwise, so that a masked field does not
come back through them.
-/

namespace Courier

/-- What tells a row from all others. -/
structure Stamp where
  id : Uuid
  recordedAt : Instant
deriving DecidableEq, Repr, Inhabited

/-- A row of the audit log. -/
structure Row where
  stamp : Stamp
  userId : Option String
  objectId : Option String
  eventType : String
  event : Json
  info : Option Json
deriving DecidableEq, Inhabited

namespace Row

/-- The number of a row. -/
def id (r : Row) : Uuid :=
  r.stamp.id

/-- A field of a payload as text; null counts as absent. -/
def textField? (payload : Json) (key : String) : Option String :=
  ((payload.field? key).filter fun a => !a.isNull).map Extra.textOf

/-- The row of an event, unless it has no serialized form. -/
def record (stamp : Stamp) (e : Event) (redacted : List String) : Except CodecError Row :=
  match e.payload with
  | .error reason => .error (.serialize e.name reason)
  | .ok payload =>
      let masked := Redaction.apply redacted payload
      .ok
        { stamp
          userId := textField? masked "user_id"
          objectId := textField? masked "id"
          eventType := e.name
          event := masked
          info := none }

/-- The row with other information. -/
def withInfo (r : Row) (info : Json) : Row :=
  { r with info := some info }

/-- The row with what the data of the call says about it. -/
def withExtra (r : Row) (x : Extra) : Row :=
  { r with
    userId := (x.getText? "user_id").or r.userId
    objectId := (x.getText? "object_id").or r.objectId
    info := (x.get? "meta").or r.info }

/-- The shape of a row in a document. -/
def shape : Shape :=
  .record "EventLog" false
    [("id", .required, .string), ("user_id", .nullable, .optional .string),
     ("object_id", .nullable, .optional .string), ("event_type", .required, .string),
     ("event", .required, .any), ("info", .nullable, .optional .any),
     ("recorded_at", .required, .string)]

/-- What a row says, without number and time. -/
def contents (r : Row) : List (String × Json) :=
  let text (t : Option String) := (t.map Json.string).getD .null
  [("event", r.event), ("event_type", .string r.eventType), ("info", r.info.getD .null),
   ("object_id", text r.objectId), ("user_id", text r.userId)]

/-- A row as a document. -/
def toJson (r : Row) : Json :=
  .ofFields (r.contents ++
    [("id", .string r.id.text), ("recorded_at", .string r.stamp.recordedAt.text)])

/-- The row that a document describes. -/
def ofDocument? (a : Json) : Option Row := do
  let a ← (shape.ofDocument a).toOption
  let text? (key : String) := (a.field? key).bind Json.string?
  let id ← (text? "id").bind Uuid.ofText?
  let recordedAt ← (text? "recorded_at").bind Instant.ofText?
  return {
    stamp := ⟨id, recordedAt⟩
    userId := text? "user_id"
    objectId := text? "object_id"
    eventType := (text? "event_type").getD ""
    event := (a.field? "event").getD .null
    info := (a.field? "info").filter fun info => !info.isNull }

end Row

end Courier
