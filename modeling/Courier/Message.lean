import Courier.Shape.Decode

/-!
# Messages

A message is an event, which has happened and may interest any number of
handlers, or a command, which asks one handler to act.  Messages are told
apart by their type; two types may share the name that they travel under.
-/

namespace Courier

/-- The type of a message.  A type declares its name, and each of its events gives a name
as well.  Where both are derived from the declaration of the type, as they are meant to
be, they are the same, and so there is one name here. -/
structure MessageType where
  /-- The full name, which tells the type from all others. -/
  path : String
  /-- The name that messages of the type travel under. -/
  name : String
deriving DecidableEq, Repr, Inhabited

/-- An event with its serialized form, or the reason why it has none. -/
structure Event where
  type : MessageType
  payload : Except String Json

/-- A command with its parameters. -/
structure Command where
  type : MessageType
  parameters : Json
deriving DecidableEq, Inhabited

/-- The two kinds of message. -/
inductive MessageKind where
  | event
  | command
deriving DecidableEq, Repr, Inhabited

/-- A message. -/
inductive Message where
  | event (e : Event)
  | command (c : Command)

namespace Event

/-- The name that the event travels under. -/
def name (e : Event) : String :=
  e.type.name

/-- Whether two events have the same name and the same serialized form. -/
def same (a b : Event) : Bool :=
  a.name == b.name &&
    match a.payload, b.payload with
    | .ok a, .ok b => a.same b
    | .error a, .error b => a == b
    | _, _ => false

/-- The field of a payload that is an object. -/
def field? (e : Event) (key : String) : Option Json :=
  e.payload.toOption.bind fun a => a.field? key

end Event

namespace Message

/-- The type of a message. -/
def type : Message → MessageType
  | event e => e.type
  | command c => c.type

/-- The name that a message travels under. -/
def name (m : Message) : String :=
  m.type.name

/-- The kind of a message. -/
def kind : Message → MessageKind
  | event _ => .event
  | command _ => .command

/-- The event, if the message is one. -/
def event? : Message → Option Event
  | event e => some e
  | command _ => none

/-- The command, if the message is one. -/
def command? : Message → Option Command
  | event _ => none
  | command c => some c

/-- What the message carries, as far as it can be serialized. -/
def body? : Message → Option Json
  | event e => e.payload.toOption
  | command c => some c.parameters

/-- The word for the kind of a message. -/
def kindText : MessageKind → String
  | .event => "event"
  | .command => "command"

/-- The kind and the name of a message. -/
def label (m : Message) : String :=
  kindText m.kind ++ " '" ++ m.name ++ "'"

/-- The structure of a message as far as it is shown. -/
def outline : Message → String
  | event e => "Event(BoxedEvent \x7b name: " ++ Text.quoted e.name ++ ", .. \x7d)"
  | command c => "Command(BoxedCommand \x7b name: " ++ Text.quoted c.type.name ++ ", .. \x7d)"

end Message

/-- How the events of one type are written and read. -/
structure EventFormat where
  type : MessageType
  shape : Shape
  /-- Why an event with a given body has no serialized form, if it has none. -/
  obstacle : Json → Option String := fun _ => none

namespace EventFormat

/-- The event with a given body. -/
def event (f : EventFormat) (body : Json) : Event where
  type := f.type
  payload :=
    match f.obstacle body with
    | some reason => .error reason
    | none => .ok body

/-- Read an event from a payload. -/
def read (f : EventFormat) (payload : Json) : Except Refusal Event :=
  (f.shape.ofDocument payload).map f.event

end EventFormat

/-- How the commands of one type are read. -/
structure CommandFormat where
  type : MessageType
  shape : Shape

/-- Read a command from its parameters. -/
def CommandFormat.read (f : CommandFormat) (parameters : Json) : Except Refusal Command :=
  (f.shape.ofDocument parameters).map fun a => ⟨f.type, a⟩

end Courier
