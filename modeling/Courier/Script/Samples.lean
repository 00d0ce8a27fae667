import Courier.Catalogue
import Courier.Json.Access

/-!
# Sample messages

Event and command types of every shape that messages can have, for trying out
buses and codecs: records with defaults, strict records, tuples, variants, types
that share a name, and one that cannot always be serialized.
-/

namespace Courier.Samples

/-- The type of a sample: `struct` tells it from all others, and it travels under
`name`. -/
def typeOf (struct name : String) : MessageType :=
  ⟨"driver::types::" ++ struct, name⟩

/-- A number and a tag, both of which may be left out. -/
def numbered : List (String × Presence × Shape) :=
  [("n", .defaulted (.int 0), .i64), ("tag", .defaulted (.string ""), .string)]

/-- An event with named fields. -/
def record (struct name : String) (fields : List (String × Presence × Shape)) : EventFormat :=
  { type := typeOf struct name, shape := .record struct false fields }

/-- An event with a number and a tag. -/
def numberedEvent (struct name : String) : EventFormat :=
  record struct name numbered

/-- A command with a number and a tag. -/
def numberedCommand (struct name : String) : CommandFormat :=
  ⟨typeOf struct name, .record struct false numbered⟩

def some : EventFormat :=
  record "SomeEvent" "SomeEvent"
    [("id", .required, .string), ("value", .required, .u32), ("random_value", .required, .real)]

def another : EventFormat :=
  record "AnotherEvent" "AnotherEvent"
    [("id", .required, .string), ("value", .required, .u32),
     ("flag", .defaulted (.bool false), .bool)]

/-- Refuses fields that it does not know. -/
def strict : EventFormat where
  type := typeOf "Strict" "Strict"
  shape := .record "Strict" true
    [("id", .required, .string), ("note", .nullable, .optional .string)]

/-- Has a field of every simple kind. -/
def typed : EventFormat :=
  record "Typed" "Typed"
    [("a", .required, .u8), ("b", .required, .i16), ("c", .required, .u64),
     ("d", .nullable, .optional .i64), ("e", .required, .list .u32),
     ("f", .required, .dict .bool), ("g", .required, .character)]

/-- Carries nothing. -/
def tick : EventFormat where
  type := typeOf "Tick" "Tick"
  shape := .unitRecord "Tick"

/-- Is a string. -/
def wrapper : EventFormat where
  type := typeOf "Wrapper" "Wrapper"
  shape := .string

def pair : EventFormat where
  type := typeOf "Pair" "Pair"
  shape := .tuple "Pair" [.i64, .string]

/-- Is one of three cases. -/
def shape : EventFormat where
  type := typeOf "Shape" "shape"
  shape := .variants "Shape"
    [("Empty", .bare, .unit), ("Square", .wrapped, .u8),
     ("Rect", .record, .record "Shape::Rect" false
       [("w", .required, .u8), ("h", .required, .u8)])]

/-- Why an event with a negative number has no serialized form. -/
def refusesNegative (body : Json) : Option String :=
  match body.intAt? "n" with
  | .some n => if n < 0 then .some ("negative n: " ++ toString n) else none
  | none => none

/-- Cannot be serialized if its number is negative. -/
def broken : EventFormat :=
  { record "Broken" "Broken"
      [("n", .required, .i64), ("token", .required, .any), ("id", .required, .any),
       ("user_id", .required, .any)] with
    obstacle := refusesNegative }

/-- The events of the samples and of the catalogue. -/
def events : List (String × EventFormat) :=
  (["Alpha", "Beta", "Gamma"].map fun name => (name, numberedEvent name name)) ++
  [("Renamed", numberedEvent "Renamed" "notes.created"),
   ("DupOne", numberedEvent "DupOne" "dup"), ("DupTwo", numberedEvent "DupTwo" "dup"),
   ("Tick", tick), ("SomeEvent", some), ("AnotherEvent", another), ("Strict", strict),
   ("Typed", typed), ("Wrapper", wrapper), ("Pair", pair), ("Shape", shape),
   ("Broken", broken)] ++
  Catalogue.formats.map fun f => (f.type.name, f)

/-- The commands of the samples. -/
def commands : List (String × CommandFormat) :=
  [("Create", numberedCommand "Create" "Create"), ("Remove", numberedCommand "Remove" "Remove"),
   ("RenameFolder", numberedCommand "RenameFolder" "folders.rename"),
   ("AlphaCommand", numberedCommand "AlphaCommand" "Alpha"),
   ("Publish", ⟨typeOf "Publish" "Publish", .unitRecord "Publish"⟩)]

/-- The event type that is called by a word. -/
def event? (word : String) : Option EventFormat :=
  events.lookup word

/-- The command type that is called by a word. -/
def command? (word : String) : Option CommandFormat :=
  commands.lookup word

/-- The type of the events that are called by a word. -/
def eventType (word : String) : MessageType :=
  ((event? word).map (·.type)).getD default

/-- The type of the commands that are called by a word. -/
def commandType (word : String) : MessageType :=
  ((command? word).map (·.type)).getD default

/-- The body of a message in a document; where a type has no fields they do not
count, and elsewhere they may be left out. -/
def body (shape : Shape) (fields : Option Json) : Json :=
  match shape, fields with
  | .unitRecord _, _ => .null
  | _, .some a => a
  | _, none => .object []

/-- The event of a type with given fields. -/
def makeEvent (word : String) (fields : Option Json) : Except String Event :=
  match event? word with
  | none => .error ("event type " ++ word)
  | .some f => (f.read (body f.shape fields)).mapError fun r => r.cause.message

/-- The command of a type with given fields. -/
def makeCommand (word : String) (fields : Option Json) : Except String Command :=
  match command? word with
  | none => .error ("command type " ++ word)
  | .some f => (f.read (body f.shape fields)).mapError fun r => r.cause.message

/-- The message of the type that a document names, with given fields. -/
def make (a : Json) (fields : Option Json) : Except String Message :=
  match a.textAt? "event", a.textAt? "command" with
  | .some word, _ => (makeEvent word fields).map .event
  | none, .some word => (makeCommand word fields).map .command
  | none, none => .error "message"

/-- The message that a document describes. -/
def read (a : Json) : Except String Message :=
  make a (a.field? "fields")

/-- The event that a document describes. -/
def readEvent (a : Json) : Except String Event := do
  match ← read a with
  | .event e => return e
  | .command _ => throw "event"

end Courier.Samples
