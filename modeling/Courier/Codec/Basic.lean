import Courier.Codec.Envelope

/-!
# The codec

A codec knows formats by the names of their event types; of two formats
registered under one name the later counts.
-/

namespace Courier

/-- The formats of events by name. -/
structure Codec where
  formats : Dict EventFormat := .empty
deriving Inhabited

namespace Codec

/-- Let the codec read events of one more format. -/
def register (c : Codec) (f : EventFormat) : Codec :=
  ⟨c.formats.insert f.type.name f⟩

/-- The codec of a list of formats, registered in order. -/
def ofList (formats : List EventFormat) : Codec :=
  formats.foldl register ⟨.empty⟩

/-- Whether events of a name can be read. -/
def contains (c : Codec) (name : String) : Bool :=
  c.formats.contains name

/-- The names of the events that can be read, in order. -/
def names (c : Codec) : List String :=
  c.formats.keys

/-- The structure of the codec as far as it is shown. -/
def outline (c : Codec) : String :=
  "EventCodec \x7b events: " ++ Text.quotedList c.names ++ " \x7d"

/-- Read the event in an envelope. -/
def decode (c : Codec) (v : Envelope) : Except CodecError Event :=
  match c.formats.get? v.eventName with
  | none => .error (.unknownEvent v.eventName)
  | some f =>
      match f.read v.payload with
      | .ok e => .ok e
      | .error refusal => .error (.deserialize v.eventName refusal.cause.message)

end Codec

/-- Read a value of a given shape from a payload; `typeName` stands for the event
in errors. -/
def Shape.decodePayload (shape : Shape) (typeName : String) (payload : Json) :
    Except CodecError Json :=
  match shape.ofDocument payload with
  | .ok a => .ok a
  | .error refusal => .error (.deserialize typeName refusal.cause.message)

end Courier
