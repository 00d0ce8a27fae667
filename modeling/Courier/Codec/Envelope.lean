import Courier.Error
import Courier.Message
import Courier.Json.Parser

/-!
# Envelopes

An envelope carries the payload of an event under the name of its type, so that
it can leave the process and be read again.  An envelope is read from text in
one pass: the first fault decides, be it a fault of the text or of its shape.
-/

namespace Courier

/-- A serialized event. -/
structure Envelope where
  eventName : String
  payload : Json
deriving DecidableEq, Inhabited

namespace Envelope

/-- The envelope of an event; the event may have no serialized form. -/
def ofEvent (e : Event) : Except CodecError Envelope :=
  match e.payload with
  | .ok payload => .ok ⟨e.name, payload⟩
  | .error reason => .error (.serialize e.name reason)

/-- The shape of an envelope in a document. -/
def shape : Shape :=
  .record "EventEnvelope" false
    [("event_name", .required, .string), ("payload", .required, .any)]

/-- An envelope as a document. -/
def toJson (v : Envelope) : Json :=
  .object [("event_name", .string v.eventName), ("payload", v.payload)]

/-! ## From text -/

open Json (Fault Reader Strictness)

private def kept : Strictness := ⟨true⟩

/-- The depth that is left for what an envelope holds. -/
private def innerDepth : Nat := Json.maxDepth - 1

/-- A string; any other value is of the wrong shape once it has been read, an
array or object as soon as it starts. -/
def readName : Reader String := fun s =>
  match Json.skipBlanks s with
  | [] => .error .unexpectedEnd
  | '"' :: rest => Json.stringBody kept rest
  | c :: rest =>
      if c = '[' ∨ c = '\x7b' then .error .wrongShape
      else
        match Json.scalar kept c rest with
        | .ok _ => .error .wrongShape
        | .error fault => .error fault

/-- The fields that have been read. -/
structure Partly where
  eventName : Option String := none
  payload : Option Json := none

/-- The envelope, if all its fields have been read. -/
def Partly.whole (p : Partly) : Except Fault Envelope :=
  match p.eventName, p.payload with
  | some eventName, some payload => .ok ⟨eventName, payload⟩
  | _, _ => .error .wrongShape

/-- Whether a field has been read. -/
def Partly.has (p : Partly) (key : String) : Bool :=
  (key == "event_name" && p.eventName.isSome) || (key == "payload" && p.payload.isSome)

/-- One field with its key.  A field may come once, and its key alone is one too
many; unknown fields are passed over. -/
def readField (p : Partly) : Reader Partly := fun s => do
  let (k, rest) ← Json.key kept s
  if p.has k then throw .wrongShape
  let (_, rest) ← Json.colon rest
  if k = "event_name" then
    let (name, rest) ← readName rest
    return ({ p with eventName := some name }, rest)
  else if k = "payload" then
    let (payload, rest) ← Json.value kept innerDepth rest
    return ({ p with payload := some payload }, rest)
  else
    let (_, rest) ← Json.skipValue rest
    return (p, rest)

/-- The fields up to the closing brace; `fuel` bounds their number. -/
def readFields : (fuel : Nat) → (first : Bool) → Partly → Reader Envelope
  | 0, _, _, _ => .error .malformed
  | fuel + 1, first, p, s =>
      match Json.skipBlanks s with
      | [] => .error .unexpectedEnd
      | '\x7d' :: rest =>
          match p.whole with
          | .ok v => .ok (v, rest)
          | .error fault => .error fault
      | c :: rest =>
          if first then
            match readField p (c :: rest) with
            | .ok (p, rest) => readFields fuel false p rest
            | .error fault => .error fault
          else if c = ',' then
            match Json.skipBlanks rest with
            | [] => .error .unexpectedEnd
            | rest =>
                match readField p rest with
                | .ok (p, rest) => readFields fuel false p rest
                | .error fault => .error fault
          else .error .malformed

/-- What stands between two elements of an array envelope; the array may not end
there. -/
def betweenElements : Reader Unit := fun s =>
  match Json.skipBlanks s with
  | [] => .error .unexpectedEnd
  | ']' :: _ => .error .wrongShape
  | ',' :: rest =>
      match Json.skipBlanks rest with
      | [] => .error .unexpectedEnd
      | ']' :: _ => .error .malformed
      | rest => .ok ((), rest)
  | _ => .error .malformed

/-- The two elements of an array envelope and its closing bracket. -/
def readElements : Reader Envelope := fun s => do
  match Json.skipBlanks s with
  | [] => throw .unexpectedEnd
  | ']' :: _ => throw .wrongShape
  | s =>
      let (eventName, s) ← readName s
      let (_, s) ← betweenElements s
      let (payload, s) ← Json.value kept innerDepth s
      match Json.skipBlanks s with
      | [] => throw .unexpectedEnd
      | ']' :: rest => return (⟨eventName, payload⟩, rest)
      | _ => throw .malformed

/-- An envelope, as an object or as an array. -/
def read : Reader Envelope := fun s =>
  match Json.skipBlanks s with
  | [] => .error .unexpectedEnd
  | '[' :: rest => readElements rest
  | '\x7b' :: rest => readFields (rest.length + 1) true {} rest
  | c :: rest =>
      match Json.scalar kept c rest with
      | .ok _ => .error .wrongShape
      | .error fault => .error fault

/-- The envelope that a whole text describes. -/
def ofText (text : String) : Except Fault Envelope := do
  let (v, rest) ← read text.toList
  if (Json.skipBlanks rest).isEmpty then return v else throw .malformed

end Envelope

end Courier
