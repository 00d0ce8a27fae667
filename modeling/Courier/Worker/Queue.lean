import Courier.Action
import Courier.Codec.Basic
import Courier.Settings.Error

/-!
# The queue of published events

Events that are published wait in a queue of envelopes until a worker takes all
of them out at once.
-/

namespace Courier

/-- Why a service fails: for a reason of one of its parts, or for one of its
own. -/
inductive ServiceError where
  | settings (e : SettingsError)
  | dispatch (e : DispatchError)
  | codec (e : CodecError)
  | handler (e : HandlerError)
  | queue (text : String)
  | logging (text : String)
deriving DecidableEq, Repr, Inhabited

namespace ServiceError

def message : ServiceError → String
  | settings e => e.message
  | dispatch e => e.message
  | codec e => e.message
  | handler e => e.message
  | queue text => "Queue error: " ++ text
  | logging text => "Failed to initialize logging: " ++ text

def causes : ServiceError → List String
  | dispatch e => e.causes
  | handler e => e.causes
  | _ => []

end ServiceError

/-- Envelopes that wait to be processed.  The queue in memory has no limit: it takes
every envelope while it is open, and it is open for as long as it is there. -/
structure EventQueue where
  pending : List Envelope := []
  /-- How many envelopes may be published, if there is a limit.  Only a queue that is
  made to try out what becomes of a refusal has one. -/
  limit : Option Nat := none
  /-- How many envelopes have been published. -/
  published : Nat := 0
deriving Inhabited

namespace EventQueue

/-- Let an envelope join the queue, whatever the limit. -/
def send (q : EventQueue) (v : Envelope) : EventQueue :=
  { q with pending := q.pending ++ [v] }

/-- Whether the limit is reached. -/
def isFull (q : EventQueue) : Bool :=
  match q.limit with
  | some limit => limit ≤ q.published
  | none => false

/-- Let an envelope join the queue, unless the limit is reached.  The text of the refusal
is that of a queue which is made to refuse; a closed queue in memory would say
`event queue closed: ` in its place. -/
def publish (v : Envelope) : Action EventQueue (Except ServiceError Unit) := do
  if (← Action.get).isFull then return .error (.queue ("full: " ++ v.eventName))
  else
    Action.modify fun q => { q.send v with published := q.published + 1 }
    return .ok ()

/-- Let an event join the queue, if it has a serialized form. -/
def publishEvent (e : Event) : Action EventQueue (Except ServiceError Unit) := do
  match Envelope.ofEvent e with
  | .error error => return .error (.codec error)
  | .ok v => do
      Action.tell [.note .debug "Publishing event" [("event", v.eventName)]]
      publish v

/-- Take all envelopes out. -/
def takeAll : Action EventQueue (List Envelope) := do
  let q ← Action.get
  Action.modify fun q => { q with pending := [] }
  return q.pending

end EventQueue

end Courier
