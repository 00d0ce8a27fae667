import Courier.Action
import Courier.Error
import Courier.Handler.Basic
import Courier.Registry

/-!
# The progress of a call

A call on a bus works on a queue of messages.  What a handler emits joins the
end of the queue if its invocation succeeds and is dropped otherwise, and every
successful invocation leaves one result.  A failing command ends the call; a
failing event handler does not.
-/

namespace Courier

/-- The result of one successful invocation. -/
structure Dispatched where
  message : Message
  /-- The name of the handler. -/
  handler : String
  output : Value

/-- The handlers that are registered on a bus. -/
abbrev Handlers (σ ω : Type) : Type :=
  Registry (Handler σ ω)

/-- The results of a call, or the error that has ended it. -/
abbrev CallResult : Type :=
  Except DispatchError (List Dispatched)

/-- How far a call has come. -/
structure Progress where
  /-- The messages that are still to be handled. -/
  queue : List Message
  results : List Dispatched := []

namespace Dispatched

/-- The structure of a result as far as it is shown. -/
def outline (d : Dispatched) : String :=
  "Dispatched \x7b message: " ++ d.message.outline ++ ", handler: " ++ Text.quoted d.handler ++
    ", output: " ++ d.output.outline ++ " \x7d"

/-- The structure of a list of results as far as it is shown. -/
def outlines (results : List Dispatched) : String :=
  "[" ++ ", ".intercalate (results.map outline) ++ "]"

end Dispatched

namespace Progress

variable {S : Type}

/-- Let emitted messages join the queue. -/
def enqueue (p : Progress) (emitted : List Message) : Action S Progress :=
  if emitted.isEmpty then pure p
  else do
    Action.tell [.note .trace "Queueing emitted messages"
      [("emitted", toString emitted.length)]]
    return { p with queue := p.queue ++ emitted }

/-- Take in a successful invocation. -/
def succeed (p : Progress) (m : Message) (handler : String) (output : Value)
    (emitted : List Message) : Action S Progress := do
  let p ← p.enqueue emitted
  return { p with results := p.results ++ [⟨m, handler, output⟩] }

/-- Take in an invocation of an event handler. -/
def settleEvent (p : Progress) (m : Message) (handler : String) (invocation : Invocation) :
    Action S Progress :=
  match invocation.result with
  | .ok output => p.succeed m handler output invocation.emitted
  | .error e => do
      if !invocation.emitted.isEmpty then
        Action.tell [.note .debug "Discarding messages emitted by failed handler"
          [("event", m.name), ("handler", handler),
            ("discarded", toString invocation.emitted.length)]]
      Action.tell [.note .error "Exception handling event"
        [("event", m.name), ("handler", handler), ("error", e.message)]]
      return p

/-- Take in an invocation of a command handler. -/
def settleCommand (p : Progress) (m : Message) (handler : String) (invocation : Invocation) :
    Action S (Except DispatchError Progress) :=
  match invocation.result with
  | .ok output => do return .ok (← p.succeed m handler output invocation.emitted)
  | .error e => do
      Action.tell [.note .error "Exception handling command"
        [("command", m.name), ("handler", handler), ("error", e.message)]]
      return .error (.commandFailed m.name handler e)

/-- There are no handlers for an event. -/
def unhandledEvent (m : Message) : Action S Unit :=
  Action.tell [.note .warn "No handlers registered for event" [("event", m.name)]]

/-- There is no handler for a command. -/
def unhandledCommand (m : Message) : Action S (Except DispatchError Progress) := do
  Action.tell [.note .error "No handler registered for command" [("command", m.name)]]
  return .error (.commandHandlerMissing m.name)

/-- Handle one message after the other, from the front of the queue, until the
queue is empty or a command fails; `budget` bounds the number of messages. -/
def drain (dispatch : Message → Progress → Action S (Except DispatchError Progress)) :
    (budget : Nat) → Progress → Action S CallResult
  | 0, p => if p.queue.isEmpty then pure (.ok p.results) else Action.cutOff
  | budget + 1, p =>
      match p.queue with
      | [] => pure (.ok p.results)
      | m :: rest => do
          match ← dispatch m { p with queue := rest } with
          | .error e => return .error e
          | .ok p => drain dispatch budget p

/-- Make one call for each message, in turn, until one fails. -/
def batch (handle : Message → Action S CallResult) : List Message → Action S CallResult
  | [] => pure (.ok [])
  | m :: rest => do
      match ← handle m with
      | .error e => return .error e
      | .ok results =>
          match ← batch handle rest with
          | .error e => return .error e
          | .ok more => return .ok (results ++ more)

end Progress

end Courier
