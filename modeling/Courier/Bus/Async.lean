import Courier.Bus.Cohort
import Courier.Bus.Progress

/-!
# The suspending bus

The handlers of an event run as a cohort.  Their invocations are taken in once
all have ended, in registration order, so that the order in which they end does
not matter.  After every event the call-scoped entries of the context are
released, whether or not the event had handlers.
-/

namespace Courier.AsyncBus

variable {σ ω : Type}

/-- Take in the invocations of a cohort. -/
def settleAll {S : Type} (m : Message) :
    List (Handler σ ω × Invocation) → Progress → Action S Progress
  | [], p => pure p
  | (h, invocation) :: rest, p => do
      let p ← p.settleEvent m h.name invocation
      settleAll m rest p

/-- Release the call-scoped entries of the context. -/
def releaseScoped : Action (SharedWorld σ ω) Unit := do
  let w ← Action.get
  let released := w.world.context.scopedKeys
  Action.modify fun w =>
    w.putWorld { w.world with context := w.world.context.releaseScoped }
  if !released.isEmpty then
    Action.tell [.note .debug "Released call-scoped context entries"
      [("keys", Text.quotedList released)]]

/-- Let the handlers of an event have it. -/
def runHandlers (budget : Nat) (m : Message) (x : Extra) (registered : List (Handler σ ω))
    (p : Progress) : Action (SharedWorld σ ω) Progress := do
  Action.tell [.note .debug "Handling event"
    [("event", m.name), ("cohort", toString registered.length)]]
  let invocations ← Cohort.run budget registered m x
  settleAll m (registered.zip invocations) p

/-- Take an event in turn, without the release after it. -/
def deliverEvent (handlers : Handlers σ ω) (budget : Nat) (x : Extra) (e : Event)
    (p : Progress) : Action (SharedWorld σ ω) Progress :=
  match handlers.eventHandlers? e.type with
  | some registered => runHandlers budget (.event e) x registered p
  | none => do
      Progress.unhandledEvent (.event e)
      return p

/-- Handle an event. -/
def dispatchEvent (handlers : Handlers σ ω) (budget : Nat) (x : Extra) (e : Event)
    (p : Progress) : Action (SharedWorld σ ω) Progress := do
  let p ← deliverEvent handlers budget x e p
  releaseScoped
  return p

/-- Handle a command; its handler is a cohort of its own. -/
def dispatchCommand (handlers : Handlers σ ω) (budget : Nat) (x : Extra) (c : Command)
    (p : Progress) : Action (SharedWorld σ ω) (Except DispatchError Progress) :=
  match handlers.commandHandler? c.type with
  | none => Progress.unhandledCommand (.command c)
  | some h => do
      Action.tell [.note .debug "Handling command"
        [("command", c.type.name), ("handler", h.name)]]
      match ← Cohort.run budget [h] (.command c) x with
      | [] => return .ok p
      | invocation :: _ => p.settleCommand (.command c) h.name invocation

/-- Handle one message. -/
def dispatch (handlers : Handlers σ ω) (budget : Nat) (x : Extra) (m : Message)
    (p : Progress) : Action (SharedWorld σ ω) (Except DispatchError Progress) :=
  match m with
  | .event e => do return .ok (← dispatchEvent handlers budget x e p)
  | .command c => dispatchCommand handlers budget x c p

/-- Handle a message together with everything that its handlers emit; `budget`
bounds the number of messages and, for each, the number of rounds. -/
def handle (handlers : Handlers σ ω) (budget : Nat) (m : Message) (x : Extra) :
    Action (SharedWorld σ ω) CallResult := do
  Action.tell [.opened "handle" [("message", m.name), ("extra", toString x.size)]]
  Progress.drain (dispatch handlers budget x) budget ⟨[m], []⟩

/-- Handle messages one after the other, each with all that follows from it. -/
def handleBatch (handlers : Handlers σ ω) (budget : Nat) (ms : List Message) (x : Extra) :
    Action (SharedWorld σ ω) CallResult :=
  Progress.batch (fun m => handle handlers budget m x) ms

end Courier.AsyncBus
