import Courier.Bus.Progress

/-!
# The blocking bus

Handlers run one after the other, in registration order, each to its end before
the next one starts.
-/

namespace Courier.SyncBus

variable {σ ω : Type}

/-- Let the handlers of an event have it. -/
def runHandlers (m : Message) (x : Extra) :
    List (Handler σ ω) → Progress → Action (World σ ω) Progress
  | [], p => pure p
  | h :: rest, p => do
      Action.tell [.note .debug "Handling event" [("event", m.name), ("handler", h.name)]]
      let invocation ← h.invoke m x
      let p ← p.settleEvent m h.name invocation
      runHandlers m x rest p

/-- Handle an event. -/
def dispatchEvent (handlers : Handlers σ ω) (x : Extra) (e : Event) (p : Progress) :
    Action (World σ ω) Progress :=
  match handlers.eventHandlers? e.type with
  | some registered => runHandlers (.event e) x registered p
  | none => do
      Progress.unhandledEvent (.event e)
      return p

/-- Handle a command. -/
def dispatchCommand (handlers : Handlers σ ω) (x : Extra) (c : Command) (p : Progress) :
    Action (World σ ω) (Except DispatchError Progress) :=
  match handlers.commandHandler? c.type with
  | none => Progress.unhandledCommand (.command c)
  | some h => do
      Action.tell [.note .debug "Handling command"
        [("command", c.type.name), ("handler", h.name)]]
      let invocation ← h.invoke (.command c) x
      p.settleCommand (.command c) h.name invocation

/-- Handle one message. -/
def dispatch (handlers : Handlers σ ω) (x : Extra) (m : Message) (p : Progress) :
    Action (World σ ω) (Except DispatchError Progress) :=
  match m with
  | .event e => do return .ok (← dispatchEvent handlers x e p)
  | .command c => dispatchCommand handlers x c p

/-- Handle a message together with everything that its handlers emit; `budget`
bounds the number of messages. -/
def handle (handlers : Handlers σ ω) (budget : Nat) (m : Message) (x : Extra) :
    Action (World σ ω) CallResult := do
  Action.tell [.opened "handle" [("message", m.name), ("extra", toString x.size)]]
  Progress.drain (dispatch handlers x) budget ⟨[m], []⟩

/-- Handle messages one after the other, each with all that follows from it. -/
def handleBatch (handlers : Handlers σ ω) (budget : Nat) (ms : List Message) (x : Extra) :
    Action (World σ ω) CallResult :=
  Progress.batch (fun m => handle handlers budget m x) ms

/-- The results of the handlers of one message, and what they have emitted. -/
structure Step where
  results : List Dispatched
  emitted : List Message

/-- Handle one message only, and give back what its handlers emit. -/
def handleStep (handlers : Handlers σ ω) (m : Message) (x : Extra) :
    Action (World σ ω) (Except DispatchError Step) := do
  Action.tell [.opened "handle_step" [("message", m.name)]]
  match ← dispatch handlers x m ⟨[], []⟩ with
  | .error e => return .error e
  | .ok p => return .ok ⟨p.results, p.queue⟩

end Courier.SyncBus
