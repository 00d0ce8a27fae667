import Courier.Bus.Progress

/-!
# The dry run

A dry-run bus runs no handler.  It records each message with the names of the
handlers that would have been invoked, and rejects a command without handler.
-/

namespace Courier

/-- A message that a dry run has accepted. -/
structure Recorded where
  message : Message
  /-- The names of the handlers, in the order in which they would run. -/
  handlers : List String
  extra : Extra

/-- A bus that only records. -/
structure DryRunBus (σ ω : Type) where
  handlers : Handlers σ ω := .empty
  recorded : List Recorded := []

namespace DryRunBus

variable {σ ω : Type}

/-- The names of the handlers of a message; an event may have none. -/
def handlerNames (handlers : Handlers σ ω) : Message → Except DispatchError (List String)
  | .event e => .ok (((handlers.eventHandlers? e.type).getD []).map (·.name))
  | .command c =>
      match handlers.commandHandler? c.type with
      | some h => .ok [h.name]
      | none => .error (.commandHandlerMissing c.type.name)

/-- Record a message, or reject it. -/
def handle (m : Message) (x : Extra) : Action (DryRunBus σ ω) CallResult := do
  let bus ← Action.get
  match handlerNames bus.handlers m with
  | .error e => return .error e
  | .ok names =>
      Action.modify fun bus => { bus with recorded := bus.recorded ++ [⟨m, names, x⟩] }
      return .ok []

/-- Record messages one after the other until one is rejected. -/
def handleBatch (ms : List Message) (x : Extra) : Action (DryRunBus σ ω) CallResult :=
  Progress.batch (fun m => handle m x) ms

/-- The names of the recorded messages. -/
def messageNames (bus : DryRunBus σ ω) : List String :=
  bus.recorded.map (·.message.name)

/-- Forget the records. -/
def clear (bus : DryRunBus σ ω) : DryRunBus σ ω :=
  { bus with recorded := [] }

/-- The structure of the bus as far as it is shown. -/
def outline (bus : DryRunBus σ ω) : String :=
  "DryRunBus \x7b registry: " ++ bus.handlers.outline ++ ", recorded: " ++
    toString bus.recorded.length ++ " \x7d"

end DryRunBus

end Courier
