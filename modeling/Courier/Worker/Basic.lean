import Courier.Bus.Sync
import Courier.Wiring
import Courier.Worker.Queue

/-!
# The worker

A worker processes queued events one by one, each on a bus of its own.  The
handlers of the event run at once; the events that they emit go back into the
queue, and the commands are handled on the same bus.  So one pass over the queue
ends even if handlers keep emitting events.
-/

namespace Courier

/-- The queue of a worker and the world outside its buses. -/
structure Workplace (ω : Type) where
  queue : EventQueue := {}
  outside : ω

namespace Workplace

variable {σ ω : Type}

/-- The same world with another queue. -/
def putQueue (queue : EventQueue) (s : Workplace ω) : Workplace ω :=
  { s with queue }

/-- The same queue in another world. -/
def putOutside (outside : ω) (s : Workplace ω) : Workplace ω :=
  { s with outside }

end Workplace

/-- The queue of a worker and the world of the bus it works with. -/
structure Workbench (σ ω : Type) where
  queue : EventQueue
  world : World σ ω

namespace Workbench

variable {σ ω : Type}

/-- The same world with another queue. -/
def putQueue (queue : EventQueue) (s : Workbench σ ω) : Workbench σ ω :=
  { s with queue }

/-- The same queue with another world. -/
def putWorld (world : World σ ω) (s : Workbench σ ω) : Workbench σ ω :=
  { s with world }

/-- A workbench with a given bus. -/
def ofBus (b : Bus σ ω) (s : Workplace ω) : Workbench σ ω :=
  ⟨s.queue, b.world s.outside⟩

/-- What a workbench leaves when its bus is given up. -/
def giveUp (s : Workbench σ ω) (_ : Workplace ω) : Workplace ω :=
  ⟨s.queue, s.world.outside⟩

end Workbench

/-- What one pass of a worker has done. -/
structure WorkerReport where
  processed : Nat := 0
  failed : Nat := 0
deriving DecidableEq, Repr, Inhabited

/-- A worker: how it reads events, and how it gets its buses. -/
structure Worker (σ ω : Type) where
  codec : Codec := Catalogue.codec
  makeBus : Action ω (Bus σ ω)

namespace Worker

variable {σ ω : Type}

/-- Follow up what the handlers of an event have emitted: events go to the queue,
commands are handled at once. -/
def followUp (handlers : Handlers σ ω) (budget : Nat) :
    List Dispatched → List Message →
      Action (Workbench σ ω) (Except ServiceError (List Dispatched))
  | results, [] => return .ok results
  | results, .event e :: rest => do
      match ← (EventQueue.publishEvent e).within Workbench.queue Workbench.putQueue with
      | .error error => return .error error
      | .ok () => followUp handlers budget results rest
  | results, .command c :: rest => do
      match ← (SyncBus.handle handlers budget (.command c) ∅).within
          Workbench.world Workbench.putWorld with
      | .error error => return .error (.dispatch error)
      | .ok more => followUp handlers budget (results ++ more) rest

/-- Handle an event on a bus and follow up what is emitted. -/
def handleOn (handlers : Handlers σ ω) (budget : Nat) (e : Event) :
    Action (Workbench σ ω) (Except ServiceError (List Dispatched)) := do
  match ← (SyncBus.handleStep handlers (.event e) ∅).within
      Workbench.world Workbench.putWorld with
  | .error error => return .error (.dispatch error)
  | .ok step => followUp handlers budget step.results step.emitted

/-- Process one envelope on a bus of its own; `budget` bounds the number of
messages that a command may lead to. -/
def process (w : Worker σ ω) (budget : Nat) (v : Envelope) :
    Action (Workplace ω) (Except ServiceError (List Dispatched)) := do
  Action.tell [.opened "process" [("event", v.eventName)]]
  match w.codec.decode v with
  | .error error => do
      Action.tell [.note .error "Failed to decode envelope"
        [("event", v.eventName), ("error", error.message)]]
      return .error (.dispatch (.ofCodec error))
  | .ok e => do
      let bus ← w.makeBus.within Workplace.outside Workplace.putOutside
      (handleOn bus.handlers budget e).within (Workbench.ofBus bus) Workbench.giveUp

/-- Process envelopes one after the other and count how they end. -/
def processAll (w : Worker σ ω) (budget : Nat) :
    WorkerReport → List Envelope → Action (Workplace ω) WorkerReport
  | report, [] => return report
  | report, v :: rest => do
      match ← w.process budget v with
      | .ok _ => processAll w budget { report with processed := report.processed + 1 } rest
      | .error error => do
          Action.tell [.note .error "Envelope dropped"
            [("event", v.eventName), ("error", error.message)]]
          processAll w budget { report with failed := report.failed + 1 } rest

/-- Process everything that is in the queue now. -/
def runPending (w : Worker σ ω) (budget : Nat) : Action (Workplace ω) WorkerReport := do
  let envelopes ← EventQueue.takeAll.within Workplace.queue Workplace.putQueue
  let report ← w.processAll budget {} envelopes
  Action.tell [.note .debug "Worker pass finished"
    [("processed", toString report.processed), ("failed", toString report.failed)]]
  return report

end Worker

end Courier
