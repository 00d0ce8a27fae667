import Courier.Proofs.Bus.Ending
import Courier.Proofs.Dictionary

/-!
# The two kinds of bus

What is true of calls on both buses is stated once, with the kind of the bus as a
parameter: a kind has its calls, its way of serving a message, and what it does when a turn
is over.
-/

namespace Courier

open Courier.Action Courier.Progress

variable {σ ω : Type}

/-- The kinds of bus. -/
inductive BusKind where
  | blocking
  | suspending
deriving DecidableEq, Repr

namespace BusKind

/-- A call ends with `r` and leaves `w'`, and `taken` are the messages that it takes from
its queue, in this order.  It finds no instance locked and leaves none so. -/
def Call (kind : BusKind) (handlers : Handlers σ ω) (m : Message) (x : Extra) (w : World σ ω)
    (taken : List Message) (r : CallResult) (w' : World σ ω) : Prop :=
  match kind with
  | blocking => SyncBus.Call handlers m x w taken r w'
  | suspending => AsyncBus.Call handlers m x ⟨w, Locks.free⟩ taken r ⟨w', Locks.free⟩

/-- What the handlers of a message make of it. -/
def Serves (kind : BusKind) (handlers : Handlers σ ω) (x : Extra) : Serving (World σ ω) :=
  match kind with
  | blocking => fun m => Handler.InTurn x m (handlers.registered m)
  | suspending => AsyncBus.Convenes handlers x

/-- The handler of a command is alone on both buses. -/
theorem serves_command_iff (kind : BusKind) (handlers : Handlers σ ω) (x : Extra) (c : Command)
    (w : World σ ω) (invocations : List (String × Invocation)) (w' : World σ ω) :
    kind.Serves handlers x (.command c) w invocations w' ↔
      Handler.InTurn x (.command c) (handlers.registered (.command c)) w invocations w' := by
  cases kind with
  | blocking => rfl
  | suspending => exact AsyncBus.convenes_command_iff handlers x c w w' invocations

/-- Every handler is invoked once, in registration order. -/
theorem names_of_serves {kind : BusKind} {handlers : Handlers σ ω} {x : Extra} {m : Message}
    {w w' : World σ ω} {invocations : List (String × Invocation)}
    (served : kind.Serves handlers x m w invocations w') :
    invocations.map (·.1) = (handlers.registered m).map (·.name) := by
  cases kind with
  | blocking => exact Handler.InTurn.names served
  | suspending => exact AsyncBus.Convenes.names served

/-- The handlers of a message make one thing of it only. -/
theorem serves_unique {kind : BusKind} {handlers : Handlers σ ω} {x : Extra} {m : Message}
    {w first second : World σ ω} {invocations others : List (String × Invocation)}
    (served : kind.Serves handlers x m w invocations first)
    (servedToo : kind.Serves handlers x m w others second) :
    invocations = others ∧ first = second := by
  cases kind with
  | blocking => exact Handler.InTurn.unique served servedToo
  | suspending =>
      rcases served with ⟨budget, results, middle, ran, rfl, rfl⟩
      rcases servedToo with ⟨larger, results', middle', ranToo, rfl, rfl⟩
      have same := (Cohort.run_returns_mono (Nat.le_max_left budget larger) ran).unique
        (Cohort.run_returns_mono (Nat.le_max_right budget larger) ranToo)
      rcases same with ⟨rfl, ⟨⟩⟩
      exact ⟨rfl, rfl⟩

/-- A call goes from one turn to the next. -/
theorem call_iff_course (kind : BusKind) (handlers : Handlers σ ω) (m : Message) (x : Extra)
    (w w' : World σ ω) (taken : List Message) (r : CallResult) :
    kind.Call handlers m x w taken r w' ↔
      EndsWith handlers x (kind.Serves handlers x) m w taken r w' := by
  cases kind with
  | blocking =>
      show SyncBus.Call handlers m x w taken r w' ↔ _
      rw [SyncBus.call_iff_drains]
      apply drains_iff_endsWith (SyncBus.dispatch_returns_iff handlers x)
      exact serves_command_iff blocking handlers x
  | suspending =>
      have drains_iff : Drains (fun m p w r w' => ∃ invocations,
          AsyncBus.Convenes handlers x m w invocations w' ∧ Turn.settle ⟨m, invocations⟩ p = r)
          ⟨[m], []⟩ w taken r w' ↔
          EndsWith handlers x (suspending.Serves handlers x) m w taken r w' :=
        drains_iff_endsWith (fun _ _ _ _ _ => Iff.rfl) (serves_command_iff suspending handlers x)
          m w w' taken r
      rw [← drains_iff]
      show AsyncBus.Call handlers m x _ taken r _ ↔ _
      rw [AsyncBus.call_iff_convenes]
      constructor
      · rintro ⟨_, ⟨⟩, drained⟩
        exact drained
      · intro drained
        exact ⟨w', rfl, drained⟩

/-- A call comes out in one way only. -/
theorem call_unique {kind : BusKind} {handlers : Handlers σ ω} {m : Message} {x : Extra}
    {w first second : World σ ω} {taken others : List Message} {r r' : CallResult}
    (called : kind.Call handlers m x w taken r first)
    (calledToo : kind.Call handlers m x w others r' second) :
    taken = others ∧ r = r' ∧ first = second := by
  cases kind with
  | blocking => exact SyncBus.Call.unique called calledToo
  | suspending =>
      obtain ⟨takenEq, resultEq, ⟨⟩⟩ := AsyncBus.Call.unique called calledToo
      exact ⟨takenEq, resultEq, rfl⟩

/-- Calls on events one after the other, each with the data that comes with it. -/
inductive Calls (kind : BusKind) (handlers : Handlers σ ω) :
    World σ ω → List (Event × Extra) → World σ ω → Prop
  | nothing {w : World σ ω} : Calls kind handlers w [] w
  | call {e : Event} {x : Extra} {calls : List (Event × Extra)} {w middle w' : World σ ω}
      {taken : List Message} {r : CallResult} :
      kind.Call handlers (.event e) x w taken r middle → Calls kind handlers middle calls w' →
      Calls kind handlers w ((e, x) :: calls) w'

/-- The context that an event leaves behind. -/
def release (kind : BusKind) (c : Context) : Context :=
  match kind with
  | blocking => c
  | suspending => c.releaseScoped

@[simp]
theorem release_release (kind : BusKind) (c : Context) :
    kind.release (kind.release c) = kind.release c := by
  cases kind with
  | blocking => rfl
  | suspending =>
      apply Context.ext_at?
      intro key
      show c.releaseScoped.releaseScoped.at? key = c.releaseScoped.at? key
      simp only [Context.at?_releaseScoped, Option.filter_filter, Bool.and_self]

/-- The world after the turn of a message. -/
def afterTurn (kind : BusKind) (m : Message) (w : World σ ω) : World σ ω :=
  match kind with
  | blocking => w
  | suspending => w.afterTurn m

theorem context_afterTurn (kind : BusKind) (e : Event) (w : World σ ω) :
    (kind.afterTurn (.event e) w).context = kind.release w.context := by
  cases kind <;> rfl

theorem outside_afterTurn (kind : BusKind) (m : Message) (w : World σ ω) :
    (kind.afterTurn m w).outside = w.outside := by
  cases kind <;> cases m <;> rfl

end BusKind

end Courier
