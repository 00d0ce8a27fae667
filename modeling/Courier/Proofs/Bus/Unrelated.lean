import Courier.Proofs.Bus.Trail

/-!
# Unrelated registrations

What is registered for a type of message does not matter to a call in which no message of that type
comes to its turn.  Which types do is known from the call alone.  So the call is followed message by
message: as long as those that are taken are of other types, the handlers that are found for them
are the same, and they leave the same queue.

The main statement is `BusKind.unaffected`.  A type is told from all others by its full name and by
the kind of its messages, so that types which share a name are unrelated, and so are a type of
events and a type of commands.
-/

namespace Courier

open Courier.Action Courier.Progress

variable {σ ω S : Type}

/-- The message is of a type of events, or of a type of commands. -/
def Message.IsOf (kind : MessageKind) (type : MessageType) (m : Message) : Prop :=
  m.kind = kind ∧ m.type = type

instance (kind : MessageKind) (type : MessageType) (m : Message) : Decidable (m.IsOf kind type) :=
  inferInstanceAs (Decidable (_ ∧ _))

namespace Handlers

/-- Nothing but what is registered for one type may differ. -/
structure SameBut (kind : MessageKind) (type : MessageType) (handlers changed : Handlers σ ω) :
    Prop where
  events : ∀ other, ¬ (kind = .event ∧ other = type) →
    changed.eventHandlers? other = handlers.eventHandlers? other
  commands : ∀ other, ¬ (kind = .command ∧ other = type) →
    changed.commandHandler? other = handlers.commandHandler? other

/-- The change is about the handlers of one type alone. -/
def Change.IsFor (kind : MessageKind) (type : MessageType) (change : Change σ ω) : Prop :=
  (∀ other, change.ConcernsEvents other → kind = .event ∧ other = type) ∧
    ∀ other, change.ConcernsCommands other → kind = .command ∧ other = type

namespace SameBut

variable {kind : MessageKind} {type : MessageType} {handlers changed : Handlers σ ω}

/-- A list or a handler may be set for the type, or what it has may be removed. -/
theorem apply (handlers : Handlers σ ω) {change : Change σ ω} (isFor : change.IsFor kind type) :
    handlers.SameBut kind type (change.apply handlers) where
  events other apart := by
    have unconcerned : ¬ change.ConcernsEvents other :=
      fun concerns => apart (isFor.1 other concerns)
    rw [change.eventHandlers?_apply, (change.onEvents_eq_none_iff other).mpr unconcerned,
      Option.getD_none]
  commands other apart := by
    have unconcerned : ¬ change.ConcernsCommands other :=
      fun concerns => apart (isFor.2 other concerns)
    rw [change.commandHandler?_apply, (change.onCommands_eq_none_iff other).mpr unconcerned,
      Option.getD_none]

variable (same : handlers.SameBut kind type changed)
include same

theorem registered_eq {m : Message} (apart : ¬ m.IsOf kind type) :
    changed.registered m = handlers.registered m := by
  cases m with
  | event e =>
      have found := same.events e.type fun isOf => apart ⟨isOf.1.symm, isOf.2⟩
      rw [Registry.registered, Registry.registered, found]
  | command c =>
      have found := same.commands c.type fun isOf => apart ⟨isOf.1.symm, isOf.2⟩
      rw [Registry.registered, Registry.registered, found]

/-- A message of another type is handled alike. -/
theorem dispatch_eq (bus : BusKind) (budget : Nat) (x : Extra) {m : Message}
    (apart : ¬ m.IsOf kind type) (p : Progress) :
    bus.dispatch changed budget x m p = bus.dispatch handlers budget x m p := by
  cases m with
  | event e =>
      have found := same.events e.type fun isOf => apart ⟨isOf.1.symm, isOf.2⟩
      cases bus with
      | blocking => simp only [BusKind.dispatch, SyncBus.dispatch, SyncBus.dispatchEvent, found]
      | suspending =>
          simp only [BusKind.dispatch, AsyncBus.dispatch, AsyncBus.dispatchEvent,
            AsyncBus.deliverEvent, found]
  | command c =>
      have found := same.commands c.type fun isOf => apart ⟨isOf.1.symm, isOf.2⟩
      cases bus with
      | blocking => simp only [BusKind.dispatch, SyncBus.dispatch, SyncBus.dispatchCommand, found]
      | suspending =>
          simp only [BusKind.dispatch, AsyncBus.dispatch, AsyncBus.dispatchCommand, found]

end SameBut

end Handlers

namespace BusKind

variable {bus : BusKind} {handlers changed : Handlers σ ω} {m : Message} {x : Extra}
  {w : World σ ω} {taken : List Message} {run : Run (World σ ω) CallResult}

theorem serves_congr {reached : Message}
    (same : changed.registered reached = handlers.registered reached) :
    bus.Serves changed x reached = bus.Serves handlers x reached := by
  cases bus with
  | blocking => simp only [Serves, same]
  | suspending =>
      funext w invocations w'
      simp only [Serves, AsyncBus.Convenes, same]

theorem Invoked.congr {reached : Message} {h : Handler σ ω} {invocation : Invocation}
    (same : changed.registered reached = handlers.registered reached)
    (invoked : bus.Invoked handlers x reached w h invocation) :
    bus.Invoked changed x reached w h invocation := by
  cases invoked with
  | blocking splitEq served returned => exact .blocking (same.trans splitEq) served returned
  | suspending passed found settled =>
      rw [← same] at passed found
      exact .suspending passed found settled

/-- Turns that lead on from those before them are the same where what is registered for their
messages is. -/
theorem takes_congr
    (same : ∀ reached, bus.HasTurn handlers m x w reached →
      changed.registered reached = handlers.registered reached)
    {queue left : List Message} {before turns : List Turn} {middle w' : World σ ω}
    (passed : Takes (bus.Serves handlers x) [m] w before queue middle)
    (takes : Takes (bus.Serves handlers x) queue middle turns left w') :
    Takes (bus.Serves changed x) queue middle turns left w' := by
  induction takes generalizing before with
  | nothing => exact .nothing
  | turn served continues _ ih =>
      have servedAlike := served
      rw [← serves_congr (same _ ⟨before, _, _, passed⟩)] at servedAlike
      exact .turn servedAlike continues (ih (passed.append (.turn served continues .nothing)))

/-- Where what is registered is the same for all messages that come to their turn, so are the
invocations. -/
theorem Makes.congr {reached : Message} {h : Handler σ ω} {invocation : Invocation}
    (same : ∀ reached, bus.HasTurn handlers m x w reached →
      changed.registered reached = handlers.registered reached)
    (makes : bus.Makes handlers m x w reached h invocation) :
    bus.Makes changed m x w reached h invocation := by
  obtain ⟨turns, behind, middle, takes, invoked⟩ := makes
  exact ⟨turns, behind, middle, takes_congr same .nothing takes,
    invoked.congr (same reached ⟨turns, behind, middle, takes⟩)⟩

/-- A call that is changed nowhere on its trail ends as before. -/
theorem Ends.congr (ends : bus.Ends handlers m x w taken run)
    (same : ∀ reached ∈ taken, ∀ budget p,
      bus.dispatch changed budget x reached p = bus.dispatch handlers budget x reached p) :
    bus.Ends changed m x w taken run := by
  obtain ⟨ended, budget, rfl, rfl⟩ := ends
  obtain ⟨drainEq, trailEq⟩ := drain_congr fun reached mem => same reached mem budget
  refine ⟨ended, budget, ?_, trailEq⟩
  rw [handle_eq, handle_eq]
  show Action.bind _ _ w = Action.bind _ _ w
  simp only [Action.bind, Action.tell, drainEq]

/-- A call that no message of a type comes to its turn in does not depend on what is registered for
the type.  After any change to that it ends in the same way: with the same results, error or crash,
with the same messages taken, in the same world and with the same log.  No message of the type comes
to its turn, what is registered for those that do is what it was, and the same invocations are
made. -/
theorem unaffected {kind : MessageKind} {type : MessageType}
    (same : handlers.SameBut kind type changed) (ends : bus.Ends handlers m x w taken run)
    (apart : ∀ reached ∈ taken, ¬ reached.IsOf kind type) :
    bus.Ends changed m x w taken run ∧
      (∀ reached, bus.HasTurn changed m x w reached →
        ¬ reached.IsOf kind type ∧ changed.registered reached = handlers.registered reached) ∧
      ∀ reached h invocation, bus.Makes changed m x w reached h invocation ↔
        bus.Makes handlers m x w reached h invocation := by
  have endsAlike : bus.Ends changed m x w taken run :=
    ends.congr fun reached mem budget p => same.dispatch_eq bus budget x (apart reached mem) p
  have registeredEq : ∀ reached ∈ taken,
      changed.registered reached = handlers.registered reached :=
    fun reached mem => same.registered_eq (apart reached mem)
  refine ⟨endsAlike, ?_, ?_⟩
  · intro reached hasTurn
    have mem := (endsAlike.mem_taken_iff reached).mpr hasTurn
    exact ⟨apart reached mem, registeredEq reached mem⟩
  · intro reached h invocation
    constructor
    · exact Makes.congr fun reached hasTurn =>
        (registeredEq reached ((endsAlike.mem_taken_iff reached).mpr hasTurn)).symm
    · exact Makes.congr fun reached hasTurn =>
        registeredEq reached ((ends.mem_taken_iff reached).mpr hasTurn)

end BusKind

namespace Shop

/-- A handler that nobody should let near the goods. -/
def saboteur (type : MessageType) : Handler Nat (List String) where
  name := "saboteur"
  accepts := type
  behavior := .stateful 0
    { before := .done (.ok ()), core := fun _ _ => .crash "smash", after := .done () }

/-- The shop with a saboteur who waits for commands that bear the name of the packed event. -/
def sabotaged : Handlers Nat (List String) :=
  Handlers.Change.apply (handlers 1) (.setCommandHandler packed.type ⟨saboteur packed.type, rfl⟩)

/-- What the first order brings to its turn. -/
def served : List Message :=
  [.event ordered, .event packed, .command charge]

theorem exists_ends_ordered : ∃ run, run.outcome = .returned (.ok sold) ∧
    BusKind.suspending.Ends (handlers 1) (.event ordered) ∅ opening served run := by
  have ended : (BusKind.suspending.handle (handlers 1) 3 (.event ordered) ∅ opening).outcome ≠
      .unfinished := by
    rintro ⟨⟩
  have trailEq : BusKind.suspending.trail (handlers 1) 3 (.event ordered) ∅ opening = served := rfl
  exact ⟨_, rfl, BusKind.ends_of_handle rfl ended trailEq⟩

end Shop

namespace BusKind

/-- A saboteur who waits for commands that are named as the event of what is packed does not come to
the goods. -/
theorem unaffected_sabotage :
    (Shop.handlers 1).SameBut .command Shop.packed.type Shop.sabotaged ∧
      (∀ reached ∈ Shop.served, ¬ reached.IsOf .command Shop.packed.type) ∧
      ∃ run, run.outcome = .returned (.ok Shop.sold) ∧
        suspending.Ends (Shop.handlers 1) (.event Shop.ordered) ∅ Shop.opening Shop.served run ∧
        suspending.Ends Shop.sabotaged (.event Shop.ordered) ∅ Shop.opening Shop.served run ∧
        (∀ reached,
          suspending.HasTurn Shop.sabotaged (.event Shop.ordered) ∅ Shop.opening reached →
          ¬ reached.IsOf .command Shop.packed.type ∧
            Shop.sabotaged.registered reached = (Shop.handlers 1).registered reached) ∧
        ∀ reached h invocation,
          suspending.Makes Shop.sabotaged (.event Shop.ordered) ∅ Shop.opening reached h
              invocation ↔
            suspending.Makes (Shop.handlers 1) (.event Shop.ordered) ∅ Shop.opening reached h
              invocation := by
  have same : (Shop.handlers 1).SameBut .command Shop.packed.type Shop.sabotaged := by
    apply Handlers.SameBut.apply
    exact ⟨fun _ => False.elim, fun _ typeEq => ⟨rfl, typeEq.symm⟩⟩
  have apart : ∀ reached ∈ Shop.served, ¬ reached.IsOf .command Shop.packed.type := by decide
  obtain ⟨run, returned, ends⟩ := Shop.exists_ends_ordered
  exact ⟨same, apart, run, returned, ends, unaffected same ends apart⟩

/-- A type of events that shares the name is another type as well. -/
example : ¬ (Message.event Shop.packed).IsOf .event ⟨"depot::Packed", "Packed"⟩ := by decide

end BusKind

end Courier
