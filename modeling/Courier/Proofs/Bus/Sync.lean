import Courier.Bus.Sync
import Courier.Proofs.Bus.Drain
import Courier.Proofs.Handler.InTurn

/-!
# Calls on the blocking bus

Handling one message is one turn in which its registered handlers have it one
after the other.  A call repeats this until its queue is empty, so that the
messages it handles, the invocations it makes and the results it returns are all
read off one list of turns.
-/

namespace Courier.SyncBus

open Courier.Progress

variable {σ ω : Type}

/-- A call ends with `r` and leaves `w'`, and `taken` are the messages that it
takes from its queue, in this order. -/
def Call (handlers : Handlers σ ω) (m : Message) (x : Extra) (w : World σ ω)
    (taken : List Message) (r : CallResult) (w' : World σ ω) : Prop :=
  ∃ budget, (handle handlers budget m x).Returns w r w' ∧
    Drains (fun m p => (dispatch handlers x m p).Returns) ⟨[m], []⟩ w taken r w'

/-- Invocations are taken in as they come, which is to say all at once. -/
theorem runHandlers_returns_iff (m : Message) (x : Extra) (handlers : List (Handler σ ω))
    (p next : Progress) (w w' : World σ ω) :
    (runHandlers m x handlers p).Returns w next w' ↔
      ∃ invocations, Handler.InTurn x m handlers w invocations w' ∧
        p.after ⟨m, invocations⟩ = next := by
  induction handlers generalizing p w with
  | nil =>
      simp only [runHandlers, Action.returns_pure_iff, Handler.inTurn_nil_iff]
      constructor
      · rintro ⟨rfl, rfl⟩
        exact ⟨[], ⟨rfl, rfl⟩, after_nil p m⟩
      · rintro ⟨_, ⟨rfl, rfl⟩, rfl⟩
        exact ⟨(after_nil p m).symm, rfl⟩
  | cons h rest ih =>
      simp only [runHandlers, Action.returns_bind_iff, Action.returns_tell_iff,
        settleEvent_returns_iff, ih, Handler.inTurn_cons_iff]
      constructor
      · rintro ⟨_, _, rfl, invocation, middle, invoked, _, _, ⟨rfl, rfl⟩, others, served, rfl⟩
        refine ⟨_, ⟨invocation, _, others, invoked, served, rfl⟩, ?_⟩
        rw [after_after]
        rfl
      · rintro ⟨_, ⟨invocation, middle, others, invoked, served, rfl⟩, rfl⟩
        refine ⟨(), w, rfl, invocation, middle, invoked, _, middle, ⟨rfl, rfl⟩, others, served, ?_⟩
        rw [after_after]
        rfl

theorem dispatchEvent_returns_iff (handlers : Handlers σ ω) (x : Extra) (e : Event)
    (p next : Progress) (w w' : World σ ω) :
    (dispatchEvent handlers x e p).Returns w next w' ↔
      ∃ invocations, Handler.InTurn x (.event e) (handlers.registered (.event e)) w invocations w' ∧
        p.after ⟨.event e, invocations⟩ = next := by
  simp only [dispatchEvent, Registry.registered]
  cases handlers.eventHandlers? e.type with
  | none =>
      simp only [unhandledEvent, Action.returns_bind_iff, Action.returns_tell_iff,
        Action.returns_pure_iff, Option.getD_none, Handler.inTurn_nil_iff]
      constructor
      · rintro ⟨_, _, rfl, rfl, rfl⟩
        exact ⟨[], ⟨rfl, rfl⟩, after_nil p _⟩
      · rintro ⟨_, ⟨rfl, rfl⟩, rfl⟩
        exact ⟨(), w, rfl, (after_nil p _).symm, rfl⟩
  | some registered => exact runHandlers_returns_iff _ x registered p next w w'

theorem dispatchCommand_returns_iff (handlers : Handlers σ ω) (x : Extra) (c : Command)
    (p : Progress) (w w' : World σ ω) (r : Except DispatchError Progress) :
    (dispatchCommand handlers x c p).Returns w r w' ↔
      ∃ invocations,
        Handler.InTurn x (.command c) (handlers.registered (.command c)) w invocations w' ∧
          Turn.settle ⟨.command c, invocations⟩ p = r := by
  simp only [dispatchCommand, Registry.registered]
  cases handlers.commandHandler? c.type with
  | none =>
      simp only [unhandledCommand_returns_iff p, Option.toList_none, Handler.inTurn_nil_iff]
      constructor
      · rintro ⟨rfl, rfl⟩
        exact ⟨[], ⟨rfl, rfl⟩, rfl⟩
      · rintro ⟨_, ⟨rfl, rfl⟩, rfl⟩
        exact ⟨rfl, rfl⟩
  | some h =>
      simp only [Action.returns_bind_iff, Action.returns_tell_iff, settleCommand_returns_iff,
        Option.toList_some, Handler.inTurn_singleton_iff]
      constructor
      · rintro ⟨_, _, rfl, invocation, _, invoked, rfl, rfl⟩
        exact ⟨_, ⟨invocation, invoked, rfl⟩, rfl⟩
      · rintro ⟨_, ⟨invocation, invoked, rfl⟩, rfl⟩
        exact ⟨(), w, rfl, invocation, w', invoked, rfl, rfl⟩

/-- Handling a message is one turn of its registered handlers. -/
theorem dispatch_returns_iff (handlers : Handlers σ ω) (x : Extra) (m : Message) (p : Progress)
    (w w' : World σ ω) (r : Except DispatchError Progress) :
    (dispatch handlers x m p).Returns w r w' ↔
      ∃ invocations, Handler.InTurn x m (handlers.registered m) w invocations w' ∧
        Turn.settle ⟨m, invocations⟩ p = r := by
  cases m with
  | event e =>
      simp only [dispatch, Action.returns_bind_iff, Action.returns_pure_iff,
        dispatchEvent_returns_iff]
      constructor
      · rintro ⟨_, _, ⟨invocations, served, rfl⟩, rfl, rfl⟩
        exact ⟨invocations, served, rfl⟩
      · rintro ⟨invocations, served, rfl⟩
        exact ⟨_, _, ⟨invocations, served, rfl⟩, rfl, rfl⟩
  | command c => exact dispatchCommand_returns_iff handlers x c p w w' r

/-- A call that returns takes some messages from its queue, one for each step that
it needs. -/
theorem handle_returns_iff (handlers : Handlers σ ω) (budget : Nat) (m : Message) (x : Extra)
    (w w' : World σ ω) (r : CallResult) :
    (handle handlers budget m x).Returns w r w' ↔
      ∃ taken, taken.length ≤ budget ∧
        Drains (fun m p => (dispatch handlers x m p).Returns) ⟨[m], []⟩ w taken r w' := by
  simp only [handle, Action.returns_bind_iff, Action.returns_tell_iff, drain_returns_iff]
  constructor
  · rintro ⟨_, _, rfl, ended⟩
    exact ended
  · intro ended
    exact ⟨(), w, rfl, ended⟩

/-- A call ends when its queue is drained, however many messages that takes. -/
theorem call_iff_drains (handlers : Handlers σ ω) (m : Message) (x : Extra) (w w' : World σ ω)
    (taken : List Message) (r : CallResult) :
    Call handlers m x w taken r w' ↔
      Drains (fun m p => (dispatch handlers x m p).Returns) ⟨[m], []⟩ w taken r w' := by
  constructor
  · rintro ⟨_, _, drained⟩
    exact drained
  · intro drained
    refine ⟨taken.length, ?_, drained⟩
    rw [handle_returns_iff]
    exact ⟨taken, Nat.le_refl _, drained⟩

theorem Call.settles {handlers : Handlers σ ω} {m : Message} {x : Extra} {w w' : World σ ω}
    {taken : List Message} {r : CallResult} (called : Call handlers m x w taken r w') :
    Action.Settles (fun budget => handle handlers budget m x) w r w' := by
  rw [call_iff_drains] at called
  refine ⟨taken.length, fun budget le => ?_⟩
  rw [handle_returns_iff]
  exact ⟨taken, le, called⟩

theorem call_of_returns {handlers : Handlers σ ω} {budget : Nat} {m : Message} {x : Extra}
    {w w' : World σ ω} {r : CallResult} (returned : (handle handlers budget m x).Returns w r w') :
    ∃ taken, Call handlers m x w taken r w' := by
  obtain ⟨taken, _, drained⟩ := (handle_returns_iff handlers budget m x w w' r).mp returned
  exact ⟨taken, budget, returned, drained⟩

/-- Handling one message only is its turn alone, on a queue that was empty. -/
theorem handleStep_returns_iff (handlers : Handlers σ ω) (m : Message) (x : Extra)
    (w w' : World σ ω) (r : Except DispatchError Step) :
    (handleStep handlers m x).Returns w r w' ↔
      ∃ invocations, Handler.InTurn x m (handlers.registered m) w invocations w' ∧
        (Turn.settle ⟨m, invocations⟩ ⟨[], []⟩).map (fun p => ⟨p.results, p.queue⟩) = r := by
  simp only [handleStep, Action.returns_bind_iff, Action.returns_tell_iff, dispatch_returns_iff]
  constructor
  · rintro ⟨_, _, rfl, outcome, _, ⟨invocations, served, rfl⟩, returned⟩
    refine ⟨invocations, ?_⟩
    cases settled : Turn.settle ⟨m, invocations⟩ ⟨[], []⟩ with
    | error e =>
        simp only [settled, Action.returns_pure_iff] at returned
        rcases returned with ⟨rfl, rfl⟩
        exact ⟨served, rfl⟩
    | ok p =>
        simp only [settled, Action.returns_pure_iff] at returned
        rcases returned with ⟨rfl, rfl⟩
        exact ⟨served, rfl⟩
  · rintro ⟨invocations, served, rfl⟩
    refine ⟨(), w, rfl, _, w', ⟨invocations, served, rfl⟩, ?_⟩
    cases Turn.settle ⟨m, invocations⟩ ⟨[], []⟩ with
    | error e => exact (Action.returns_pure_iff _ _ _ _).mpr ⟨rfl, rfl⟩
    | ok p => exact (Action.returns_pure_iff _ _ _ _).mpr ⟨rfl, rfl⟩

/-- A call comes out in one way only, however many steps it is allowed. -/
theorem Call.unique {handlers : Handlers σ ω} {m : Message} {x : Extra} {w first second : World σ ω}
    {taken others : List Message} {r r' : CallResult}
    (called : Call handlers m x w taken r first)
    (calledToo : Call handlers m x w others r' second) :
    taken = others ∧ r = r' ∧ first = second := by
  rw [call_iff_drains] at called calledToo
  apply called.unique _ calledToo
  intro m p s r r' s' s'' returned returnedToo
  exact returned.unique returnedToo

/-- Whatever the handlers do, a call that ends well has handled its message and
behind it what the turns before have emitted, turn by turn and within a turn in
registration order.  Emissions count only where the invocation has succeeded, and
every successful invocation has left one result, in the same order. -/
theorem handle_cascades (handlers : Handlers σ ω) (budget : Nat) (m : Message) (x : Extra)
    (w w' : World σ ω) (results : List Dispatched)
    (returned : (handle handlers budget m x).Returns w (.ok results) w') :
    ∃ turns : List Turn,
      Call handlers m x w (turns.map (·.message)) (.ok results) w' ∧
        Performs (fun m => Handler.InTurn x m (handlers.registered m)) w turns w' ∧
        turns.map (·.message) = m :: turns.flatMap Turn.emitted ∧
        results = turns.flatMap Turn.results := by
  obtain ⟨taken, _, drained⟩ :=
    (handle_returns_iff handlers budget m x w w' (.ok results)).mp returned
  obtain ⟨turns, rfl, performed, _, complete⟩ :=
    drained.fifo fun dispatched => (dispatch_returns_iff handlers x _ _ _ _ _).mp dispatched
  obtain ⟨takenEq, resultsEq⟩ := complete results rfl
  exact ⟨turns, ⟨budget, returned, drained⟩, performed, takenEq, by simpa using resultsEq⟩

end Courier.SyncBus

/-! ## A shop

An order is taken by two clerks of whom the second fails, so that only what the
first emits comes to its turn.  All clerks count on one instance and sign in one
book, which lies outside the bus. -/

namespace Courier.Shop

def ordered : Event := ⟨⟨"shop::Ordered", "Ordered"⟩, .ok .null⟩

def packed : Event := ⟨⟨"shop::Packed", "Packed"⟩, .ok .null⟩

def charge : Command := ⟨⟨"shop::Charge", "Charge"⟩, .null⟩

/-- What a clerk is there for. -/
structure Post where
  name : String
  type : MessageType
  result : Except HandlerError Value
  emitted : List Message := []

/-- The clerk counts, and signs in the book. -/
def Post.sign (post : Post) (v : View Nat (List String)) : View Nat (List String) :=
  { v with own := v.own + 1, outside := v.outside ++ [post.name] }

/-- The handler at a post: it signs, suspends a number of times, and ends. -/
def clerk (pauses : Nat) (post : Post) : Handler Nat (List String) where
  name := post.name
  accepts := post.type
  behavior := .stateful 0
    { before := .done (.ok ())
      core := fun _ _ => .step post.sign fun _ =>
        (Proc.pauses pauses).bind fun _ => .done ⟨post.result, post.emitted⟩
      after := .done () }

def orderPosts : List Post :=
  [{ name := "sales", type := ordered.type, result := .ok .unit,
     emitted := [.event packed, .command charge] },
    { name := "stock", type := ordered.type, result := .error (.failed "empty"),
      emitted := [.event packed] }]

def packedPost : Post where
  name := "post"
  type := packed.type
  result := .ok .unit

def till : Post where
  name := "till"
  type := charge.type
  result := .ok .unit

def handlers (pauses : Nat) : Handlers Nat (List String) :=
  ((Registry.empty.setEventHandlers ordered.type (orderPosts.map (clerk pauses))).setEventHandlers
      packed.type [clerk pauses packedPost]).setCommandHandler
    charge.type (clerk pauses till)

/-- The world before the first order. -/
def opening : World Nat (List String) := ⟨.empty, fun _ => 0, []⟩

/-- What the first order comes to. -/
def sold : List Dispatched :=
  [⟨.event ordered, "sales", .unit⟩, ⟨.event packed, "post", .unit⟩,
    ⟨.command charge, "till", .unit⟩]

end Courier.Shop

namespace Courier.SyncBus

open Courier.Progress

/-- The shop handles its first order. -/
theorem handle_cascades_shop :
    ∃ w', (handle (Shop.handlers 0) 3 (.event Shop.ordered) ∅).Returns Shop.opening
        (.ok Shop.sold) w' ∧
      w'.instances 0 = 4 ∧ w'.outside = ["sales", "stock", "post", "till"] ∧
      ∃ turns : List Turn,
        Call (Shop.handlers 0) (.event Shop.ordered) ∅ Shop.opening (turns.map (·.message))
          (.ok Shop.sold) w' ∧
        Performs (fun m => Handler.InTurn ∅ m ((Shop.handlers 0).registered m)) Shop.opening
          turns w' ∧
        turns.map (·.message) = .event Shop.ordered :: turns.flatMap Turn.emitted ∧
        Shop.sold = turns.flatMap Turn.results :=
  ⟨_, ⟨rfl, rfl⟩, rfl, rfl, handle_cascades _ 3 _ _ _ _ _ ⟨rfl, rfl⟩⟩

end Courier.SyncBus
