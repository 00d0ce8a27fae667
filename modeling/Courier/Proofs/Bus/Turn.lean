import Courier.Bus.Progress
import Courier.Proofs.Returns

/-!
# Turns

When a message comes to its turn, its handlers are invoked and their invocations
are taken in.  What the progress of a call gains by that depends on the message
and the invocations alone: the messages and the results of the invocations that
have succeeded, or the error of a command.
-/

namespace Courier

/-- The messages that an invocation may put into the queue: those of a failed
one are dropped. -/
def Invocation.accepted (invocation : Invocation) : List Message :=
  match invocation.result with
  | .ok _ => invocation.emitted
  | .error _ => []

/-- The result that an invocation leaves, if it has succeeded. -/
def Invocation.dispatched? (m : Message) (handler : String) (invocation : Invocation) :
    Option Dispatched :=
  match invocation.result with
  | .ok output => some ⟨m, handler, output⟩
  | .error _ => none

/-- A message that was taken from the queue, and the invocations of its handlers
in the order in which they were taken in, each with the name of its handler. -/
structure Turn where
  message : Message
  invocations : List (String × Invocation)

namespace Turn

/-- What the successful invocations have emitted, in their order. -/
def emitted (turn : Turn) : List Message :=
  turn.invocations.flatMap fun entry => entry.2.accepted

/-- One result for each successful invocation, in their order. -/
def results (turn : Turn) : List Dispatched :=
  turn.invocations.filterMap fun entry => entry.2.dispatched? turn.message entry.1

end Turn

namespace Progress

variable {S : Type}

/-- The progress of a call after a turn that has not ended it. -/
def after (p : Progress) (turn : Turn) : Progress where
  queue := p.queue ++ turn.emitted
  results := p.results ++ turn.results

@[simp]
theorem after_nil (p : Progress) (m : Message) : p.after ⟨m, []⟩ = p := by
  simp [after, Turn.emitted, Turn.results]

/-- The invocations of a turn may be taken in one after the other. -/
theorem after_after (p : Progress) (m : Message) (first second : List (String × Invocation)) :
    (p.after ⟨m, first⟩).after ⟨m, second⟩ = p.after ⟨m, first ++ second⟩ := by
  simp [after, Turn.emitted, Turn.results]

@[simp]
theorem enqueue_returns_iff (p next : Progress) (emitted : List Message) (s s' : S) :
    (p.enqueue emitted).Returns s next s' ↔
      { p with queue := p.queue ++ emitted } = next ∧ s = s' := by
  unfold enqueue
  by_cases empty : emitted.isEmpty
  · rw [if_pos empty, List.isEmpty_iff.mp empty]
    simp
  · rw [if_neg empty]
    simp [eq_comm, and_comm]

theorem succeed_returns_iff (p next : Progress) (m : Message) (handler : String)
    (output : Value) (emitted : List Message) (s s' : S) :
    (p.succeed m handler output emitted).Returns s next s' ↔
      p.after ⟨m, [(handler, ⟨.ok output, emitted⟩)]⟩ = next ∧ s = s' := by
  unfold succeed
  simp only [Action.returns_bind_iff, enqueue_returns_iff, Action.returns_pure_iff]
  constructor
  · rintro ⟨_, _, ⟨rfl, rfl⟩, rfl, rfl⟩
    simp [after, Turn.emitted, Turn.results, Invocation.accepted, Invocation.dispatched?]
  · rintro ⟨rfl, rfl⟩
    refine ⟨_, _, ⟨rfl, rfl⟩, ?_, rfl⟩
    simp [after, Turn.emitted, Turn.results, Invocation.accepted, Invocation.dispatched?]

/-- An event handler that fails adds nothing. -/
theorem settleEvent_returns_iff (p next : Progress) (m : Message) (handler : String)
    (invocation : Invocation) (s s' : S) :
    (p.settleEvent m handler invocation).Returns s next s' ↔
      p.after ⟨m, [(handler, invocation)]⟩ = next ∧ s = s' := by
  rcases invocation with ⟨result, emitted⟩
  cases result with
  | ok output => exact succeed_returns_iff p next m handler output emitted s s'
  | error e =>
      have unchanged : p.after ⟨m, [(handler, ⟨.error e, emitted⟩)]⟩ = p := by
        simp [after, Turn.emitted, Turn.results, Invocation.accepted, Invocation.dispatched?]
      rw [unchanged]
      simp only [settleEvent]
      cases emitted <;> simp [and_comm]

end Progress

namespace Turn

/-- The progress after a turn: only a command can end the call. -/
def settle (turn : Turn) (p : Progress) : Except DispatchError Progress :=
  match turn.message, turn.invocations with
  | .event _, _ => .ok (p.after turn)
  | .command _, [] => .error (.commandHandlerMissing turn.message.name)
  | .command _, (handler, invocation) :: _ =>
      match invocation.result with
      | .ok _ => .ok (p.after turn)
      | .error e => .error (.commandFailed turn.message.name handler e)

/-- A turn that does not end the call leaves the progress after it. -/
theorem settle_eq_ok {turn : Turn} {p next : Progress} (settled : turn.settle p = .ok next) :
    next = p.after turn := by
  unfold settle at settled
  split at settled
  · exact (Except.ok.inj settled).symm
  · contradiction
  · split at settled
    · exact (Except.ok.inj settled).symm
    · contradiction

end Turn

namespace Progress

variable {S : Type}

theorem settleCommand_returns_iff (p : Progress) (c : Command) (handler : String)
    (invocation : Invocation) (s s' : S) (r : Except DispatchError Progress) :
    (p.settleCommand (.command c) handler invocation).Returns s r s' ↔
      Turn.settle ⟨.command c, [(handler, invocation)]⟩ p = r ∧ s = s' := by
  rcases invocation with ⟨result, emitted⟩
  cases result with
  | ok output =>
      simp only [settleCommand, Turn.settle, Action.returns_bind_iff, succeed_returns_iff,
        Action.returns_pure_iff]
      constructor
      · rintro ⟨_, _, ⟨rfl, rfl⟩, rfl, rfl⟩
        exact ⟨rfl, rfl⟩
      · rintro ⟨rfl, rfl⟩
        exact ⟨_, _, ⟨rfl, rfl⟩, rfl, rfl⟩
  | error e => simp [settleCommand, Turn.settle, and_comm]

theorem unhandledCommand_returns_iff (p : Progress) (c : Command) (s s' : S)
    (r : Except DispatchError Progress) :
    (unhandledCommand (.command c) : Action S _).Returns s r s' ↔
      Turn.settle ⟨.command c, []⟩ p = r ∧ s = s' := by
  simp [unhandledCommand, Turn.settle, and_comm]

end Progress

end Courier
