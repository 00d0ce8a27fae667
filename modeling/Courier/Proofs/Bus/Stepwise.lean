import Courier.Proofs.Bus.Sync
import Courier.Proofs.Matching

/-!
# A call step by step

A caller who handles one message at a time, and queues what is emitted, gets what a
call on the blocking bus gives.  The step works on a queue of its own, which starts
empty, while the call keeps one growing queue; `Progress.behind` puts the two
together, and every part of the dispatch goes along with it.
-/

namespace Courier

namespace Progress

variable {S : Type}

/-- The progress of a step, put behind the queue and the results that there were. -/
def behind (base p : Progress) : Progress where
  queue := base.queue ++ p.queue
  results := base.results ++ p.results

@[simp]
theorem behind_empty (base : Progress) : base.behind ⟨[], []⟩ = base := by
  simp [behind]

/-- Emitted messages join the end of the queue, whatever stands before it. -/
theorem enqueue_behind (base p : Progress) (emitted : List Message) :
    Action.Matches Eq (fun whole part => whole = base.behind part)
      ((base.behind p).enqueue emitted : Action S Progress) (p.enqueue emitted) := by
  unfold enqueue
  by_cases nothing : emitted.isEmpty
  · rw [if_pos nothing, if_pos nothing]
    exact .pure rfl
  · rw [if_neg nothing, if_neg nothing]
    apply Action.Matches.tell_bind
    apply Action.Matches.bind_tell
    apply Action.Matches.pure
    simp [behind]

theorem succeed_behind (base p : Progress) (m : Message) (handler : String) (output : Value)
    (emitted : List Message) :
    Action.Matches Eq (fun whole part => whole = base.behind part)
      ((base.behind p).succeed m handler output emitted : Action S Progress)
      (p.succeed m handler output emitted) := by
  apply (enqueue_behind base p emitted).bind
  rintro _ part rfl
  apply Action.Matches.pure
  simp [behind]

theorem settleEvent_behind (base p : Progress) (m : Message) (handler : String)
    (invocation : Invocation) :
    Action.Matches Eq (fun whole part => whole = base.behind part)
      ((base.behind p).settleEvent m handler invocation : Action S Progress)
      (p.settleEvent m handler invocation) := by
  unfold settleEvent
  cases invocation.result with
  | ok output => exact succeed_behind base p m handler output invocation.emitted
  | error e =>
      by_cases nothing : invocation.emitted.isEmpty
      · simp only [nothing]
        exact .tell_bind _ (.bind_tell _ (.pure rfl))
      · simp only [nothing]
        exact .tell_bind _ (.bind_tell _ (.tell_bind _ (.bind_tell _ (.pure rfl))))

/-- What a dispatch comes to behind a progress: the same error, or its own progress
put behind that. -/
def Continues (base : Progress) (whole part : Except DispatchError Progress) : Prop :=
  whole = part.map base.behind

theorem settleCommand_behind (base p : Progress) (m : Message) (handler : String)
    (invocation : Invocation) :
    Action.Matches Eq base.Continues
      ((base.behind p).settleCommand m handler invocation :
        Action S (Except DispatchError Progress))
      (p.settleCommand m handler invocation) := by
  unfold settleCommand
  cases invocation.result with
  | ok output =>
      apply (succeed_behind base p m handler output invocation.emitted).bind
      rintro _ part rfl
      exact .pure rfl
  | error e => exact .tell_bind _ (.bind_tell _ (.pure rfl))

end Progress

namespace SyncBus

open Courier.Progress

variable {σ ω : Type}

theorem runHandlers_behind (m : Message) (x : Extra) (handlers : List (Handler σ ω))
    (base p : Progress) :
    Action.Matches Eq (fun whole part => whole = base.behind part)
      (runHandlers m x handlers (base.behind p)) (runHandlers m x handlers p) := by
  induction handlers generalizing p with
  | nil => exact .pure rfl
  | cons h rest ih =>
      apply Action.Matches.tell_bind
      apply Action.Matches.bind_tell
      apply (Action.Matches.refl (h.invoke m x)).bind
      rintro invocation _ rfl
      apply (settleEvent_behind base p m h.name invocation).bind
      rintro _ part rfl
      exact ih part

theorem dispatchEvent_behind (handlers : Handlers σ ω) (x : Extra) (e : Event)
    (base p : Progress) :
    Action.Matches Eq (fun whole part => whole = base.behind part)
      (dispatchEvent handlers x e (base.behind p)) (dispatchEvent handlers x e p) := by
  unfold dispatchEvent
  cases handlers.eventHandlers? e.type with
  | none => exact .tell_bind _ (.bind_tell _ (.pure rfl))
  | some registered => exact runHandlers_behind (.event e) x registered base p

theorem dispatchCommand_behind (handlers : Handlers σ ω) (x : Extra) (c : Command)
    (base p : Progress) :
    Action.Matches Eq base.Continues
      (dispatchCommand handlers x c (base.behind p)) (dispatchCommand handlers x c p) := by
  unfold dispatchCommand
  cases handlers.commandHandler? c.type with
  | none => exact .tell_bind _ (.bind_tell _ (.pure rfl))
  | some h =>
      apply Action.Matches.tell_bind
      apply Action.Matches.bind_tell
      apply (Action.Matches.refl (h.invoke (.command c) x)).bind
      rintro invocation _ rfl
      exact settleCommand_behind base p (.command c) h.name invocation

/-- A message is handled in the same way whatever is queued and has been returned
before it: what it comes to is put behind that. -/
theorem dispatch_behind (handlers : Handlers σ ω) (x : Extra) (m : Message) (base p : Progress) :
    Action.Matches Eq base.Continues
      (dispatch handlers x m (base.behind p)) (dispatch handlers x m p) := by
  cases m with
  | event e =>
      apply (dispatchEvent_behind handlers x e base p).bind
      rintro _ part rfl
      exact .pure rfl
  | command c => exact dispatchCommand_behind handlers x c base p

/-- Handle the messages of a queue one by one, adding the results to those there are
and what is emitted to the end of the queue, until the queue is empty or a message
fails; `budget` bounds the number of messages. -/
def stepwise (handlers : Handlers σ ω) (x : Extra) :
    (budget : Nat) → List Message → List Dispatched → Action (World σ ω) CallResult
  | 0, queue, results => if queue.isEmpty then pure (.ok results) else Action.cutOff
  | _ + 1, [], results => pure (.ok results)
  | budget + 1, m :: rest, results => do
      match ← handleStep handlers m x with
      | .error e => return .error e
      | .ok step => stepwise handlers x budget (rest ++ step.emitted) (results ++ step.results)

/-- A step on its own is a dispatch on a queue that is empty. -/
theorem dispatch_matches_handleStep (handlers : Handlers σ ω) (x : Extra) (m : Message)
    (rest : List Message) (results : List Dispatched) :
    Action.Matches Eq
      (fun whole step => whole = step.map fun step =>
        ⟨rest ++ step.emitted, results ++ step.results⟩)
      (dispatch handlers x m ⟨rest, results⟩) (handleStep handlers m x) := by
  apply Action.Matches.bind_tell
  have alike := dispatch_behind handlers x m ⟨rest, results⟩ ⟨[], []⟩
  rw [behind_empty] at alike
  rw [← Action.bind_ret (dispatch handlers x m ⟨rest, results⟩)]
  apply alike.bind
  rintro _ part rfl
  cases part with
  | error e => exact .pure rfl
  | ok p => exact .pure rfl

/-- The loop of a call is the closure of the single step, from any progress on. -/
theorem drain_matches_stepwise (handlers : Handlers σ ω) (x : Extra) (budget : Nat)
    (queue : List Message) (results : List Dispatched) :
    Action.Matches Eq Eq (drain (dispatch handlers x) budget ⟨queue, results⟩)
      (stepwise handlers x budget queue results) := by
  induction budget generalizing queue results with
  | zero =>
      by_cases empty : queue.isEmpty
      · simp only [drain, stepwise, empty, if_true]
        exact .pure rfl
      · simp only [drain, stepwise, empty]
        exact .cutOff
  | succ budget ih =>
      cases queue with
      | nil => exact .pure rfl
      | cons m rest =>
          apply (dispatch_matches_handleStep handlers x m rest results).bind
          rintro _ step rfl
          cases step with
          | error e => exact .pure rfl
          | ok step => exact ih (rest ++ step.emitted) (results ++ step.results)

/-! ## The handlers of a step -/

/-- Handlers have a message in turn until one of them crashes; those behind it do not
have it. -/
def CrashesInTurn (x : Extra) (m : Message) (handlers : List (Handler σ ω)) (w : World σ ω)
    (text : String) (w' : World σ ω) : Prop :=
  ∃ before h behind invocations middle, handlers = before ++ h :: behind ∧
    Handler.InTurn x m before w invocations middle ∧ (h.invoke m x).Crashes middle text w'

theorem not_crashesInTurn_nil (x : Extra) (m : Message) (w w' : World σ ω) (text : String) :
    ¬ CrashesInTurn x m [] w text w' := by
  rintro ⟨before, h, behind, _, _, split, _⟩
  simp at split

/-- Either the first handler crashes, or it returns and one of the others does. -/
theorem crashesInTurn_cons_iff (x : Extra) (m : Message) (h : Handler σ ω)
    (rest : List (Handler σ ω)) (w w' : World σ ω) (text : String) :
    CrashesInTurn x m (h :: rest) w text w' ↔
      (h.invoke m x).Crashes w text w' ∨
        ∃ invocation middle, (h.invoke m x).Returns w invocation middle ∧
          CrashesInTurn x m rest middle text w' := by
  constructor
  · rintro ⟨before, last, behind, invocations, middle, split, served, crashed⟩
    cases served with
    | nobody =>
        cases split
        exact .inl crashed
    | next invoked served =>
        cases split
        exact .inr ⟨_, _, invoked, _, last, behind, _, middle, rfl, served, crashed⟩
  · rintro (crashed |
      ⟨invocation, _, invoked, before, last, behind, _, middle, rfl, served, crashed⟩)
    · exact ⟨[], h, rest, [], w, rfl, .nobody, crashed⟩
    · exact ⟨h :: before, last, behind, _, middle, rfl, .next invoked served, crashed⟩

theorem not_crashes_settleEvent {S : Type} (p : Progress) (m : Message) (handler : String)
    (invocation : Invocation) (s s' : S) (text : String) :
    ¬ (p.settleEvent m handler invocation).Crashes s text s' := by
  unfold settleEvent succeed enqueue
  cases invocation.result with
  | ok output =>
      by_cases nothing : invocation.emitted.isEmpty
      · simp [nothing]
      · simp [nothing]
  | error e =>
      by_cases nothing : invocation.emitted.isEmpty
      · simp [nothing]
      · simp [nothing]

theorem not_crashes_settleCommand {S : Type} (p : Progress) (m : Message) (handler : String)
    (invocation : Invocation) (s s' : S) (text : String) :
    ¬ (p.settleCommand m handler invocation).Crashes s text s' := by
  unfold settleCommand succeed enqueue
  cases invocation.result with
  | ok output =>
      by_cases nothing : invocation.emitted.isEmpty
      · simp [nothing]
      · simp [nothing]
  | error e => simp

theorem runHandlers_crashes_iff (m : Message) (x : Extra) (handlers : List (Handler σ ω))
    (p : Progress) (w w' : World σ ω) (text : String) :
    (runHandlers m x handlers p).Crashes w text w' ↔ CrashesInTurn x m handlers w text w' := by
  induction handlers generalizing p w with
  | nil => simp [runHandlers, not_crashesInTurn_nil]
  | cons h rest ih =>
      simp only [runHandlers, Action.crashes_bind_iff, Action.returns_tell_iff,
        Action.not_crashes_tell, not_crashes_settleEvent, settleEvent_returns_iff, false_or, ih,
        crashesInTurn_cons_iff]
      constructor
      · rintro ⟨_, _, rfl, crashed | ⟨invocation, _, invoked, _, _, ⟨_, rfl⟩, crashed⟩⟩
        · exact .inl crashed
        · exact .inr ⟨invocation, _, invoked, crashed⟩
      · rintro (crashed | ⟨invocation, middle, invoked, crashed⟩)
        · exact ⟨(), w, rfl, .inl crashed⟩
        · exact ⟨(), w, rfl, .inr ⟨invocation, middle, invoked, _, middle, ⟨rfl, rfl⟩, crashed⟩⟩

/-- A dispatch crashes only in one of the handlers of its own message. -/
theorem dispatch_crashes_iff (handlers : Handlers σ ω) (x : Extra) (m : Message) (p : Progress)
    (w w' : World σ ω) (text : String) :
    (dispatch handlers x m p).Crashes w text w' ↔
      CrashesInTurn x m (handlers.registered m) w text w' := by
  cases m with
  | event e =>
      simp only [dispatch, dispatchEvent, Registry.registered]
      cases handlers.eventHandlers? e.type with
      | none => simp [unhandledEvent, not_crashesInTurn_nil]
      | some registered => simp [runHandlers_crashes_iff]
  | command c =>
      simp only [dispatch, dispatchCommand, Registry.registered]
      cases handlers.commandHandler? c.type with
      | none => simp [unhandledCommand, not_crashesInTurn_nil]
      | some h =>
          simp [not_crashes_settleCommand, crashesInTurn_cons_iff, not_crashesInTurn_nil]

theorem handleStep_crashes_iff (handlers : Handlers σ ω) (m : Message) (x : Extra)
    (w w' : World σ ω) (text : String) :
    (handleStep handlers m x).Crashes w text w' ↔
      CrashesInTurn x m (handlers.registered m) w text w' := by
  simp only [handleStep, Action.crashes_bind_iff, Action.not_crashes_tell, false_or,
    Action.returns_tell_iff, dispatch_crashes_iff]
  constructor
  · rintro ⟨_, _, rfl, crashed | ⟨result, middle, _, crashed⟩⟩
    · exact crashed
    · cases result <;> simp at crashed
  · intro crashed
    exact ⟨(), w, rfl, .inl crashed⟩

/-- What a step gives back: the results and the emissions of its turn, unless the turn
ends in the error of a command. -/
theorem settle_map_step (turn : Turn) :
    (turn.settle ⟨[], []⟩).map (fun p => (⟨p.results, p.queue⟩ : Step)) =
      (turn.settle ⟨[], []⟩).map fun _ => ⟨turn.results, turn.emitted⟩ := by
  cases settled : turn.settle ⟨[], []⟩ with
  | error e => rfl
  | ok p =>
      obtain rfl := Turn.settle_eq_ok settled
      rfl

/-- A call is the closure of the single step: a caller who starts with a queue of one
message, has the head of the queue handled alone and adds what comes of it to the
results and to the end of the queue, gets what the call on that message gives.  They
end in the same way, by the same error or the same crash if there is one, and leave the
same world, whatever the handlers do and however many messages are allowed.

A step has the handlers of its own message in turn, and no others.  It gives back one
result for each successful invocation and what that invocation has emitted, in this
order, and dispatches none of it. -/
theorem handle_closes_steps (handlers : Handlers σ ω) (m : Message) (x : Extra)
    (w : World σ ω) :
    (∀ budget,
      (handle handlers budget m x w).outcome = (stepwise handlers x budget [m] [] w).outcome ∧
        (handle handlers budget m x w).state = (stepwise handlers x budget [m] [] w).state) ∧
    (∀ r w', (handleStep handlers m x).Returns w r w' ↔
      ∃ turn : Turn, turn.message = m ∧
        Handler.InTurn x m (handlers.registered m) w turn.invocations w' ∧
        turn.invocations.map (·.1) = (handlers.registered m).map (·.name) ∧
        r = (turn.settle ⟨[], []⟩).map fun _ => ⟨turn.results, turn.emitted⟩) ∧
    ∀ text w', (handleStep handlers m x).Crashes w text w' ↔
      CrashesInTurn x m (handlers.registered m) w text w' := by
  refine ⟨?_, ?_, fun text w' => handleStep_crashes_iff handlers m x w w' text⟩
  · intro budget
    apply Action.Matches.eq
    apply Action.Matches.tell_bind
    exact drain_matches_stepwise handlers x budget [m] []
  · intro r w'
    rw [handleStep_returns_iff]
    constructor
    · rintro ⟨invocations, served, rfl⟩
      exact ⟨⟨m, invocations⟩, rfl, served, served.names, settle_map_step ⟨m, invocations⟩⟩
    · rintro ⟨⟨_, invocations⟩, rfl, served, _, rfl⟩
      exact ⟨invocations, served, settle_map_step _⟩

end SyncBus

end Courier
