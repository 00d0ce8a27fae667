import Courier.Bus.Progress
import Courier.Proofs.Handler.Block
import Courier.Proofs.Handler.Program

/-!
# Diaries of instances

An instance may keep a diary: beside its own state stand the marks of its invocations, from the
first on.  A recorded handler does what the handler does, and each of its phases writes into the
diary of the instance where it begins and how it ends.  Whoever looks at the current states alone
sees no difference.
-/

namespace Courier

open Courier.Action

variable {σ ω α : Type}

/-- The state of an instance together with the marks of its invocations, in their order. -/
structure Diary (σ : Type) where
  own : σ
  marks : List Mark

namespace View

/-- What an instance sees, without its diary. -/
def current (v : View (Diary σ) ω) : View σ ω :=
  ⟨v.own.own, v.context, v.outside⟩

/-- What an instance sees, with a diary that holds the marks. -/
def diaried (marks : List Mark) (v : View σ ω) : View (Diary σ) ω :=
  ⟨⟨v.own, marks⟩, v.context, v.outside⟩

/-- Change what an instance sees, and leave its diary as it is. -/
def putCurrent (v : View σ ω) (d : View (Diary σ) ω) : View (Diary σ) ω :=
  v.diaried d.own.marks

/-- Write a mark into the diary. -/
def note (mark : Mark) (d : View (Diary σ) ω) : View (Diary σ) ω :=
  d.current.diaried (d.own.marks ++ [mark])

@[simp]
theorem current_diaried (marks : List Mark) (v : View σ ω) : (v.diaried marks).current = v :=
  rfl

end View

namespace World

/-- The world without the diaries of its instances. -/
def current (d : World (Diary σ) ω) : World σ ω :=
  ⟨d.context, fun i => (d.instances i).own, d.outside⟩

/-- The marks in the diary of an instance. -/
def marks (d : World (Diary σ) ω) (i : InstanceId) : List Mark :=
  (d.instances i).marks

theorem view_eq_diaried (i : InstanceId) (d : World (Diary σ) ω) :
    d.view i = (d.current.view i).diaried (d.marks i) :=
  rfl

@[simp]
theorem current_putView (i : InstanceId) (v : View (Diary σ) ω) (d : World (Diary σ) ω) :
    (d.putView i v).current = d.current.putView i v.current := by
  simp only [current, putView, View.current, mk.injEq, true_and, and_true]
  funext j
  split <;> rfl

@[simp]
theorem marks_putView (i j : InstanceId) (v : View (Diary σ) ω) (d : World (Diary σ) ω) :
    (d.putView i v).marks j = if j = i then v.own.marks else d.marks j := by
  simp only [marks, putView]
  split <;> rfl

end World

/-! ## Recorded handlers -/

/-- A phase that notes where it begins and how it ends. -/
def Proc.recorded (begins : Mark) (ends : α → Mark) (p : Proc (View σ ω) α) :
    Proc (View (Diary σ) ω) α :=
  .step (View.note begins) fun _ =>
    (p.within View.current View.putCurrent).bind fun a =>
      .step (View.note (ends a)) fun _ => .done a

/-- The same lifecycle, which notes its phases. -/
def Lifecycle.recorded (h : Lifecycle σ ω) : Lifecycle (Diary σ) ω where
  before := h.before.recorded .beforeBegins .beforeEnds
  core m x := (h.core m x).recorded .coreBegins .coreEnds
  after := h.after.recorded .afterBegins fun _ => .afterEnds

/-- The same handler, whose instance keeps a diary. -/
def Handler.recorded (h : Handler σ ω) : Handler (Diary σ) ω where
  name := h.name
  accepts := h.accepts
  behavior :=
    match h.behavior with
    | .stateful owner lifecycle => .stateful owner lifecycle.recorded
    | .plain routine => .plain routine

/-- The instance that an invocation with the message is one of.  Plain handlers have none, and
neither has a message of another type than the handler's. -/
def Handler.engages (h : Handler σ ω) (m : Message) : Option InstanceId :=
  if m.type ≠ h.accepts then none
  else
    match h.behavior with
    | .stateful owner _ => some owner
    | .plain _ => none

/-- The same handlers at the same places, whose instances keep diaries. -/
def Handlers.recorded (handlers : Handlers σ ω) : Handlers (Diary σ) ω where
  events :=
    { entries := handlers.events.entries.map fun entry => (entry.1, entry.2.map Handler.recorded)
      distinct := by simpa [Function.comp_def] using handlers.events.distinct }
  commands :=
    { entries := handlers.commands.entries.map fun entry => (entry.1, entry.2.recorded)
      distinct := by simpa [Function.comp_def] using handlers.commands.distinct }

namespace Handlers

variable (handlers : Handlers σ ω)

theorem eventHandlers?_recorded (type : MessageType) :
    handlers.recorded.eventHandlers? type =
      (handlers.eventHandlers? type).map (List.map Handler.recorded) :=
  lookup_map_snd _ _ type

theorem commandHandler?_recorded (type : MessageType) :
    handlers.recorded.commandHandler? type = (handlers.commandHandler? type).map Handler.recorded :=
  lookup_map_snd _ _ type

end Handlers

/-! ## Recorded invocations that block -/

namespace Proc

/-- A diary has no part in what a procedure does on the current state. -/
theorem run_within_current (p : Proc (View σ ω) α) (marks : List Mark) (v : View σ ω) :
    (p.within View.current View.putCurrent).run (v.diaried marks) =
      ⟨(p.run v).outcome, (p.run v).state.diaried marks, (p.run v).log⟩ := by
  induction p generalizing v with
  | done a => rfl
  | step change next ih => exact ih v (change v)
  | log line next ih => simp only [within, run, ih]
  | pause next ih => exact ih v
  | crash text => rfl

theorem returns_run_recorded {begins : Mark} {ends : α → Mark} {p : Proc (View σ ω) α}
    {v v' : View σ ω} {a : α} (returned : p.run.Returns v a v') (marks : List Mark) :
    (p.recorded begins ends).run.Returns (v.diaried marks) a
      (v'.diaried (marks ++ [begins, ends a])) := by
  have within : (p.within View.current View.putCurrent).run.Returns
      (v.diaried (marks ++ [begins])) a (v'.diaried (marks ++ [begins])) := by
    rw [Returns, run_within_current, returned.1, returned.2]
    exact ⟨rfl, rfl⟩
  have noted : (marks ++ [begins]) ++ [ends a] = marks ++ [begins, ends a] :=
    List.append_assoc _ _ _
  rw [← noted]
  exact returns_run_bind within ⟨rfl, rfl⟩

theorem crashes_run_recorded {begins : Mark} {ends : α → Mark} {p : Proc (View σ ω) α}
    {v v' : View σ ω} {text : String} (crashed : p.run.Crashes v text v') (marks : List Mark) :
    (p.recorded begins ends).run.Crashes (v.diaried marks) text
      (v'.diaried (marks ++ [begins])) := by
  have within : (p.within View.current View.putCurrent).run.Crashes
      (v.diaried (marks ++ [begins])) text (v'.diaried (marks ++ [begins])) := by
    rw [Crashes, run_within_current, crashed.1, crashed.2]
    exact ⟨rfl, rfl⟩
  show ((p.within View.current View.putCurrent).bind _).run.Crashes _ _ _
  rw [run_bind]
  exact (crashes_bind_iff _ _ _ _ _).mpr (.inl within)

end Proc

/-- A recorded invocation unfolds as the invocation does, and writes its marks into the diary. -/
theorem Lifecycle.Unfolds.recorded {h : Lifecycle σ ω} {m : Message} {x : Extra} {v v' : View σ ω}
    {outcome : Outcome Invocation} {marks : List Mark}
    (unfolds : h.Unfolds m x v outcome marks v') (before : List Mark) :
    h.recorded.Unfolds m x (v.diaried before) outcome marks (v'.diaried (before ++ marks)) := by
  cases unfolds with
  | beforeCrashes crashed => exact .beforeCrashes (Proc.crashes_run_recorded crashed before)
  | refuses checked => exact .refuses (Proc.returns_run_recorded checked before)
  | @completes invocation _ _ _ checked ran cleaned =>
      have written : before ++ [Mark.beforeBegins, .beforeEnds (.ok ()), .coreBegins,
          .coreEnds invocation, .afterBegins, .afterEnds] =
          ((before ++ [Mark.beforeBegins, .beforeEnds (.ok ())]) ++
            [Mark.coreBegins, .coreEnds invocation]) ++ [Mark.afterBegins, .afterEnds] := by
        simp
      rw [written]
      exact .completes (Proc.returns_run_recorded checked _) (Proc.returns_run_recorded ran _)
        (Proc.returns_run_recorded cleaned _)
  | coreCrashes checked ran cleaned =>
      have written : before ++ [Mark.beforeBegins, .beforeEnds (.ok ()), .coreBegins, .afterBegins,
          .afterEnds] =
          ((before ++ [Mark.beforeBegins, .beforeEnds (.ok ())]) ++ [Mark.coreBegins]) ++
            [Mark.afterBegins, .afterEnds] := by
        simp
      rw [written]
      exact .coreCrashes (Proc.returns_run_recorded checked _) (Proc.crashes_run_recorded ran _)
        (Proc.returns_run_recorded cleaned _)
  | @afterCrashes invocation _ _ _ _ checked ran crashed =>
      have written : before ++ [Mark.beforeBegins, .beforeEnds (.ok ()), .coreBegins,
          .coreEnds invocation, .afterBegins] =
          ((before ++ [Mark.beforeBegins, .beforeEnds (.ok ())]) ++
            [Mark.coreBegins, .coreEnds invocation]) ++ [Mark.afterBegins] := by
        simp
      rw [written]
      exact .afterCrashes (Proc.returns_run_recorded checked _) (Proc.returns_run_recorded ran _)
        (Proc.crashes_run_recorded crashed _)
  | bothCrash checked ran crashed =>
      have written : before ++ [Mark.beforeBegins, .beforeEnds (.ok ()), .coreBegins,
          .afterBegins] =
          ((before ++ [Mark.beforeBegins, .beforeEnds (.ok ())]) ++ [Mark.coreBegins]) ++
            [Mark.afterBegins] := by
        simp
      rw [written]
      exact .bothCrash (Proc.returns_run_recorded checked _) (Proc.crashes_run_recorded ran _)
        (Proc.crashes_run_recorded crashed _)

namespace Handler

variable {h : Handler σ ω} {m : Message}

theorem invoke_of_mismatch (x : Extra) (mismatch : m.type ≠ h.accepts) :
    h.invoke m x = pure (.mismatch h.accepts m) :=
  if_pos mismatch

theorem invoke_of_stateful (x : Extra) (accepted : ¬ m.type ≠ h.accepts) {owner : InstanceId}
    {lifecycle : Lifecycle σ ω} (behaviorEq : h.behavior = .stateful owner lifecycle) :
    h.invoke m x = (lifecycle.invoke m x).within (World.view owner) (World.putView owner) := by
  rw [invoke, if_neg accepted, behaviorEq]

theorem invoke_of_plain (x : Extra) (accepted : ¬ m.type ≠ h.accepts) {routine : Routine ω}
    (behaviorEq : h.behavior = .plain routine) :
    h.invoke m x = (do return ⟨← (routine m x).run, []⟩ : Action (View Unit ω) Invocation).within
      World.plainView World.putPlainView := by
  rw [invoke, if_neg accepted, behaviorEq]

theorem engages_of_mismatch (mismatch : m.type ≠ h.accepts) : h.engages m = none :=
  if_pos mismatch

theorem engages_of_stateful (accepted : ¬ m.type ≠ h.accepts) {owner : InstanceId}
    {lifecycle : Lifecycle σ ω} (behaviorEq : h.behavior = .stateful owner lifecycle) :
    h.engages m = some owner := by
  rw [engages, if_neg accepted, behaviorEq]

/-- An invocation that engages an instance is one of a lifecycle. -/
theorem behavior_of_engages {i : InstanceId} (engaged : h.engages m = some i) :
    ¬ m.type ≠ h.accepts ∧ ∃ lifecycle, h.behavior = .stateful i lifecycle := by
  unfold engages at engaged
  by_cases accepted : m.type ≠ h.accepts
  · rw [if_pos accepted] at engaged
    contradiction
  · rw [if_neg accepted] at engaged
    cases behaviorEq : h.behavior with
    | stateful owner lifecycle =>
        rw [behaviorEq] at engaged
        cases engaged
        exact ⟨accepted, lifecycle, rfl⟩
    | plain routine =>
        rw [behaviorEq] at engaged
        contradiction

theorem engages_of_plain (accepted : ¬ m.type ≠ h.accepts) {routine : Routine ω}
    (behaviorEq : h.behavior = .plain routine) : h.engages m = none := by
  rw [engages, if_neg accepted, behaviorEq]

/-- An invocation that engages no instance leaves all of them alone. -/
theorem instances_of_not_engages (engaged : h.engages m = none) (x : Extra) (w : World σ ω) :
    (h.invoke m x w).state.instances = w.instances := by
  by_cases accepted : m.type ≠ h.accepts
  · rw [invoke_of_mismatch x accepted]
    rfl
  · cases behaviorEq : h.behavior with
    | stateful owner lifecycle =>
        rw [engages_of_stateful accepted behaviorEq] at engaged
        contradiction
    | plain routine =>
        rw [invoke_of_plain x accepted behaviorEq]
        rfl

@[simp]
theorem engages_recorded (h : Handler σ ω) (m : Message) : h.recorded.engages m = h.engages m := by
  rcases h with ⟨name, accepts, behavior⟩
  cases behavior <;> rfl

/-- What a handler and its recorded counterpart come to: they end in the same way and leave the
same current world, and a block is written into the diary of the instance that is engaged, and
nothing into others. -/
structure InvokesAlike (h : Handler σ ω) (m : Message) (x : Extra) (d : World (Diary σ) ω) :
    Prop where
  outcome : (h.recorded.invoke m x d).outcome = (h.invoke m x d.current).outcome
  current : (h.recorded.invoke m x d).state.current = (h.invoke m x d.current).state
  block : ∀ i, h.engages m = some i → ∃ marks, Block (h.invoke m x d.current).outcome marks ∧
    (h.recorded.invoke m x d).state.marks i = d.marks i ++ marks
  apart : ∀ i, h.engages m ≠ some i → (h.recorded.invoke m x d).state.marks i = d.marks i

theorem invokesAlike_of_stateful (x : Extra) (d : World (Diary σ) ω)
    (accepted : ¬ m.type ≠ h.accepts) {owner : InstanceId} {lifecycle : Lifecycle σ ω}
    (behaviorEq : h.behavior = .stateful owner lifecycle) : h.InvokesAlike m x d := by
  have recordedEq : h.recorded.behavior = .stateful owner lifecycle.recorded := by
    simp only [recorded, behaviorEq]
  have invokeEq := invoke_of_stateful x accepted behaviorEq
  have invokeRecordedEq := invoke_of_stateful (h := h.recorded) x accepted recordedEq
  obtain ⟨marks, unfolds⟩ := lifecycle.unfolds_invoke m x (d.current.view owner)
  obtain ⟨outcomeEq, stateEq⟩ := (unfolds.recorded (d.marks owner)).invoke_eq
  rw [← World.view_eq_diaried] at outcomeEq stateEq
  have leaves : (h.recorded.invoke m x d).state = d.putView owner
      ((lifecycle.invoke m x (d.current.view owner)).state.diaried (d.marks owner ++ marks)) := by
    rw [invokeRecordedEq, ← stateEq]
    rfl
  constructor
  · rw [invokeEq, invokeRecordedEq]
    exact outcomeEq
  · rw [leaves, World.current_putView, View.current_diaried, invokeEq]
    rfl
  · intro i engaged
    rw [engages_of_stateful accepted behaviorEq] at engaged
    cases engaged
    rw [leaves, World.marks_putView, if_pos rfl, invokeEq]
    exact ⟨marks, unfolds.block, rfl⟩
  · intro i other
    rw [engages_of_stateful accepted behaviorEq] at other
    rw [leaves, World.marks_putView, if_neg fun same => other (congrArg some same.symm)]

theorem invokesAlike (h : Handler σ ω) (m : Message) (x : Extra) (d : World (Diary σ) ω) :
    h.InvokesAlike m x d := by
  by_cases accepted : m.type ≠ h.accepts
  · have invokeEq : h.recorded.invoke m x = pure (.mismatch h.accepts m) := if_pos accepted
    constructor
    · rw [invokeEq, invoke_of_mismatch x accepted]
      rfl
    · rw [invokeEq, invoke_of_mismatch x accepted]
      rfl
    · intro i engaged
      rw [engages_of_mismatch accepted] at engaged
      contradiction
    · intro i _
      rw [invokeEq]
      rfl
  · cases behaviorEq : h.behavior with
    | stateful owner lifecycle => exact invokesAlike_of_stateful x d accepted behaviorEq
    | plain routine =>
        have recordedEq : h.recorded.behavior = .plain routine := by
          simp only [recorded, behaviorEq]
        have invokeEq := invoke_of_plain x accepted behaviorEq
        have invokeRecordedEq := invoke_of_plain (h := h.recorded) x accepted recordedEq
        constructor
        · rw [invokeEq, invokeRecordedEq]
          rfl
        · rw [invokeEq, invokeRecordedEq]
          rfl
        · intro i engaged
          rw [engages_of_plain accepted behaviorEq] at engaged
          contradiction
        · intro i _
          rw [invokeRecordedEq]
          rfl

end Handler

end Courier
