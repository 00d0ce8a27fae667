import Courier.Proofs.Handler.Diary
import Courier.Proofs.Handler.Suspension

/-!
# What recorded procedures write

A recorded lifecycle that may suspend writes a block into the diary of its instance by the time
it ends.  Wherever it suspends or crashes on the way, what it has written by then is a block that
is cut in the middle of a phase.
-/

namespace Courier

open Courier.Action

variable {σ ω α β : Type}

namespace Proc

/-- From where the marks have been written, a procedure goes on to write: what it has written in
all is fit for what it ends with, and wherever it suspends or crashes it is as `broken` allows. -/
def Writes (ends : α → List Mark → Prop) (broken : List Mark → Prop) :
    Proc (View (Diary σ) ω) α → List Mark → Prop
  | done a, marks => ends a marks
  | step change next, marks => ∀ d, ∃ more,
      (change d).own.marks = d.own.marks ++ more ∧ (next d).Writes ends broken (marks ++ more)
  | log _ next, marks => next.Writes ends broken marks
  | pause next, marks => broken marks ∧ next.Writes ends broken marks
  | crash _, marks => broken marks

variable {ends : α → List Mark → Prop} {broken : List Mark → Prop} {marks : List Mark}

theorem Writes.bind {ends : β → List Mark → Prop} {p : Proc (View (Diary σ) ω) α}
    {f : α → Proc (View (Diary σ) ω) β}
    (writes : p.Writes (fun a marks => (f a).Writes ends broken marks) broken marks) :
    (p.bind f).Writes ends broken marks := by
  induction p generalizing marks with
  | done a => exact writes
  | step change next ih =>
      intro d
      obtain ⟨more, written, rest⟩ := writes d
      exact ⟨more, written, ih d rest⟩
  | log line next ih => exact ih writes
  | pause next ih => exact ⟨writes.1, ih writes.2⟩
  | crash text => exact writes

/-- A procedure on the current state writes nothing. -/
theorem writes_within (p : Proc (View σ ω) α) (standing : broken marks)
    (ending : ∀ a, ends a marks) :
    (p.within View.current View.putCurrent).Writes ends broken marks := by
  induction p with
  | done a => exact ending a
  | step change next ih =>
      intro d
      refine ⟨[], (List.append_nil _).symm, ?_⟩
      rw [List.append_nil]
      exact ih d.current
  | log line next ih => exact ih
  | pause next ih => exact ⟨standing, ih⟩
  | crash text => exact standing

/-- A recorded phase writes where it begins and, unless it is cut, how it ends. -/
theorem writes_recorded {begins : Mark} {ending : α → Mark} (p : Proc (View σ ω) α)
    (cut : broken (marks ++ [begins])) (whole : ∀ a, ends a (marks ++ [begins, ending a])) :
    (p.recorded begins ending).Writes ends broken marks := by
  intro d
  refine ⟨[begins], rfl, ?_⟩
  apply Writes.bind
  apply writes_within p cut
  intro a d
  refine ⟨[ending a], rfl, ?_⟩
  rw [List.append_assoc]
  exact whole a

/-- What is left after a stretch of something that writes, and what it has written in all. -/
inductive LeavesWritten {ρ : Type} (goesOn : ρ → List Mark → Prop) (ends : α → List Mark → Prop)
    (broken : List Mark → Prop) : Outcome (ρ ⊕ α) → List Mark → Prop
  | suspended {rest : ρ} {marks : List Mark} :
      broken marks → goesOn rest marks →
      LeavesWritten goesOn ends broken (.returned (.inl rest)) marks
  | ended {a : α} {marks : List Mark} :
      ends a marks → LeavesWritten goesOn ends broken (.returned (.inr a)) marks
  | crashed {marks : List Mark} (text : String) :
      broken marks → LeavesWritten goesOn ends broken (.crashed text) marks

theorem Writes.advance {p : Proc (View (Diary σ) ω) α} (writes : p.Writes ends broken marks)
    (d : View (Diary σ) ω) :
    ∃ more, (p.advance d).state.own.marks = d.own.marks ++ more ∧
      LeavesWritten (fun rest => rest.Writes ends broken) ends broken (p.advance d).outcome
        (marks ++ more) := by
  induction p generalizing marks d with
  | done a =>
      refine ⟨[], (List.append_nil _).symm, ?_⟩
      rw [List.append_nil]
      exact .ended writes
  | step change next ih =>
      obtain ⟨more, written, rest⟩ := writes d
      obtain ⟨behind, writtenBehind, leaves⟩ := ih d rest (change d)
      rw [List.append_assoc] at leaves
      refine ⟨more ++ behind, ?_, leaves⟩
      rw [← List.append_assoc, ← written]
      exact writtenBehind
  | log line next ih => exact ih writes d
  | pause next ih =>
      refine ⟨[], (List.append_nil _).symm, ?_⟩
      rw [List.append_nil]
      exact .suspended writes.1 writes.2
  | crash text =>
      refine ⟨[], (List.append_nil _).symm, ?_⟩
      rw [List.append_nil]
      exact .crashed text writes

end Proc

/-- A recorded lifecycle that may suspend writes a block. -/
theorem Lifecycle.writes_procedure_recorded (h : Lifecycle σ ω) (m : Message) (x : Extra) :
    (h.recorded.procedure m x).Writes (fun invocation => Block (.returned invocation)) Cut [] := by
  rw [procedure_eq_bind]
  apply Proc.Writes.bind
  apply Proc.writes_recorded h.before .before
  intro result
  cases result with
  | error e => exact .refuses e
  | ok u =>
      apply Proc.Writes.bind
      apply Proc.writes_recorded (h.core m x) .core
      intro invocation
      apply Proc.Writes.bind
      apply Proc.writes_recorded h.after (.after invocation)
      intro _
      exact .completes invocation

namespace Program

/-- What is left of an invocation of the instance writes a block, of which the marks have been
written. -/
def Writes (i : InstanceId) (marks : List Mark) : Program (Diary σ) ω → Prop
  | owned owner rest =>
      owner = i ∧ rest.Writes (fun invocation => Block (.returned invocation)) Cut marks
  | free _ => False

variable {p : Program (Diary σ) ω} {i : InstanceId} {marks : List Mark}

theorem Writes.owner?_eq (writes : p.Writes i marks) : p.owner? = some i := by
  cases p with
  | owned owner rest => exact congrArg some writes.1
  | free rest => exact writes.elim

/-- A stretch of a program writes nothing into the diaries of other instances. -/
theorem marks_advance (p : Program (Diary σ) ω) (d : World (Diary σ) ω) {i : InstanceId}
    (other : p.owner? ≠ some i) : (p.advance d).state.marks i = d.marks i :=
  congrArg Diary.marks (p.instances_advance d other)

/-- A stretch of a program writes into the diary of its instance what its procedure writes. -/
theorem Writes.advance (writes : p.Writes i marks) (d : World (Diary σ) ω) :
    ∃ more, (p.advance d).state.marks i = d.marks i ++ more ∧
      Proc.LeavesWritten (fun rest marks => rest.Writes i marks)
        (fun invocation => Block (.returned invocation)) Cut (p.advance d).outcome
        (marks ++ more) := by
  cases p with
  | free rest => exact writes.elim
  | owned owner rest =>
      rcases writes with ⟨rfl, writes⟩
      obtain ⟨more, written, leaves⟩ := writes.advance (d.view owner)
      have marksEq : ∀ v, (d.putView owner v).marks owner = v.own.marks := by
        intro v
        rw [World.marks_putView, if_pos rfl]
      refine ⟨more, ?_⟩
      simp only [Program.advance, within, Bind.bind, Action.bind]
      generalize rest.advance (d.view owner) = run at written leaves
      rcases run with ⟨outcome, state, log⟩
      cases leaves with
      | suspended cut writesOn =>
          exact ⟨(marksEq state).trans written, .suspended cut ⟨rfl, writesOn⟩⟩
      | ended whole => exact ⟨(marksEq state).trans written, .ended whole⟩
      | crashed text cut => exact ⟨(marksEq state).trans written, .crashed text cut⟩

end Program

namespace Handler

/-- An invocation locks the instance that it engages. -/
theorem owner?_program (h : Handler σ ω) (m : Message) (x : Extra) :
    (h.program m x).owner? = h.engages m := by
  by_cases accepted : m.type ≠ h.accepts
  · rw [program_of_mismatch x accepted, engages_of_mismatch accepted]
    rfl
  · cases behaviorEq : h.behavior with
    | stateful owner lifecycle =>
        rw [program_of_stateful x accepted behaviorEq, engages_of_stateful accepted behaviorEq]
        rfl
    | plain routine =>
        rw [program_of_plain x accepted behaviorEq, engages_of_plain accepted behaviorEq]
        rfl

/-- What a recorded handler does on the instance that it engages writes a block, from the first
mark on. -/
theorem writes_program_recorded {h : Handler σ ω} {m : Message} {i : InstanceId}
    (engages : h.engages m = some i) (x : Extra) : (h.recorded.program m x).Writes i [] := by
  obtain ⟨accepted, lifecycle, behaviorEq⟩ := behavior_of_engages engages
  have recordedEq : h.recorded.behavior = .stateful i lifecycle.recorded := by
    simp only [recorded, behaviorEq]
  rw [program_of_stateful (h := h.recorded) x accepted recordedEq]
  exact ⟨rfl, lifecycle.writes_procedure_recorded m x⟩

end Handler

end Courier
