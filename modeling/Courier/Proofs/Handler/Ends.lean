import Courier.Proofs.Cohort.Stage
import Courier.Proofs.Handler.Suspension

/-!
# What invocations end with

A procedure ends with what stands at one of its ends, whatever others make of the state between its
steps.  Where a handler has a message of its own type, its invocation therefore ends as one of its
own procedures does: nothing is added by the way in which the handler is run, alone or in a cohort.
-/

namespace Courier

variable {σ ω S α β : Type}

namespace Proc

/-- Whatever the state is at each of its steps, the procedure ends with nothing but what `P` holds
of. -/
def EndsIn (P : α → Prop) : Proc S α → Prop
  | done a => P a
  | step _ next => ∀ s, (next s).EndsIn P
  | log _ next => next.EndsIn P
  | pause next => next.EndsIn P
  | crash _ => True

theorem EndsIn.bind {P : α → Prop} {Q : β → Prop} {p : Proc S α} {f : α → Proc S β}
    (ends : p.EndsIn P) (follows : ∀ a, P a → (f a).EndsIn Q) : (p.bind f).EndsIn Q := by
  induction p with
  | done a => exact follows a ends
  | step change next ih => exact fun s => ih s (ends s)
  | log line next ih => exact ih ends
  | pause next ih => exact ih ends
  | crash text => trivial

theorem EndsIn.mono {P Q : α → Prop} {p : Proc S α} (ends : p.EndsIn P)
    (implies : ∀ a, P a → Q a) : p.EndsIn Q := by
  induction p with
  | done a => exact implies a ends
  | step change next ih => exact fun s => ih s (ends s)
  | log line next ih => exact ih ends
  | pause next ih => exact ih ends
  | crash text => trivial

theorem EndsIn.of_forall {P : α → Prop} (all : ∀ a, P a) (p : Proc S α) : p.EndsIn P := by
  induction p with
  | done a => exact all a
  | step change next ih => exact ih
  | log line next ih => exact ih
  | pause next ih => exact ih
  | crash text => trivial

/-- A stretch comes to one of the ends, or leaves something that has no others. -/
theorem EndsIn.advance {P : α → Prop} {p : Proc S α} {s s' : S} {left : Proc S α ⊕ α}
    (ends : p.EndsIn P) (advanced : p.advance.Returns s left s') : Sum.elim (EndsIn P) P left := by
  induction p generalizing s with
  | done a =>
      rcases advanced with ⟨outcomeEq, _⟩
      cases outcomeEq
      exact ends
  | step change next ih => exact ih s (ends s) advanced
  | log line next ih => exact ih ends advanced
  | pause next ih =>
      rcases advanced with ⟨outcomeEq, _⟩
      cases outcomeEq
      exact ends
  | crash text =>
      rcases advanced with ⟨outcomeEq, _⟩
      contradiction

theorem EndsIn.run {P : α → Prop} {p : Proc S α} {s s' : S} {a : α} (ends : p.EndsIn P)
    (returned : p.run.Returns s a s') : P a := by
  induction p generalizing s with
  | done b =>
      rcases returned with ⟨outcomeEq, _⟩
      cases outcomeEq
      exact ends
  | step change next ih => exact ih s (ends s) returned
  | log line next ih => exact ih ends returned
  | pause next ih => exact ih ends returned
  | crash text =>
      rcases returned with ⟨outcomeEq, _⟩
      contradiction

end Proc

namespace Program

/-- A program ends with nothing but what `P` holds of. -/
def EndsIn (P : Invocation → Prop) : Program σ ω → Prop
  | owned _ rest => rest.EndsIn P
  | free rest => rest.EndsIn P

theorem EndsIn.mono {P Q : Invocation → Prop} {p : Program σ ω} (ends : p.EndsIn P)
    (implies : ∀ invocation, P invocation → Q invocation) : p.EndsIn Q := by
  cases p with
  | owned owner rest => exact Proc.EndsIn.mono ends implies
  | free rest => exact Proc.EndsIn.mono ends implies

theorem EndsIn.of_forall {P : Invocation → Prop} (all : ∀ invocation, P invocation)
    (p : Program σ ω) : p.EndsIn P := by
  cases p with
  | owned owner rest => exact Proc.EndsIn.of_forall all rest
  | free rest => exact Proc.EndsIn.of_forall all rest

theorem EndsIn.advance {P : Invocation → Prop} {p : Program σ ω} {w w' : World σ ω}
    {left : Program σ ω ⊕ Invocation} (ends : p.EndsIn P)
    (advanced : p.advance.Returns w left w') : Sum.elim (EndsIn P) P left := by
  cases p with
  | owned owner q =>
      obtain ⟨rests, stretched, rfl⟩ := (owned_advance_returns_iff owner q w w' left).mp advanced
      obtain ⟨v, inner, _⟩ := (Action.returns_within_iff _ _ _ _ _ _).mp stretched
      have leaves := Proc.EndsIn.advance ends inner
      cases rests <;> exact leaves
  | free q =>
      obtain ⟨rests, stretched, rfl⟩ := (free_advance_returns_iff q w w' left).mp advanced
      obtain ⟨v, inner, _⟩ := (Action.returns_within_iff _ _ _ _ _ _).mp stretched
      have leaves := Proc.EndsIn.advance ends inner
      cases rests <;> exact leaves

theorem EndsIn.run {P : Invocation → Prop} {p : Program σ ω} {w w' : World σ ω}
    {invocation : Invocation} (ends : p.EndsIn P) (returned : p.run.Returns w invocation w') :
    P invocation := by
  cases p with
  | owned owner q =>
      obtain ⟨v, inner, _⟩ := (Action.returns_within_iff _ _ _ _ _ _).mp returned
      exact Proc.EndsIn.run ends inner
  | free q =>
      obtain ⟨v, inner, _⟩ := (Action.returns_within_iff _ _ _ _ _ _).mp returned
      exact Proc.EndsIn.run ends inner

end Program

namespace Handler

/-- With a message of its type the handler's own procedures, hooks included, end with nothing but
what `P` holds of. -/
def EndsIn (P : Invocation → Prop) (h : Handler σ ω) (m : Message) (x : Extra) : Prop :=
  match h.behavior with
  | .stateful _ lifecycle => (lifecycle.procedure m x).EndsIn P
  | .plain routine => (routine m x).EndsIn fun result => P ⟨result, []⟩

/-- Where the type is the handler's, no end is added to those of its own procedures. -/
theorem EndsIn.program {P : Invocation → Prop} {h : Handler σ ω} {m : Message} {x : Extra}
    (ends : h.EndsIn P m x) (accepts : h.accepts = m.type) : (h.program m x).EndsIn P := by
  have accepted : ¬ m.type ≠ h.accepts := fun other => other accepts.symm
  unfold EndsIn at ends
  cases behaviorEq : h.behavior with
  | stateful owner lifecycle =>
      rw [behaviorEq] at ends
      rw [program_of_stateful x accepted behaviorEq]
      exact ends
  | plain routine =>
      rw [behaviorEq] at ends
      rw [program_of_plain x accepted behaviorEq]
      exact Proc.EndsIn.bind ends fun _ holds => holds

end Handler

/-- What is left of a member of a cohort ends with nothing but what `P` holds of, or has ended with
that. -/
def Task.EndsIn (P : Invocation → Prop) : Task σ ω → Prop
  | .fresh p | .queued p | .active p => p.EndsIn P
  | .settled invocation => P invocation

/-- Wherever a member of a cohort is resumed, it comes to one of its ends, or goes on towards
them. -/
theorem Task.EndsIn.resume {P : Invocation → Prop} {task task' : Task σ ω} {member : Nat}
    {s s' : SharedWorld σ ω} (ends : task.EndsIn P)
    (returned : (task.resume member).Returns s task' s') : task'.EndsIn P := by
  have of_program : ∀ p, task.program? = some p → p.EndsIn P := by
    intro p programEq
    cases task <;> cases programEq <;> exact ends
  cases Task.resume_returns returned with
  | stays invocation => exact ends
  | waits arrivedEq =>
      apply of_program
      rw [← Task.program?_arrived, arrivedEq]
      rfl
  | @runs _ p left w goesOn advanced =>
      have leaves := (of_program p (by rw [← Task.program?_arrived, goesOn.program?_eq])).advance
        advanced
      cases left <;> exact leaves

/-- At every stage of a cohort, whoever has settled has come to one of the ends of its program. -/
theorem Cohort.Reaches.endsIn {programs : List (Program σ ω)} {start : SharedWorld σ ω}
    {trace : List (Stretch σ ω)} {stage : Cohort.Stage σ ω} {P : Nat → Invocation → Prop}
    (reached : Cohort.Reaches programs start trace stage)
    (ends : ∀ (k : Nat) (p : Program σ ω), programs[k]? = some p → p.EndsIn (P k)) :
    ∀ (k : Nat) (task : Task σ ω), stage.tasks[k]? = some task → task.EndsIn (P k) := by
  induction reached with
  | start =>
      intro k task taskEq
      simp only [Cohort.Stage.tasks, List.nil_append, List.getElem?_map,
        Option.map_eq_some_iff] at taskEq
      obtain ⟨p, programEq, rfl⟩ := taskEq
      exact ends k p programEq
  | @resume trace resumed pending task task' s s' _ returned ih =>
      intro k other otherEq
      simp only [Cohort.Stage.tasks, List.append_assoc, List.singleton_append] at ih otherEq
      by_cases same : k = resumed.length
      · subst same
        rw [Cohort.getElem?_at] at otherEq
        cases otherEq
        exact (ih _ task (Cohort.getElem?_at _ _ _)).resume returned
      · rw [Cohort.getElem?_of_ne same] at otherEq
        exact ih k other otherEq
  | round _ _ ih => simpa [Cohort.Stage.tasks] using ih

end Courier
