import Courier.Proofs.Handler.Diary
import Courier.Proofs.Handler.Suspension
import Courier.Proofs.Matching

/-!
# Procedures that shadow others

A procedure on an instance with a diary shadows one on the instance without if it makes the same
steps on the current state, suspends, ends and crashes where the other does, and may write into
the diary in between.  A recorded lifecycle shadows the lifecycle, stretch by stretch.
-/

namespace Courier

open Courier.Action

variable {σ ω α β : Type}

namespace Proc

/-- The first procedure does on the current state what the second does. -/
inductive Shadows : Proc (View (Diary σ) ω) α → Proc (View σ ω) α → Prop
  | done (a : α) : Shadows (.done a) (.done a)
  | step {change : View (Diary σ) ω → View (Diary σ) ω}
      {next : View (Diary σ) ω → Proc (View (Diary σ) ω) α} {change' : View σ ω → View σ ω}
      {next' : View σ ω → Proc (View σ ω) α} :
      (∀ d, (change d).current = change' d.current) → (∀ d, Shadows (next d) (next' d.current)) →
      Shadows (.step change next) (.step change' next')
  /-- A step that concerns the diary alone. -/
  | note {change : View (Diary σ) ω → View (Diary σ) ω}
      {next : View (Diary σ) ω → Proc (View (Diary σ) ω) α} {p : Proc (View σ ω) α} :
      (∀ d, (change d).current = d.current) → (∀ d, Shadows (next d) p) →
      Shadows (.step change next) p
  | log {next : Proc (View (Diary σ) ω) α} {next' : Proc (View σ ω) α} (line : LogLine) :
      Shadows next next' → Shadows (.log line next) (.log line next')
  | pause {next : Proc (View (Diary σ) ω) α} {next' : Proc (View σ ω) α} :
      Shadows next next' → Shadows (.pause next) (.pause next')
  | crash (text : String) : Shadows (.crash text) (.crash text)

theorem shadows_within (p : Proc (View σ ω) α) :
    Shadows (p.within View.current View.putCurrent) p := by
  induction p with
  | done a => exact .done a
  | step change next ih => exact .step (fun d => rfl) fun d => ih d.current
  | log line next ih => exact .log line ih
  | pause next ih => exact .pause ih
  | crash text => exact .crash text

theorem Shadows.bind {q : Proc (View (Diary σ) ω) α} {p : Proc (View σ ω) α}
    {g : α → Proc (View (Diary σ) ω) β} {f : α → Proc (View σ ω) β} (shadows : q.Shadows p)
    (follows : ∀ a, (g a).Shadows (f a)) : (q.bind g).Shadows (p.bind f) := by
  induction shadows with
  | done a => exact follows a
  | step changed _ ih => exact .step changed ih
  | note unchanged _ ih => exact .note unchanged ih
  | log line _ ih => exact .log line ih
  | pause _ ih => exact .pause ih
  | crash text => exact .crash text

/-- A recorded phase shadows the phase. -/
theorem shadows_recorded (begins : Mark) (ends : α → Mark) (p : Proc (View σ ω) α) :
    (p.recorded begins ends).Shadows p := by
  apply Shadows.note
  · intro d
    rfl
  · intro d
    have noted : ∀ a, Shadows (.step (View.note (ends a)) fun _ => .done a)
        (.done a : Proc (View σ ω) α) :=
      fun a => .note (fun d => rfl) fun _ => .done a
    have shadows := (shadows_within p).bind noted
    rw [bind_done] at shadows
    exact shadows

/-- A stretch of a procedure and one of its shadow end in the same way. -/
theorem Shadows.advance {q : Proc (View (Diary σ) ω) α} {p : Proc (View σ ω) α}
    (shadows : q.Shadows p) :
    Action.Matches (fun d v => d.current = v) (Sum.LiftRel Shadows Eq) q.advance p.advance := by
  induction shadows with
  | done a => exact .pure (.inr rfl)
  | step changed _ ih =>
      rintro d _ rfl
      exact ih d (changed d)
  | note unchanged _ ih =>
      rintro d _ rfl
      exact ih d (unchanged d)
  | log line _ ih => exact fun d v same => ih same
  | pause shadows _ => exact .pure (.inl shadows)
  | crash text => exact .crash text

end Proc

/-- A recorded lifecycle shadows the lifecycle. -/
theorem Lifecycle.shadows_procedure_recorded (h : Lifecycle σ ω) (m : Message) (x : Extra) :
    (h.recorded.procedure m x).Shadows (h.procedure m x) := by
  rw [procedure_eq_bind, procedure_eq_bind]
  apply (Proc.shadows_recorded _ _ h.before).bind
  intro result
  cases result with
  | error e => exact .done _
  | ok u =>
      apply (Proc.shadows_recorded _ _ (h.core m x)).bind
      intro invocation
      apply (Proc.shadows_recorded _ _ h.after).bind
      intro _
      exact .done invocation

namespace Program

/-- The first program does on the current world what the second does. -/
inductive Shadows : Program (Diary σ) ω → Program σ ω → Prop
  | owned {q : Proc (View (Diary σ) ω) Invocation} {p : Proc (View σ ω) Invocation}
      (owner : InstanceId) : q.Shadows p → Shadows (.owned owner q) (.owned owner p)
  | free (p : Proc (View Unit ω) Invocation) : Shadows (.free p) (.free p)

theorem Shadows.owner?_eq {q : Program (Diary σ) ω} {p : Program σ ω} (shadows : q.Shadows p) :
    q.owner? = p.owner? := by
  cases shadows <;> rfl

theorem Shadows.advance {q : Program (Diary σ) ω} {p : Program σ ω} (shadows : q.Shadows p) :
    Action.Matches (fun d w => d.current = w) (Sum.LiftRel Shadows Eq) q.advance p.advance := by
  cases shadows with
  | owned owner shadows =>
      apply Action.Matches.within
      · apply shadows.advance.bind
        rintro _ _ (left | left)
        · exact .pure (.inl (.owned owner left))
        · exact .pure (.inr left)
      · rintro d _ rfl
        rfl
      · rintro d _ v _ rfl rfl
        exact d.current_putView owner v
  | free p =>
      apply Action.Matches.within
      · apply (Action.Matches.refl p.advance).bind
        rintro left _ rfl
        cases left with
        | inl rest => exact .pure (.inl (.free rest))
        | inr invocation => exact .pure (.inr rfl)
      · rintro d _ rfl
        rfl
      · rintro d _ v _ rfl rfl
        rfl

end Program

/-- What a recorded handler does shadows what the handler does. -/
theorem Handler.shadows_program_recorded (h : Handler σ ω) (m : Message) (x : Extra) :
    (h.recorded.program m x).Shadows (h.program m x) := by
  by_cases accepted : m.type ≠ h.accepts
  · rw [program_of_mismatch x accepted, program_of_mismatch (h := h.recorded) x accepted]
    exact .free _
  · cases behaviorEq : h.behavior with
    | stateful owner lifecycle =>
        have recordedEq : h.recorded.behavior = .stateful owner lifecycle.recorded := by
          simp only [recorded, behaviorEq]
        rw [program_of_stateful x accepted behaviorEq,
          program_of_stateful (h := h.recorded) x accepted recordedEq]
        exact .owned owner (lifecycle.shadows_procedure_recorded m x)
    | plain routine =>
        have recordedEq : h.recorded.behavior = .plain routine := by
          simp only [recorded, behaviorEq]
        rw [program_of_plain x accepted behaviorEq,
          program_of_plain (h := h.recorded) x accepted recordedEq]
        exact .free _

end Courier
