import Courier.Handler.Proc
import Courier.Proofs.Returns

/-!
# Procedures stretch by stretch

A procedure that is resumed runs to its next suspension or to its end.  Running
it to its end at once is the same as running all its stretches one after the
other, and there are finitely many of them however the states between them are
changed by others.

What every single step of a procedure respects is respected by each of its
stretches, and suspensions have no part in it.
-/

namespace Courier.Proc

variable {S α β : Type}

/-- A procedure that is resumed suspends, ends or crashes. -/
theorem advance_ne_unfinished (p : Proc S α) (s : S) :
    (p.advance s).outcome ≠ .unfinished := by
  induction p generalizing s with
  | done a => simp [advance]
  | step change next ih => exact ih s (change s)
  | log line next ih => exact ih s
  | pause next ih => simp [advance]
  | crash text => simp [advance]

/-- A procedure that is run to its end returns or crashes. -/
theorem run_ne_unfinished (p : Proc S α) (s : S) : (p.run s).outcome ≠ .unfinished := by
  induction p generalizing s with
  | done a => simp [run]
  | step change next ih => exact ih s (change s)
  | log line next ih => exact ih s
  | pause next ih => exact ih s
  | crash text => simp [run]

/-- Running a procedure is running its first stretch and then what is left. -/
theorem run_eq_advance_bind (p : Proc S α) :
    p.run = p.advance >>= Sum.elim run pure := by
  funext s
  show p.run s = p.advance.bind (Sum.elim run Action.ret) s
  induction p generalizing s with
  | done a => rfl
  | step change next ih => exact ih s (change s)
  | log line next ih =>
      simp only [run, advance, Action.bind, ih]
      rcases next.advance s with ⟨outcome, state, log⟩
      cases outcome <;> rfl
  | pause next ih => rfl
  | crash text => rfl

/-- What may be left of a procedure when it suspends. -/
def Remainder (rest p : Proc S α) : Prop :=
  ∃ s s', p.advance.Returns s (.inl rest) s'

/-- No procedure can suspend for ever. -/
theorem remainder_wellFounded : WellFounded (Remainder : Proc S α → Proc S α → Prop) := by
  refine ⟨fun p => ⟨p, ?_⟩⟩
  induction p with
  | done a =>
      rintro rest ⟨s, s', outcomeEq, _⟩
      simp [advance] at outcomeEq
  | step change next ih =>
      rintro rest ⟨s, s', advanced⟩
      exact ih s rest ⟨change s, s', advanced⟩
  | log line next ih =>
      rintro rest ⟨s, s', outcomeEq, stateEq⟩
      exact ih rest ⟨s, s', outcomeEq, stateEq⟩
  | pause next ih =>
      rintro rest ⟨s, s', outcomeEq, _⟩
      simp only [advance, Outcome.returned.injEq, Sum.inl.injEq] at outcomeEq
      exact outcomeEq ▸ ⟨next, ih⟩
  | crash text =>
      rintro rest ⟨s, s', outcomeEq, _⟩
      simp [advance] at outcomeEq

/-! ## Steps that respect a relation -/

/-- Every step of a procedure changes the state only as `R` allows. -/
def Keeps (R : S → S → Prop) : Proc S α → Prop
  | done _ => True
  | step change next => ∀ s, R s (change s) ∧ (next s).Keeps R
  | log _ next => next.Keeps R
  | pause next => next.Keeps R
  | crash _ => True

theorem Keeps.bind {R : S → S → Prop} {p : Proc S α} {f : α → Proc S β} (kept : p.Keeps R)
    (follows : ∀ a, (f a).Keeps R) : (p.bind f).Keeps R := by
  induction p with
  | done a => exact follows a
  | step change next ih => exact fun s => ⟨(kept s).1, ih s (kept s).2⟩
  | log line next ih => exact ih kept
  | pause next ih => exact ih kept
  | crash text => trivial

theorem Keeps.mono {R R' : S → S → Prop} {p : Proc S α} (kept : p.Keeps R)
    (implies : ∀ {s s'}, R s s' → R' s s') : p.Keeps R' := by
  induction p with
  | done a => trivial
  | step change next ih => exact fun s => ⟨implies (kept s).1, ih s (kept s).2⟩
  | log line next ih => exact ih kept
  | pause next ih => exact ih kept
  | crash text => trivial

/-- A stretch respects what its steps respect. -/
theorem Keeps.advance {R : S → S → Prop} {p : Proc S α} {s s' : S} {left : Proc S α ⊕ α}
    (kept : p.Keeps R) (refl : ∀ s, R s s)
    (trans : ∀ {first second third}, R first second → R second third → R first third)
    (advanced : p.advance.Returns s left s') : R s s' := by
  induction p generalizing s with
  | done a =>
      rcases advanced with ⟨_, rfl⟩
      exact refl s
  | step change next ih => exact trans (kept s).1 (ih s (kept s).2 advanced)
  | log line next ih => exact ih kept advanced
  | pause next ih =>
      rcases advanced with ⟨_, rfl⟩
      exact refl s
  | crash text =>
      rcases advanced with ⟨outcomeEq, _⟩
      contradiction

/-- What is left after a stretch respects it, too. -/
theorem Keeps.rest {R : S → S → Prop} {p rest : Proc S α} {s s' : S} (kept : p.Keeps R)
    (advanced : p.advance.Returns s (.inl rest) s') : rest.Keeps R := by
  induction p generalizing s with
  | done a =>
      rcases advanced with ⟨outcomeEq, _⟩
      cases outcomeEq
  | step change next ih => exact ih s (kept s).2 advanced
  | log line next ih => exact ih kept advanced
  | pause next ih =>
      rcases advanced with ⟨outcomeEq, _⟩
      cases outcomeEq
      exact kept
  | crash text =>
      rcases advanced with ⟨outcomeEq, _⟩
      contradiction

/-- A procedure as a whole respects what its steps respect. -/
theorem Keeps.run {R : S → S → Prop} {p : Proc S α} {s s' : S} {a : α} (kept : p.Keeps R)
    (refl : ∀ s, R s s)
    (trans : ∀ {first second third}, R first second → R second third → R first third)
    (returned : p.run.Returns s a s') : R s s' := by
  induction p generalizing s with
  | done b =>
      rcases returned with ⟨_, rfl⟩
      exact refl s
  | step change next ih => exact trans (kept s).1 (ih s (kept s).2 returned)
  | log line next ih => exact ih kept returned
  | pause next ih => exact ih kept returned
  | crash text =>
      rcases returned with ⟨outcomeEq, _⟩
      contradiction

/-! ## Steps that depend on a part of the state -/

/-- What a procedure does depends on no more of the state than `look` shows: how it
goes on, and what `look` shows of the state afterwards. -/
def DependsOn {T : Type} (look : S → T) : Proc S α → Prop
  | done _ => True
  | step change next =>
      (∀ s t, look s = look t → look (change s) = look (change t) ∧ next s = next t) ∧
        ∀ s, (next s).DependsOn look
  | log _ next => next.DependsOn look
  | pause next => next.DependsOn look
  | crash _ => True

theorem DependsOn.of_injective {T : Type} {look : S → T} (injective : Function.Injective look)
    (p : Proc S α) : p.DependsOn look := by
  induction p with
  | done a => trivial
  | step change next ih =>
      constructor
      · intro s t same
        rw [injective same]
        exact ⟨rfl, rfl⟩
      · exact ih
  | log line next ih => exact ih
  | pause next ih => exact ih
  | crash text => trivial

theorem DependsOn.bind {T : Type} {look : S → T} {p : Proc S α} {f : α → Proc S β}
    (depends : p.DependsOn look) (follows : ∀ a, (f a).DependsOn look) :
    (p.bind f).DependsOn look := by
  induction p with
  | done a => exact follows a
  | step change next ih =>
      constructor
      · intro s t same
        obtain ⟨sameChange, sameNext⟩ := depends.1 s t same
        exact ⟨sameChange, congrArg (Proc.bind · f) sameNext⟩
      · exact fun s => ih s (depends.2 s)
  | log line next ih => exact ih depends
  | pause next ih => exact ih depends
  | crash text => trivial

theorem DependsOn.advance {T : Type} {look : S → T} {p : Proc S α} (depends : p.DependsOn look) :
    p.advance.Respects look := by
  induction p with
  | done a => exact Action.Respects.pure look _
  | step change next ih =>
      intro s t left s' same advanced
      obtain ⟨sameChange, sameNext⟩ := depends.1 s t same
      obtain ⟨t', advancedAlike, sameEnd⟩ := ih s (depends.2 s) sameChange advanced
      rw [sameNext] at advancedAlike
      exact ⟨t', advancedAlike, sameEnd⟩
  | log line next ih => exact ih depends
  | pause next ih => exact Action.Respects.pure look _
  | crash text =>
      rintro s t left s' _ ⟨outcomeEq, _⟩
      contradiction

/-- What is left after a stretch depends on no more either. -/
theorem DependsOn.rest {T : Type} {look : S → T} {p rest : Proc S α} {s s' : S}
    (depends : p.DependsOn look) (advanced : p.advance.Returns s (.inl rest) s') :
    rest.DependsOn look := by
  induction p generalizing s with
  | done a =>
      rcases advanced with ⟨outcomeEq, _⟩
      cases outcomeEq
  | step change next ih => exact ih s (depends.2 s) advanced
  | log line next ih => exact ih depends advanced
  | pause next ih =>
      rcases advanced with ⟨outcomeEq, _⟩
      cases outcomeEq
      exact depends
  | crash text =>
      rcases advanced with ⟨outcomeEq, _⟩
      contradiction

theorem DependsOn.run {T : Type} {look : S → T} {p : Proc S α} (depends : p.DependsOn look) :
    p.run.Respects look := by
  induction p with
  | done a => exact Action.Respects.pure look a
  | step change next ih =>
      intro s t a s' same returned
      obtain ⟨sameChange, sameNext⟩ := depends.1 s t same
      obtain ⟨t', returnedAlike, sameEnd⟩ := ih s (depends.2 s) sameChange returned
      rw [sameNext] at returnedAlike
      exact ⟨t', returnedAlike, sameEnd⟩
  | log line next ih => exact ih depends
  | pause next ih => exact ih depends
  | crash text =>
      rintro s t a s' _ ⟨outcomeEq, _⟩
      contradiction

/-! ## Without suspensions -/

theorem unpaused_bind (p : Proc S α) (f : α → Proc S β) :
    (p.bind f).unpaused = p.unpaused.bind fun a => (f a).unpaused := by
  induction p with
  | done a => rfl
  | step change next ih => simp [bind, unpaused, ih]
  | log line next ih => simp [bind, unpaused, ih]
  | pause next ih => exact ih
  | crash text => rfl

/-- Without suspensions the first stretch is the whole. -/
theorem unpaused_advance {p : Proc S α} {s s' : S} {left : Proc S α ⊕ α}
    (advanced : p.unpaused.advance.Returns s left s') : ∃ a, left = .inr a := by
  induction p generalizing s with
  | done a =>
      rcases advanced with ⟨outcomeEq, _⟩
      cases outcomeEq
      exact ⟨a, rfl⟩
  | step change next ih => exact ih s advanced
  | log line next ih => exact ih advanced
  | pause next ih => exact ih advanced
  | crash text =>
      rcases advanced with ⟨outcomeEq, _⟩
      contradiction

/-- Suspensions are not steps. -/
theorem keeps_unpaused_iff {R : S → S → Prop} (p : Proc S α) :
    p.unpaused.Keeps R ↔ p.Keeps R := by
  induction p with
  | done a => rfl
  | step change next ih => exact forall_congr' fun s => and_congr_right fun _ => ih s
  | log line next ih => exact ih
  | pause next ih => exact ih
  | crash text => rfl

/-! ## What a procedure returns -/

open Courier.Action

@[simp]
theorem returns_run_bind_iff (p : Proc S α) (f : α → Proc S β) (s s' : S) (b : β) :
    (p >>= f).run.Returns s b s' ↔
      ∃ a middle, p.run.Returns s a middle ∧ (f a).run.Returns middle b s' := by
  have runEq : (p >>= f).run = p.run >>= fun a => (f a).run := run_bind p f
  rw [runEq, returns_bind_iff]

theorem returns_run_bind {p : Proc S α} {f : α → Proc S β} {s middle s' : S} {a : α} {b : β}
    (first : p.run.Returns s a middle) (second : (f a).run.Returns middle b s') :
    (p >>= f).run.Returns s b s' :=
  (returns_run_bind_iff p f s s' b).mpr ⟨a, middle, first, second⟩

/-- A procedure on a part of the state returns what it returns on the part alone. -/
theorem returns_run_within_iff {T : Type} {look : S → T} {put : T → S → S} (part : IsPart look put)
    (p : Proc T α) (s s' : S) (a : α) :
    (p.within look put).run.Returns s a s' ↔ ∃ t, p.run.Returns (look s) a t ∧ put t s = s' := by
  induction p generalizing s with
  | done b =>
      rw [← returns_within_iff]
      exact (returns_pure_iff b a s s').trans (part.returns_within_pure_iff b a s s').symm
  | step change next ih =>
      have stepped := ih (look s) (put (change (look s)) s)
      simp only [part.look_put, part.put_put] at stepped
      exact stepped
  | log line next ih => exact ih s
  | pause next ih => exact ih s
  | crash text =>
      constructor
      · rintro ⟨outcomeEq, _⟩
        contradiction
      · rintro ⟨_, ⟨outcomeEq, _⟩, _⟩
        contradiction

end Courier.Proc
