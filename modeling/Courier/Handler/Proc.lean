import Courier.Action

/-!
# Procedures

What a handler does, as data: steps on a state, lines for the log, places where
it suspends, and perhaps a crash.  Every step may depend on the state that the
steps before it have left, so that a procedure is an arbitrary terminating
computation, cut into the pieces between which others may run.
-/

namespace Courier

/-- A terminating computation on a state that may suspend and crash. -/
inductive Proc (S α : Type) : Type where
  /-- The computation has ended. -/
  | done (a : α)
  /-- Change the state, and go on by what it was before. -/
  | step (change : S → S) (next : S → Proc S α)
  /-- Report a line. -/
  | log (line : LogLine) (next : Proc S α)
  /-- Let others run. -/
  | pause (next : Proc S α)
  /-- Give up everything. -/
  | crash (text : String)

namespace Proc

variable {S T α β : Type}

/-- Go on with what a procedure ends with. -/
def bind : Proc S α → (α → Proc S β) → Proc S β
  | done a, f => f a
  | step change next, f => step change fun s => (next s).bind f
  | log line next, f => log line (next.bind f)
  | pause next, f => pause (next.bind f)
  | crash text, _ => crash text

instance : Monad (Proc S) where
  pure := done
  bind := bind

/-- The state. -/
def get : Proc S S :=
  step id done

/-- Change the state. -/
def modify (change : S → S) : Proc S Unit :=
  step change fun _ => done ()

/-- Report a line. -/
def tell (line : LogLine) : Proc S Unit :=
  log line (done ())

/-- Suspend a number of times. -/
def pauses : Nat → Proc S Unit
  | 0 => done ()
  | n + 1 => pause (pauses n)

/-- The same procedure on a state of which its own state is a part. -/
def within (look : S → T) (put : T → S → S) : Proc T α → Proc S α
  | done a => done a
  | step change next =>
      step (fun s => put (change (look s)) s) fun s => (next (look s)).within look put
  | log line next => log line (next.within look put)
  | pause next => pause (next.within look put)
  | crash text => crash text

/-- The same procedure without its suspensions. -/
def unpaused : Proc S α → Proc S α
  | done a => done a
  | step change next => step change fun s => (next s).unpaused
  | log line next => log line next.unpaused
  | pause next => next.unpaused
  | crash text => crash text

/-- Run a procedure to its end; suspensions mean nothing. -/
def run : Proc S α → Action S α
  | done a, s => ⟨.returned a, s, []⟩
  | step change next, s => (next s).run (change s)
  | log line next, s =>
      let r := next.run s
      ⟨r.outcome, r.state, line :: r.log⟩
  | pause next, s => next.run s
  | crash text, s => ⟨.crashed text, s, []⟩

/-- Run a procedure up to its next suspension, and return what is left of it or
what it ended with. -/
def advance : Proc S α → Action S (Proc S α ⊕ α)
  | done a, s => ⟨.returned (.inr a), s, []⟩
  | step change next, s => (next s).advance (change s)
  | log line next, s =>
      let r := next.advance s
      ⟨r.outcome, r.state, line :: r.log⟩
  | pause next, s => ⟨.returned (.inl next), s, []⟩
  | crash text, s => ⟨.crashed text, s, []⟩

/-! ## Laws -/

@[simp]
theorem bind_done (p : Proc S α) : p.bind done = p := by
  induction p with
  | done a => rfl
  | step change next ih => simp [bind, ih]
  | log line next ih => simp [bind, ih]
  | pause next ih => simp [bind, ih]
  | crash text => rfl

/-- How three procedures that follow each other are grouped does not matter. -/
theorem bind_assoc {γ : Type} (p : Proc S α) (f : α → Proc S β) (g : β → Proc S γ) :
    (p.bind f).bind g = p.bind fun a => (f a).bind g := by
  induction p with
  | done a => rfl
  | step change next ih => simp [bind, ih]
  | log line next ih => simp [bind, ih]
  | pause next ih => simp [bind, ih]
  | crash text => rfl

/-- Running two procedures that follow each other is running one after the other. -/
theorem run_bind (p : Proc S α) (f : α → Proc S β) :
    (p.bind f).run = p.run.bind fun a => (f a).run := by
  funext s
  induction p generalizing s with
  | done a => simp [bind, run, Action.bind]
  | step change next ih => simpa [bind, run, Action.bind] using ih s (change s)
  | log line next ih =>
      simp only [bind, run, Action.bind, ih]
      split <;> simp_all
  | pause next ih => simpa [bind, run, Action.bind] using ih s
  | crash text => simp [bind, run, Action.bind]

/-- Suspensions mean nothing to a procedure that is run to its end. -/
@[simp]
theorem run_unpaused (p : Proc S α) : p.unpaused.run = p.run := by
  funext s
  induction p generalizing s with
  | done a => rfl
  | step change next ih => exact ih s (change s)
  | log line next ih => simp [unpaused, run, ih]
  | pause next ih => exact ih s
  | crash text => rfl

end Proc

end Courier
