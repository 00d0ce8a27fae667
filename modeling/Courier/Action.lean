import Courier.Log

/-!
# Actions

An action runs on a state, reports to the log and ends in one of three ways: it
returns a value, it crashes with a text, or it is cut off because it would have
taken more steps than it was allowed.  A crash and a cut-off end every action
they occur in; what the state was by then stays.
-/

namespace Courier

/-- How an action ends. -/
inductive Outcome (α : Type) where
  | returned (a : α)
  | crashed (text : String)
  /-- The allowed number of steps did not suffice. -/
  | unfinished
deriving DecidableEq, Repr, Inhabited

/-- What an action leaves. -/
structure Run (S α : Type) where
  outcome : Outcome α
  state : S
  log : List LogLine

/-- A computation on a state that keeps a log and may crash. -/
def Action (S α : Type) : Type :=
  S → Run S α

namespace Action

variable {S T α β : Type}

/-- Run an action on a state. -/
def run (a : Action S α) (s : S) : Run S α :=
  a s

/-- End at once with a value. -/
def ret (a : α) : Action S α := fun s =>
  ⟨.returned a, s, []⟩

/-- Go on with what an action returns. -/
def bind (a : Action S α) (f : α → Action S β) : Action S β := fun s =>
  match a s with
  | ⟨.returned x, s, log⟩ =>
      let r := f x s
      ⟨r.outcome, r.state, log ++ r.log⟩
  | ⟨.crashed text, s, log⟩ => ⟨.crashed text, s, log⟩
  | ⟨.unfinished, s, log⟩ => ⟨.unfinished, s, log⟩

instance : Monad (Action S) where
  pure := ret
  bind := bind

@[simp]
theorem ret_bind (a : α) (f : α → Action S β) : (ret a).bind f = f a := by
  funext s
  simp [bind, ret]

@[simp]
theorem bind_ret (a : Action S α) : a.bind ret = a := by
  funext s
  rcases h : a s with ⟨outcome, state, log⟩
  cases outcome <;> simp [bind, ret, h]

/-- How three actions that follow each other are grouped does not matter. -/
theorem bind_assoc {γ : Type} (a : Action S α) (f : α → Action S β) (g : β → Action S γ) :
    (a.bind f).bind g = a.bind fun x => (f x).bind g := by
  funext s
  rcases h : a s with ⟨outcome, state, log⟩
  cases outcome with
  | returned x =>
      rcases hf : f x state with ⟨outcome, state, log⟩
      cases outcome <;> simp [bind, h, hf]
  | crashed text => simp [bind, h]
  | unfinished => simp [bind, h]

/-- The state. -/
def get : Action S S := fun s =>
  ⟨.returned s, s, []⟩

/-- Change the state. -/
def modify (f : S → S) : Action S Unit := fun s =>
  ⟨.returned (), f s, []⟩

/-- Add lines to the log. -/
def tell (lines : List LogLine) : Action S Unit := fun s =>
  ⟨.returned (), s, lines⟩

/-- Crash with a text. -/
def crash (text : String) : Action S α := fun s =>
  ⟨.crashed text, s, []⟩

/-- Stop because no step is left. -/
def cutOff : Action S α := fun s =>
  ⟨.unfinished, s, []⟩

/-- Run a second action after a first one that has returned or crashed.  The
first decides the outcome unless the second crashes. -/
def ensuring (a : Action S α) (cleanup : Action S Unit) : Action S α := fun s =>
  let r := a s
  match r.outcome with
  | .unfinished => r
  | ended =>
      let q := cleanup r.state
      let outcome :=
        match q.outcome with
        | .returned _ => ended
        | .crashed text => .crashed text
        | .unfinished => .unfinished
      ⟨outcome, q.state, r.log ++ q.log⟩

/-- Repair the state if an action crashes. -/
def onCrash (a : Action S α) (repair : S → S) : Action S α := fun s =>
  let r := a s
  match r.outcome with
  | .crashed text => ⟨.crashed text, repair r.state, r.log⟩
  | _ => r

/-- Run an action on a part of the state. -/
def within (look : S → T) (put : T → S → S) (a : Action T α) : Action S α := fun s =>
  let r := a (look s)
  ⟨r.outcome, put r.state s, r.log⟩

end Action

end Courier
