import Courier.Proofs.Bus.Kind

/-!
# Handlers that end at once

A handler that does not suspend on the world it finds ends in the first stretch of its
lifecycle.  Where all handlers of a message do so one after the other, their cohort is
through after one round, and on both buses they have the message in turn.
-/

namespace Courier

open Courier.Action

variable {σ ω : Type}

namespace Proc

variable {S α β : Type}

/-- A procedure that follows one that ends at once goes on in the same stretch. -/
theorem advance_bind {p : Proc S α} {f : α → Proc S β} {s middle s' : S} {a : α}
    {left : Proc S β ⊕ β} (first : p.advance.Returns s (.inr a) middle)
    (second : (f a).advance.Returns middle left s') : (p >>= f).advance.Returns s left s' := by
  induction p generalizing s with
  | done b =>
      rcases first with ⟨outcomeEq, rfl⟩
      cases outcomeEq
      exact second
  | step change next ih => exact ih s first
  | log line next ih => exact ih first
  | pause next ih =>
      rcases first with ⟨outcomeEq, _⟩
      cases outcomeEq
  | crash text =>
      rcases first with ⟨outcomeEq, _⟩
      cases outcomeEq

theorem advance_within {T : Type} {look : S → T} {put : T → S → S} (part : IsPart look put)
    {p : Proc T α} {s : S} {t : T} {a : α} (advanced : p.advance.Returns (look s) (.inr a) t) :
    (p.within look put).advance.Returns s (.inr a) (put t s) := by
  induction p generalizing s with
  | done b =>
      rcases advanced with ⟨outcomeEq, rfl⟩
      cases outcomeEq
      exact ⟨rfl, (part.put_look s).symm⟩
  | step change next ih =>
      have stepped := ih (look s) (s := put (change (look s)) s) (by
        rw [part.look_put]
        exact advanced)
      rw [part.put_put] at stepped
      exact stepped
  | log line next ih => exact ih advanced
  | pause next ih =>
      rcases advanced with ⟨outcomeEq, _⟩
      cases outcomeEq
  | crash text =>
      rcases advanced with ⟨outcomeEq, _⟩
      cases outcomeEq

/-- A procedure that does not suspend ends in its first stretch if it returns. -/
theorem advance_of_run {p : Proc S α} (unpaused : p.unpaused = p) {s s' : S} {a : α}
    (returned : p.run.Returns s a s') : p.advance.Returns s (.inr a) s' := by
  rw [run_eq_advance_bind, returns_bind_iff] at returned
  obtain ⟨left, middle, advanced, ended⟩ := returned
  have whole := advanced
  rw [← unpaused] at whole
  obtain ⟨b, rfl⟩ := unpaused_advance whole
  rcases (returns_pure_iff b a middle s').mp ended with ⟨rfl, rfl⟩
  exact advanced

end Proc

/-- A member that ends at once finds its lock free and leaves it so. -/
theorem Task.resume_of_advance {p : Program σ ω} {w w' : World σ ω} {invocation : Invocation}
    (advanced : p.advance.Returns w (.inr invocation) w') (member : Nat) :
    ((fresh p).resume member).Returns ⟨w, Locks.free⟩ (settled invocation) ⟨w', Locks.free⟩ := by
  have goesOn : GoesOn member ((fresh p).arrive member Locks.free) (fresh p).arrived p := by
    apply GoesOn.held
    intro owner owned
    rw [arrive, owned]
    exact congrArg Lock.holder (Locks.update_same Locks.free owner _)
  have locksEq : p.depart (.inr invocation) ((fresh p).arrive member Locks.free) = Locks.free := by
    funext i
    by_cases owned : p.owner? = some i
    · simp only [Program.depart, arrive, owned, Locks.update_same]
      rfl
    · rw [Program.depart_of_ne owned, arrive]
      cases owned' : p.owner? with
      | none => rfl
      | some owner =>
          apply Locks.update_of_ne
          rintro rfl
          exact owned owned'
  have runs := Resumption.runs (s := ⟨w, Locks.free⟩) goesOn advanced
  rw [locksEq] at runs
  exact runs.returns

namespace Handler

/-- The handlers have the message in turn, and none of them suspends. -/
inductive Promptly (x : Extra) (m : Message) :
    List (Handler σ ω) → World σ ω → List (String × Invocation) → World σ ω → Prop
  | nobody {w : World σ ω} : Promptly x m [] w [] w
  | next {h : Handler σ ω} {rest : List (Handler σ ω)} {w middle w' : World σ ω}
      {invocation : Invocation} {invocations : List (String × Invocation)} :
      (h.program m x).advance.Returns w (.inr invocation) middle →
      Promptly x m rest middle invocations w' →
      Promptly x m (h :: rest) w ((h.name, invocation) :: invocations) w'

variable {x : Extra} {m : Message} {handlers : List (Handler σ ω)} {w w' : World σ ω}
  {invocations : List (String × Invocation)}

theorem Promptly.inTurn (prompt : Promptly x m handlers w invocations w') :
    InTurn x m handlers w invocations w' := by
  induction prompt with
  | nobody => exact .nobody
  | next advanced _ ih =>
      exact .next ((invoke_returns_iff _ m x _ _ _).mpr (Program.run_of_advance advanced)) ih

/-- One round is enough for a cohort of which no member suspends. -/
theorem Promptly.round (prompt : Promptly x m handlers w invocations w') (member : Nat) :
    (Cohort.round member (handlers.map fun h => .fresh (h.program m x))).Returns ⟨w, Locks.free⟩
      (invocations.map fun entry => .settled entry.2) ⟨w', Locks.free⟩ := by
  induction prompt generalizing member with
  | nobody => exact (returns_pure_iff _ _ _ _).mpr ⟨rfl, rfl⟩
  | next advanced _ ih =>
      simp only [List.map_cons, Cohort.round, returns_bind_iff, returns_pure_iff]
      exact ⟨_, _, Task.resume_of_advance advanced member, _, _, ih (member + 1), rfl, rfl⟩

theorem Promptly.run (prompt : Promptly x m handlers w invocations w') :
    (Cohort.run 1 handlers m x).Returns ⟨w, Locks.free⟩ (invocations.map (·.2))
      ⟨w', Locks.free⟩ := by
  have rounded := prompt.round 0
  have settled : Cohort.invocations? (invocations.map fun entry => (.settled entry.2 : Task σ ω)) =
      some (invocations.map (·.2)) := by
    rw [Cohort.invocations?_eq_some_iff, List.map_map]
    rfl
  rw [Cohort.run, returns_onCrash_iff, List.map_map]
  cases prompt with
  | nobody => exact (returns_pure_iff _ _ _ _).mpr ⟨rfl, rfl⟩
  | @next h rest w middle w' invocation invocations advanced _ =>
      have unsettled : Cohort.invocations?
          ((h :: rest).map (Task.fresh ∘ fun h => h.program m x)) = none := by
        simp [Cohort.invocations?, Task.invocation?]
      rw [Cohort.rounds_succ unsettled, returns_bind_iff]
      refine ⟨_, _, rounded, ?_⟩
      rw [Cohort.rounds_of_settled settled]
      exact (returns_pure_iff _ _ _ _).mpr ⟨rfl, rfl⟩

theorem Promptly.named_eq (prompt : Promptly x m handlers w invocations w') :
    AsyncBus.named handlers (invocations.map (·.2)) = invocations := by
  induction prompt with
  | nobody => rfl
  | next _ _ ih => exact congrArg _ ih

theorem Promptly.convenes {handlers : Handlers σ ω}
    (prompt : Promptly x m (handlers.registered m) w invocations w') :
    AsyncBus.Convenes handlers x m w invocations (w'.afterTurn m) :=
  ⟨1, _, w', prompt.run, prompt.named_eq.symm, rfl⟩

/-- On both buses the handlers have the message in turn. -/
theorem Promptly.serves {handlers : Handlers σ ω}
    (prompt : Promptly x m (handlers.registered m) w invocations w') (kind : BusKind) :
    kind.Serves handlers x m w invocations (kind.afterTurn m w') := by
  cases kind with
  | blocking => exact prompt.inTurn
  | suspending => exact prompt.convenes

end Handler

end Courier
