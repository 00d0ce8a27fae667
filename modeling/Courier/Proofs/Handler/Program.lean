import Courier.Bus.Cohort
import Courier.Proofs.Handler.Procedure

/-!
# Invocations as programs

What is to be done for an invocation is a program: the procedure of its handler,
and the instance that the procedure belongs to.  Run to its end it does what the
blocking invocation does, wherever it suspends; and it touches no instance but
its own.
-/

namespace Courier

open Courier.Action

variable {σ ω : Type}

namespace World

theorem isPart_view (i : InstanceId) :
    IsPart (view i) (putView i : View σ ω → World σ ω → World σ ω) where
  look_put v w := by simp [view, putView]
  put_look w := by
    simp only [putView, view]
    congr
    funext j
    split
    · rename_i same
      rw [same]
    · rfl
  put_put v v' w := by
    simp only [putView, mk.injEq, true_and, and_true]
    funext j
    split <;> rfl

theorem isPart_plainView :
    IsPart plainView (putPlainView : View Unit ω → World σ ω → World σ ω) where
  look_put _ _ := rfl
  put_look _ := rfl
  put_put _ _ _ := rfl

end World

namespace Program

/-- Run a program to its end. -/
def run : Program σ ω → Action (World σ ω) Invocation
  | owned owner rest => rest.run.within (World.view owner) (World.putView owner)
  | free rest => rest.run.within World.plainView World.putPlainView

/-- The same program without its suspensions. -/
def unpaused : Program σ ω → Program σ ω
  | owned owner rest => owned owner rest.unpaused
  | free rest => free rest.unpaused

@[simp]
theorem run_unpaused (p : Program σ ω) : p.unpaused.run = p.run := by
  cases p <;> simp [unpaused, run]

/-- What is left of a program after a stretch is what is left of its procedure. -/
private theorem stretch_returns_iff {T : Type} {look : World σ ω → T}
    {put : T → World σ ω → World σ ω} (part : IsPart look put)
    (wrap : Proc T Invocation → Program σ ω)
    (next : Proc T Invocation ⊕ Invocation → Action T (Program σ ω ⊕ Invocation))
    (nextEq : ∀ rests, next rests = pure (rests.map wrap id)) (rest : Proc T Invocation)
    (w w' : World σ ω) (left : Program σ ω ⊕ Invocation) :
    ((rest.advance >>= next).within look put).Returns w left w' ↔
      ∃ rests, (rest.advance.within look put).Returns w rests w' ∧ rests.map wrap id = left := by
  simp only [part.returns_within_bind_iff, nextEq, part.returns_within_pure_iff]
  constructor
  · rintro ⟨rests, _, advanced, rfl, rfl⟩
    exact ⟨rests, advanced, rfl⟩
  · rintro ⟨rests, advanced, rfl⟩
    exact ⟨rests, w', advanced, rfl, rfl⟩

/-- A program of an instance is advanced on what the instance sees. -/
theorem owned_advance_returns_iff (owner : InstanceId) (rest : Proc (View σ ω) Invocation)
    (w w' : World σ ω) (left : Program σ ω ⊕ Invocation) :
    (owned owner rest).advance.Returns w left w' ↔
      ∃ rests, (rest.advance.within (World.view owner) (World.putView owner)).Returns w rests w' ∧
        rests.map (owned owner) id = left := by
  rw [advance]
  exact stretch_returns_iff (World.isPart_view owner) (owned owner) _
    (fun rests => by cases rests <;> rfl) rest w w' left

/-- A program of no instance is advanced on what all handlers see. -/
theorem free_advance_returns_iff (rest : Proc (View Unit ω) Invocation) (w w' : World σ ω)
    (left : Program σ ω ⊕ Invocation) :
    (free rest).advance.Returns w left w' ↔
      ∃ rests, (rest.advance.within World.plainView World.putPlainView).Returns w rests w' ∧
        rests.map free id = left := by
  rw [advance]
  exact stretch_returns_iff World.isPart_plainView free _ (fun rests => by cases rests <;> rfl)
    rest w w' left

/-- A program that is resumed suspends, ends or crashes. -/
theorem advance_ne_unfinished (p : Program σ ω) (w : World σ ω) :
    (p.advance w).outcome ≠ .unfinished := by
  cases p with
  | owned owner rest =>
      apply bind_ne_unfinished (rest.advance_ne_unfinished _)
      intro rests _ _
      cases rests <;> exact pure_ne_unfinished _ _
  | free rest =>
      apply bind_ne_unfinished (rest.advance_ne_unfinished _)
      intro rests _ _
      cases rests <;> exact pure_ne_unfinished _ _

/-- Run what a stretch has left. -/
def finish : Program σ ω ⊕ Invocation → Action (World σ ω) Invocation :=
  Sum.elim run pure

private theorem run_returns_iff_stretch {T : Type} {look : World σ ω → T}
    {put : T → World σ ω → World σ ω} (part : IsPart look put)
    (wrap : Proc T Invocation → Program σ ω)
    (runWrap : ∀ rest, (wrap rest).run = rest.run.within look put) (rest : Proc T Invocation)
    (w w' : World σ ω) (invocation : Invocation) :
    (rest.run.within look put).Returns w invocation w' ↔
      ∃ rests middle, (rest.advance.within look put).Returns w rests middle ∧
        (finish (rests.map wrap id)).Returns middle invocation w' := by
  rw [rest.run_eq_advance_bind, part.returns_within_bind_iff]
  constructor
  · rintro ⟨rests, middle, advanced, ended⟩
    refine ⟨rests, middle, advanced, ?_⟩
    cases rests with
    | inl rest =>
        show (wrap rest).run.Returns middle invocation w'
        rw [runWrap]
        exact ended
    | inr invocation =>
        exact (returns_pure_iff _ _ _ _).mpr ((part.returns_within_pure_iff _ _ _ _).mp ended)
  · rintro ⟨rests, middle, advanced, ended⟩
    refine ⟨rests, middle, advanced, ?_⟩
    cases rests with
    | inl rest =>
        change (wrap rest).run.Returns middle invocation w' at ended
        rw [runWrap] at ended
        exact ended
    | inr invocation =>
        exact (part.returns_within_pure_iff _ _ _ _).mpr ((returns_pure_iff _ _ _ _).mp ended)

/-- Running a program is running its first stretch and then what is left. -/
theorem run_returns_iff_advance (p : Program σ ω) (w w' : World σ ω) (invocation : Invocation) :
    p.run.Returns w invocation w' ↔
      ∃ left middle, p.advance.Returns w left middle ∧
        (finish left).Returns middle invocation w' := by
  cases p with
  | owned owner rest =>
      simp only [run, owned_advance_returns_iff]
      rw [run_returns_iff_stretch (World.isPart_view owner) (owned owner) fun _ => rfl]
      constructor
      · rintro ⟨rests, middle, advanced, ended⟩
        exact ⟨_, middle, ⟨rests, advanced, rfl⟩, ended⟩
      · rintro ⟨_, middle, ⟨rests, advanced, rfl⟩, ended⟩
        exact ⟨rests, middle, advanced, ended⟩
  | free rest =>
      simp only [run, free_advance_returns_iff]
      rw [run_returns_iff_stretch World.isPart_plainView free fun _ => rfl]
      constructor
      · rintro ⟨rests, middle, advanced, ended⟩
        exact ⟨_, middle, ⟨rests, advanced, rfl⟩, ended⟩
      · rintro ⟨_, middle, ⟨rests, advanced, rfl⟩, ended⟩
        exact ⟨rests, middle, advanced, ended⟩

/-- A program that ends in its first stretch returns. -/
theorem run_of_advance {p : Program σ ω} {w w' : World σ ω} {invocation : Invocation}
    (advanced : p.advance.Returns w (.inr invocation) w') : p.run.Returns w invocation w' :=
  (p.run_returns_iff_advance w w' invocation).mpr
    ⟨.inr invocation, w', advanced, (returns_pure_iff _ _ _ _).mpr ⟨rfl, rfl⟩⟩

/-- A program stays with its instance. -/
theorem owner?_of_advance {p rest : Program σ ω} {w w' : World σ ω}
    (advanced : p.advance.Returns w (.inl rest) w') : rest.owner? = p.owner? := by
  cases p with
  | owned owner q =>
      rcases (owned_advance_returns_iff owner q w w' _).mp advanced with ⟨rests, _, leftEq⟩
      cases rests <;> cases leftEq
      rfl
  | free q =>
      rcases (free_advance_returns_iff q w w' _).mp advanced with ⟨rests, _, leftEq⟩
      cases rests <;> cases leftEq
      rfl

/-- A stretch of a program leaves the instances of others alone, however it ends. -/
theorem instances_advance (p : Program σ ω) (w : World σ ω) {i : InstanceId}
    (other : p.owner? ≠ some i) : (p.advance w).state.instances i = w.instances i := by
  cases p with
  | owned owner q => exact if_neg fun same => other (congrArg some same.symm)
  | free q => rfl

theorem instances_of_advance {p : Program σ ω} {w w' : World σ ω} {left : Program σ ω ⊕ Invocation}
    (advanced : p.advance.Returns w left w') {i : InstanceId} (other : p.owner? ≠ some i) :
    w'.instances i = w.instances i := by
  rw [← advanced.2]
  exact p.instances_advance w other

/-- Without suspensions the first stretch is the whole. -/
theorem unpaused_advance {p : Program σ ω} {w w' : World σ ω} {left : Program σ ω ⊕ Invocation}
    (advanced : p.unpaused.advance.Returns w left w') : ∃ invocation, left = .inr invocation := by
  cases p with
  | owned owner q =>
      rcases (owned_advance_returns_iff owner _ w w' _).mp advanced with ⟨_, stretched, leftEq⟩
      rcases (returns_within_iff _ _ _ _ _ _).mp stretched with ⟨_, inner, _⟩
      obtain ⟨invocation, rfl⟩ := Proc.unpaused_advance inner
      exact ⟨invocation, leftEq.symm⟩
  | free q =>
      rcases (free_advance_returns_iff _ w w' _).mp advanced with ⟨_, stretched, leftEq⟩
      rcases (returns_within_iff _ _ _ _ _ _).mp stretched with ⟨_, inner, _⟩
      obtain ⟨invocation, rfl⟩ := Proc.unpaused_advance inner
      exact ⟨invocation, leftEq.symm⟩

/-- What may be left of a program when it suspends. -/
def Remainder (rest p : Program σ ω) : Prop :=
  ∃ w w', p.advance.Returns w (.inl rest) w'

/-- No program can suspend for ever. -/
theorem remainder_wellFounded : WellFounded (Remainder : Program σ ω → Program σ ω → Prop) := by
  refine ⟨fun p => ?_⟩
  cases p with
  | owned owner q =>
      induction Proc.remainder_wellFounded.apply q with
      | intro q _ ih =>
          refine ⟨_, ?_⟩
          rintro rest ⟨w, w', advanced⟩
          obtain ⟨rests, stretched, leftEq⟩ :=
            (owned_advance_returns_iff owner q w w' _).mp advanced
          rcases (returns_within_iff _ _ _ _ _ _).mp stretched with ⟨v, inner, _⟩
          cases rests <;> cases leftEq
          exact ih _ ⟨_, v, inner⟩
  | free q =>
      induction Proc.remainder_wellFounded.apply q with
      | intro q _ ih =>
          refine ⟨_, ?_⟩
          rintro rest ⟨w, w', advanced⟩
          rcases (free_advance_returns_iff q w w' _).mp advanced with ⟨rests, stretched, leftEq⟩
          rcases (returns_within_iff _ _ _ _ _ _).mp stretched with ⟨v, inner, _⟩
          cases rests <;> cases leftEq
          exact ih _ ⟨_, v, inner⟩

end Program

/-! ## What handlers do -/

/-- What a lifecycle comes to once the hook before it has ended. -/
def Lifecycle.checked (h : Lifecycle σ ω) (m : Message) (x : Extra) :
    Except HandlerError Unit → Proc (View σ ω) Invocation
  | .error e => .done ⟨.error e, []⟩
  | .ok () => (h.core m x).bind fun invocation => h.after.bind fun _ => .done invocation

theorem Lifecycle.procedure_eq_bind (h : Lifecycle σ ω) (m : Message) (x : Extra) :
    h.procedure m x = h.before.bind (h.checked m x) := by
  apply congrArg h.before.bind
  funext result
  cases result <;> rfl

/-- Where nothing crashes, a lifecycle is its procedure run to the end. -/
theorem Lifecycle.invoke_returns_iff (h : Lifecycle σ ω) (m : Message) (x : Extra)
    (v v' : View σ ω) (invocation : Invocation) :
    (h.invoke m x).Returns v invocation v' ↔ (h.procedure m x).run.Returns v invocation v' := by
  have procedureEq : (h.procedure m x).run =
      h.before.run >>= fun result => (h.checked m x result).run := by
    rw [procedure_eq_bind]
    exact Proc.run_bind _ _
  rw [procedureEq, Lifecycle.invoke]
  simp only [returns_bind_iff]
  apply exists_congr
  intro result
  apply exists_congr
  intro middle
  apply and_congr_right
  intro _
  cases result with
  | error e => rfl
  | ok u =>
      have checkedEq : (h.checked m x (.ok u)).run =
          (h.core m x).run >>= fun invocation => h.after.run >>= fun _ => pure invocation := by
        rw [checked, Proc.run_bind]
        apply congrArg ((h.core m x).run >>= ·)
        funext invocation
        rw [Proc.run_bind]
        rfl
      simp only [returns_ensuring_iff, checkedEq, returns_bind_iff, returns_pure_iff]
      constructor
      · rintro ⟨between, first, second⟩
        exact ⟨invocation, between, first, (), v', second, rfl, rfl⟩
      · rintro ⟨_, between, first, _, _, second, rfl, rfl⟩
        exact ⟨between, first, second⟩

namespace Handler

/-- Where nothing crashes, a blocking invocation is the program of the handler
run to its end. -/
theorem invoke_returns_iff (h : Handler σ ω) (m : Message) (x : Extra) (w w' : World σ ω)
    (invocation : Invocation) :
    (h.invoke m x).Returns w invocation w' ↔ (h.program m x).run.Returns w invocation w' := by
  unfold invoke program
  by_cases accepted : m.type ≠ h.accepts
  · rw [if_pos accepted, if_pos accepted]
    exact (returns_pure_iff _ _ _ _).trans
      (World.isPart_plainView.returns_within_pure_iff _ _ _ _).symm
  · rw [if_neg accepted, if_neg accepted]
    cases h.behavior with
    | stateful owner lifecycle =>
        simp only [Program.run, returns_within_iff, lifecycle.invoke_returns_iff]
    | plain routine =>
        have routineEq : (do return ⟨← routine m x, []⟩ : Proc (View Unit ω) Invocation).run =
            (do return ⟨← (routine m x).run, []⟩ : Action (View Unit ω) Invocation) :=
          Proc.run_bind _ _
        simp only [Program.run, routineEq]

end Handler

end Courier
