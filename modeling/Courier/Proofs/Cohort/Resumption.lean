import Courier.Proofs.Cohort.Line
import Courier.Proofs.Handler.Program

/-!
# Resuming a member

A member that is resumed for the first time asks for its lock.  Then it waits, if
the lock is not its own, or runs a stretch of its lifecycle: up to its next
suspension, up to its end, where it gives the lock back, or into a crash.
-/

namespace Courier

variable {σ ω : Type}

/-- A stretch of the lifecycle of a member: what it has run between two
suspensions, from what was left of it before to what was left of it then. -/
structure Stretch (σ ω : Type) where
  member : Nat
  program : Program σ ω
  before : World σ ω
  left : Program σ ω ⊕ Invocation
  after : World σ ω

/-- The locks after a stretch of a program: at its end it gives its lock back. -/
def Program.depart (p : Program σ ω) (left : Program σ ω ⊕ Invocation) (locks : Locks) : Locks :=
  match left, p.owner? with
  | .inr _, some owner => locks.update owner Lock.release
  | _, _ => locks

/-- A program has no part in the locks of other instances. -/
theorem Program.depart_of_ne {p : Program σ ω} {i : InstanceId} (other : p.owner? ≠ some i)
    (left : Program σ ω ⊕ Invocation) (locks : Locks) : p.depart left locks i = locks i := by
  unfold depart
  cases left with
  | inl rest => rfl
  | inr invocation =>
      cases ownerEq : p.owner? with
      | none => rfl
      | some owner =>
          apply Locks.update_of_ne
          rintro rfl
          exact other ownerEq

namespace Task

/-- What is left of the lifecycle of a member that has not settled. -/
def program? : Task σ ω → Option (Program σ ω)
  | fresh p => some p
  | queued p => some p
  | active p => some p
  | settled _ => none

/-- Whether a member has not been resumed yet. -/
def isFresh : Task σ ω → Bool
  | fresh _ => true
  | _ => false

/-- Where a member stands after a stretch. -/
def ofLeft : Program σ ω ⊕ Invocation → Task σ ω
  | .inl rest => active rest
  | .inr invocation => settled invocation

/-- Where a member stands once it has asked for its lock. -/
def arrived : Task σ ω → Task σ ω
  | fresh p => queued p
  | task => task

/-- The locks after a member has asked for its own, which it does when it is
resumed for the first time. -/
def arrive (member : Nat) (task : Task σ ω) (locks : Locks) : Locks :=
  match task with
  | fresh p =>
      match p.owner? with
      | some owner => locks.update owner fun l => l.request member
      | none => locks
  | _ => locks

@[simp]
theorem program?_arrived (task : Task σ ω) : task.arrived.program? = task.program? := by
  cases task <;> rfl

theorem program?_of_arrived {task : Task σ ω} {p : Program σ ω}
    (arrivedEq : task.arrived = queued p) :
    task.program? = some p := by
  rw [← program?_arrived, arrivedEq]
  rfl

@[simp]
theorem isFresh_ofLeft (left : Program σ ω ⊕ Invocation) :
    (ofLeft left : Task σ ω).isFresh = false := by
  cases left <;> rfl

/-- A member that has asked for its lock goes on if it needs none, if it has got
it, or if it has been running before. -/
inductive GoesOn (member : Nat) (locks : Locks) : Task σ ω → Program σ ω → Prop
  | held {p : Program σ ω} :
      (∀ owner, p.owner? = some owner → (locks owner).holder = some member) →
      GoesOn member locks (queued p) p
  | running {p : Program σ ω} : GoesOn member locks (active p) p

theorem GoesOn.program?_eq {member : Nat} {locks : Locks} {task : Task σ ω} {p : Program σ ω}
    (goesOn : GoesOn member locks task p) : task.program? = some p := by
  cases goesOn <;> rfl

theorem GoesOn.program?_of_arrived {member : Nat} {locks : Locks} {task : Task σ ω}
    {p : Program σ ω} (goesOn : GoesOn member locks task.arrived p) : task.program? = some p :=
  task.program?_arrived.symm.trans goesOn.program?_eq

/-! ## The three cases -/

theorem resume_fresh (member : Nat) (p : Program σ ω) (s : SharedWorld σ ω) :
    (fresh p).resume member s =
      proceedIfHeld member p ⟨s.world, (fresh p).arrive member s.locks⟩ := by
  cases owned : p.owner? with
  | none => simp only [resume, arrive, owned]
  | some owner =>
      simp only [resume, arrive, owned]
      rfl

/-- A member that has asked for its lock waits or goes on. -/
theorem proceedIfHeld_cases (member : Nat) (p : Program σ ω) (s : SharedWorld σ ω) :
    (∃ owner, p.owner? = some owner ∧ (s.locks owner).holder ≠ some member ∧
      proceedIfHeld member p s = (pure (queued p) : Action _ _) s) ∨
    (GoesOn member s.locks (queued p) p ∧ proceedIfHeld member p s = proceed p s) := by
  unfold proceedIfHeld
  cases owned : p.owner? with
  | none => exact .inr ⟨.held (by simp [owned]), rfl⟩
  | some owner =>
      simp only [bind, Action.bind, Action.get, List.nil_append]
      by_cases held : (s.locks owner).holder = some member
      · rw [if_pos held]
        refine .inr ⟨.held ?_, rfl⟩
        intro other ownedByOther
        rw [owned] at ownedByOther
        cases ownedByOther
        exact held
      · rw [if_neg held]
        exact .inl ⟨owner, rfl, held, rfl⟩

/-- A member that is resumed has settled before, waits, or goes on. -/
theorem resume_cases (member : Nat) (task : Task σ ω) (s : SharedWorld σ ω) :
    (∃ invocation, task = settled invocation ∧
      task.resume member s = (pure task : Action _ _) s) ∨
    (∃ p owner, task.arrived = queued p ∧ p.owner? = some owner ∧
      (task.arrive member s.locks owner).holder ≠ some member ∧
      task.resume member s =
        (pure (queued p) : Action _ _) ⟨s.world, task.arrive member s.locks⟩) ∨
    ∃ p, GoesOn member (task.arrive member s.locks) task.arrived p ∧
      task.resume member s = proceed p ⟨s.world, task.arrive member s.locks⟩ := by
  cases task with
  | fresh p =>
      rw [resume_fresh]
      rcases proceedIfHeld_cases member p ⟨s.world, (fresh p).arrive member s.locks⟩ with
        ⟨owner, owned, notHeld, waits⟩ | ⟨goesOn, runs⟩
      · exact .inr (.inl ⟨p, owner, rfl, owned, notHeld, waits⟩)
      · exact .inr (.inr ⟨p, goesOn, runs⟩)
  | queued p =>
      rcases proceedIfHeld_cases member p s with ⟨owner, owned, notHeld, waits⟩ | ⟨goesOn, runs⟩
      · exact .inr (.inl ⟨p, owner, rfl, owned, notHeld, waits⟩)
      · exact .inr (.inr ⟨p, goesOn, runs⟩)
  | active p => exact .inr (.inr ⟨p, .running, rfl⟩)
  | settled invocation => exact .inl ⟨invocation, rfl, rfl⟩

/-! ## What a resumption leaves -/

/-- A member that goes on runs a stretch, and at the end of it gives its lock
back. -/
theorem proceed_returns {p : Program σ ω} {task : Task σ ω} {s s' : SharedWorld σ ω}
    (returned : (proceed p).Returns s task s') :
    ∃ left w, p.advance.Returns s.world left w ∧ task = ofLeft left ∧
      s' = ⟨w, p.depart left s.locks⟩ := by
  simp only [proceed, Action.returns_bind_iff, Action.returns_within_iff] at returned
  rcases returned with ⟨left, _, ⟨w, advanced, rfl⟩, ended⟩
  refine ⟨left, w, advanced, ?_⟩
  cases left with
  | inl rest =>
      rcases (Action.returns_pure_iff _ _ _ _).mp ended with ⟨rfl, rfl⟩
      exact ⟨rfl, rfl⟩
  | inr invocation =>
      cases owned : p.owner? with
      | none =>
          simp only [owned] at ended
          rcases (Action.returns_pure_iff _ _ _ _).mp ended with ⟨rfl, rfl⟩
          simp [ofLeft, Program.depart, owned, SharedWorld.putWorld]
      | some owner =>
          simp only [owned, Action.returns_bind_iff, Action.returns_modify_iff,
            Action.returns_pure_iff] at ended
          rcases ended with ⟨_, _, rfl, rfl, rfl⟩
          simp [ofLeft, Program.depart, owned, SharedWorld.putWorld, SharedWorld.mapLocks]

/-- A member crashes in its stretch, and the locks stay as they are. -/
theorem proceed_crashes {p : Program σ ω} {text : String} {s s' : SharedWorld σ ω}
    (crashed : (proceed p).Crashes s text s') :
    ∃ w, p.advance.Crashes s.world text w ∧ s' = ⟨w, s.locks⟩ := by
  simp only [proceed, Action.crashes_bind_iff, Action.crashes_within_iff] at crashed
  rcases crashed with ⟨w, crashed, rfl⟩ | ⟨left, _, _, crashed⟩
  · exact ⟨w, crashed, rfl⟩
  · cases left with
    | inl rest => exact absurd crashed (Action.not_crashes_pure _ _ _ _)
    | inr invocation => cases owned : p.owner? <;> simp [owned] at crashed

/-- What becomes of a member that is resumed, and of the world and the locks. -/
inductive Resumption (member : Nat) (s : SharedWorld σ ω) :
    Task σ ω → Task σ ω → SharedWorld σ ω → Prop
  /-- It has settled before. -/
  | stays (invocation : Invocation) :
      Resumption member s (settled invocation) (settled invocation) s
  /-- It waits for its lock. -/
  | waits {task : Task σ ω} {p : Program σ ω} {owner : InstanceId} :
      task.arrived = queued p → p.owner? = some owner →
      (task.arrive member s.locks owner).holder ≠ some member →
      Resumption member s task (queued p) ⟨s.world, task.arrive member s.locks⟩
  /-- It runs a stretch. -/
  | runs {task : Task σ ω} {p : Program σ ω} {left : Program σ ω ⊕ Invocation} {w : World σ ω} :
      GoesOn member (task.arrive member s.locks) task.arrived p →
      p.advance.Returns s.world left w →
      Resumption member s task (ofLeft left) ⟨w, p.depart left (task.arrive member s.locks)⟩

theorem resume_returns {member : Nat} {task task' : Task σ ω} {s s' : SharedWorld σ ω}
    (returned : (task.resume member).Returns s task' s') :
    Resumption member s task task' s' := by
  unfold Action.Returns at returned
  rcases resume_cases member task s with
    ⟨invocation, rfl, resumeEq⟩ | ⟨p, owner, arrivedEq, owned, notHeld, resumeEq⟩ |
      ⟨p, goesOn, resumeEq⟩
  · rw [resumeEq] at returned
    rcases (Action.returns_pure_iff _ _ _ _).mp returned with ⟨rfl, rfl⟩
    exact .stays invocation
  · rw [resumeEq] at returned
    rcases (Action.returns_pure_iff _ _ _ _).mp returned with ⟨rfl, rfl⟩
    exact .waits arrivedEq owned notHeld
  · rw [resumeEq] at returned
    obtain ⟨left, w, advanced, rfl, rfl⟩ := proceed_returns returned
    exact .runs goesOn advanced

/-- A member whose stretch returns goes on so far. -/
theorem returns_proceed {p : Program σ ω} {left : Program σ ω ⊕ Invocation} {s : SharedWorld σ ω}
    {w : World σ ω} (advanced : p.advance.Returns s.world left w) :
    (proceed p).Returns s (ofLeft left) ⟨w, p.depart left s.locks⟩ := by
  simp only [proceed, Action.returns_bind_iff, Action.returns_within_iff]
  refine ⟨left, s.putWorld w, ⟨w, advanced, rfl⟩, ?_⟩
  cases left with
  | inl rest => exact (Action.returns_pure_iff _ _ _ _).mpr ⟨rfl, rfl⟩
  | inr invocation =>
      cases owned : p.owner? with
      | none =>
          simp only [Program.depart, owned]
          exact (Action.returns_pure_iff _ _ _ _).mpr ⟨rfl, rfl⟩
      | some owner =>
          simp only [Program.depart, owned]
          exact (Action.returns_bind_iff _ _ _ _ _).mpr ⟨(), _, ⟨rfl, rfl⟩, ⟨rfl, rfl⟩⟩

/-- What becomes of a member is what its resumption returns. -/
theorem Resumption.returns {member : Nat} {task task' : Task σ ω} {s s' : SharedWorld σ ω}
    (resumption : Resumption member s task task' s') : (task.resume member).Returns s task' s' := by
  unfold Action.Returns
  rcases resume_cases member task s with
    ⟨invocation, rfl, resumeEq⟩ | ⟨p, owner, arrivedEq, owned, notHeld, resumeEq⟩ |
      ⟨p, goesOn, resumeEq⟩
  · rw [resumeEq]
    cases resumption with
    | stays invocation => exact ⟨rfl, rfl⟩
    | waits arrivedEq => cases arrivedEq
    | runs goesOn => cases goesOn
  · rw [resumeEq]
    cases resumption with
    | stays invocation => cases arrivedEq
    | waits arrivedEq' =>
        rw [arrivedEq] at arrivedEq'
        cases arrivedEq'
        exact ⟨rfl, rfl⟩
    | runs goesOn =>
        rw [arrivedEq] at goesOn
        cases goesOn with
        | held held => exact absurd (held owner owned) notHeld
  · rw [resumeEq]
    cases resumption with
    | stays invocation => cases goesOn
    | waits arrivedEq owned notHeld =>
        rw [arrivedEq] at goesOn
        cases goesOn with
        | held held => exact absurd (held _ owned) notHeld
    | runs goesOn' advanced =>
        obtain rfl := Option.some.inj (goesOn.program?_eq.symm.trans goesOn'.program?_eq)
        exact returns_proceed advanced

theorem resume_crashes {member : Nat} {task : Task σ ω} {text : String} {s s' : SharedWorld σ ω}
    (crashed : (task.resume member).Crashes s text s') :
    ∃ p w, GoesOn member (task.arrive member s.locks) task.arrived p ∧
      p.advance.Crashes s.world text w ∧ s' = ⟨w, task.arrive member s.locks⟩ := by
  unfold Action.Crashes at crashed
  rcases resume_cases member task s with
    ⟨_, _, resumeEq⟩ | ⟨_, _, _, _, _, resumeEq⟩ | ⟨p, goesOn, resumeEq⟩
  · rw [resumeEq] at crashed
    exact absurd crashed (Action.not_crashes_pure _ _ _ _)
  · rw [resumeEq] at crashed
    exact absurd crashed (Action.not_crashes_pure _ _ _ _)
  · rw [resumeEq] at crashed
    obtain ⟨w, stretchCrashed, rfl⟩ := proceed_crashes crashed
    exact ⟨p, w, goesOn, stretchCrashed, rfl⟩

/-- The stretch that a member has run when it was resumed, if it has run one. -/
def stretch? (member : Nat) (task task' : Task σ ω) (before after : World σ ω) :
    Option (Stretch σ ω) :=
  match task.program?, task' with
  | some p, active rest => some ⟨member, p, before, .inl rest, after⟩
  | some p, settled invocation => some ⟨member, p, before, .inr invocation, after⟩
  | _, _ => none

theorem stretch?_ofLeft {member : Nat} {task : Task σ ω} {p : Program σ ω}
    (programEq : task.program? = some p) (left : Program σ ω ⊕ Invocation)
    (before after : World σ ω) :
    stretch? member task (ofLeft left) before after = some ⟨member, p, before, left, after⟩ := by
  cases left <;> simp [stretch?, programEq, ofLeft]

theorem stretch?_queued (member : Nat) (task : Task σ ω) (p : Program σ ω)
    (before after : World σ ω) : stretch? member task (queued p) before after = none := by
  cases task <;> rfl

end Task

end Courier
