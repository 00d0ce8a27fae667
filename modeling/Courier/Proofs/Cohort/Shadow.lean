import Courier.Proofs.Cohort.Resumption
import Courier.Proofs.Handler.Shadow
import Mathlib.Data.List.Forall2

/-!
# Cohorts of recorded handlers

A cohort of recorded handlers does on the current world what the cohort of the handlers does: its
members ask for the same locks, suspend at the same places, and settle, crash or wait in the same
rounds.
-/

namespace Courier

variable {σ ω : Type}

/-- The shared world without the diaries of its instances. -/
def SharedWorld.current (s : SharedWorld (Diary σ) ω) : SharedWorld σ ω :=
  ⟨s.world.current, s.locks⟩

/-- The second shared world is the first without the diaries. -/
abbrev SharedWorld.IsCurrent (s : SharedWorld (Diary σ) ω) (t : SharedWorld σ ω) : Prop :=
  s.current = t

namespace Task

/-- The first task does on the current world what the second does. -/
inductive Shadows : Task (Diary σ) ω → Task σ ω → Prop
  | fresh {q : Program (Diary σ) ω} {p : Program σ ω} :
      q.Shadows p → Shadows (fresh q) (fresh p)
  | queued {q : Program (Diary σ) ω} {p : Program σ ω} :
      q.Shadows p → Shadows (queued q) (queued p)
  | active {q : Program (Diary σ) ω} {p : Program σ ω} :
      q.Shadows p → Shadows (active q) (active p)
  | settled (invocation : Invocation) : Shadows (settled invocation) (settled invocation)

/-- A change of the locks concerns no diary. -/
theorem mapLocks_matches (change : Locks → Locks) :
    Action.Matches (SharedWorld.IsCurrent (σ := σ) (ω := ω)) (fun _ _ => True)
      (.modify fun w => w.mapLocks change) (.modify fun w => w.mapLocks change) := by
  apply Action.Matches.modify
  rintro s _ rfl
  rfl

variable {q : Program (Diary σ) ω} {p : Program σ ω}

theorem proceed_matches (shadows : q.Shadows p) :
    Action.Matches SharedWorld.IsCurrent Shadows (proceed q) (proceed p) := by
  have stretch : Action.Matches SharedWorld.IsCurrent (Sum.LiftRel Program.Shadows Eq)
      (q.advance.within SharedWorld.world SharedWorld.putWorld)
      (p.advance.within SharedWorld.world SharedWorld.putWorld) := by
    apply shadows.advance.within
    · rintro s _ rfl
      rfl
    · rintro s _ d _ rfl rfl
      rfl
  apply stretch.bind
  rintro _ _ (left | ⟨rfl⟩)
  · exact .pure (.active left)
  · rw [shadows.owner?_eq]
    cases p.owner? with
    | none => exact .pure (.settled _)
    | some owner => exact (mapLocks_matches _).bind fun _ _ _ => .pure (.settled _)

theorem proceedIfHeld_matches (member : Nat) (shadows : q.Shadows p) :
    Action.Matches SharedWorld.IsCurrent Shadows (proceedIfHeld member q)
      (proceedIfHeld member p) := by
  unfold proceedIfHeld
  rw [shadows.owner?_eq]
  cases p.owner? with
  | none => exact proceed_matches shadows
  | some owner =>
      apply Action.Matches.get.bind
      rintro s _ rfl
      by_cases held : (s.locks owner).holder = some member
      · have heldToo : (s.current.locks owner).holder = some member := held
        rw [if_pos held, if_pos heldToo]
        exact proceed_matches shadows
      · have notHeld : (s.current.locks owner).holder ≠ some member := held
        rw [if_neg held, if_neg notHeld]
        exact .pure (.queued shadows)

theorem Shadows.resume {task : Task (Diary σ) ω} {task' : Task σ ω} (shadows : task.Shadows task')
    (member : Nat) :
    Action.Matches SharedWorld.IsCurrent Shadows (task.resume member) (task'.resume member) := by
  cases shadows with
  | @fresh q p shadows =>
      simp only [Task.resume, shadows.owner?_eq]
      cases p.owner? with
      | none => exact proceedIfHeld_matches member shadows
      | some owner =>
          exact (mapLocks_matches _).bind fun _ _ _ => proceedIfHeld_matches member shadows
  | queued shadows => exact proceedIfHeld_matches member shadows
  | active shadows => exact proceed_matches shadows
  | settled invocation => exact .pure (.settled invocation)

theorem Shadows.invocation?_eq {task : Task (Diary σ) ω} {task' : Task σ ω}
    (shadows : task.Shadows task') : task.invocation? = task'.invocation? := by
  cases shadows <;> rfl

end Task

namespace Cohort

/-- Where nothing is left to be done the members agree. -/
theorem invocations?_eq_of_shadows {tasks : List (Task (Diary σ) ω)} {tasks' : List (Task σ ω)}
    (shadows : List.Forall₂ Task.Shadows tasks tasks') :
    invocations? tasks = invocations? tasks' := by
  unfold invocations?
  induction shadows with
  | nil => rfl
  | cons first _ ih => rw [List.mapM_cons, List.mapM_cons, first.invocation?_eq, ih]

theorem round_matches (member : Nat) {tasks : List (Task (Diary σ) ω)} {tasks' : List (Task σ ω)}
    (shadows : List.Forall₂ Task.Shadows tasks tasks') :
    Action.Matches SharedWorld.IsCurrent (List.Forall₂ Task.Shadows) (round member tasks)
      (round member tasks') := by
  induction shadows generalizing member with
  | nil => exact .pure .nil
  | cons first _ ih =>
      apply (first.resume member).bind
      intro task task' resumed
      apply (ih (member + 1)).bind
      intro others others' rest
      exact .pure (.cons resumed rest)

theorem rounds_matches (budget : Nat) {tasks : List (Task (Diary σ) ω)}
    {tasks' : List (Task σ ω)} (shadows : List.Forall₂ Task.Shadows tasks tasks') :
    Action.Matches SharedWorld.IsCurrent Eq (rounds budget tasks) (rounds budget tasks') := by
  induction budget generalizing tasks tasks' with
  | zero =>
      unfold rounds
      rw [invocations?_eq_of_shadows shadows]
      cases invocations? tasks' with
      | none => exact .cutOff
      | some invocations => exact .pure rfl
  | succ budget ih =>
      unfold rounds
      rw [invocations?_eq_of_shadows shadows]
      cases invocations? tasks' with
      | none => exact (round_matches 0 shadows).bind fun _ _ resumed => ih resumed
      | some invocations => exact .pure rfl

/-- The locks that are given up depend on the instances of the members alone. -/
theorem drop_eq_of_shadows (member : Nat) {programs : List (Program (Diary σ) ω)}
    {programs' : List (Program σ ω)} (shadows : List.Forall₂ Program.Shadows programs programs')
    (locks : Locks) : drop member programs locks = drop member programs' locks := by
  induction shadows generalizing member locks with
  | nil => rfl
  | cons first _ ih =>
      unfold drop
      rw [first.owner?_eq]
      exact ih (member + 1) _

theorem shadows_programs_recorded (handlers : List (Handler σ ω)) (m : Message) (x : Extra) :
    List.Forall₂ Program.Shadows ((handlers.map Handler.recorded).map fun h => h.program m x)
      (handlers.map fun h => h.program m x) := by
  rw [List.map_map, List.forall₂_map_left_iff, List.forall₂_map_right_iff]
  exact List.forall₂_same.mpr fun h _ => h.shadows_program_recorded m x

theorem run_matches (budget : Nat) (handlers : List (Handler σ ω)) (m : Message) (x : Extra) :
    Action.Matches SharedWorld.IsCurrent Eq (run budget (handlers.map Handler.recorded) m x)
      (run budget handlers m x) := by
  have shadows := shadows_programs_recorded handlers m x
  apply Action.Matches.onCrash
  · apply rounds_matches
    rw [List.forall₂_map_left_iff, List.forall₂_map_right_iff]
    exact shadows.imp fun _ _ => .fresh
  · rintro s _ rfl
    show (s.mapLocks _).current = s.current.mapLocks _
    simp only [SharedWorld.mapLocks, SharedWorld.current, drop_eq_of_shadows 0 shadows]

end Cohort

end Courier
