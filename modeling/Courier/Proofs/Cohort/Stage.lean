import Courier.Proofs.Budget
import Courier.Proofs.Cohort.Resumption

/-!
# The stages of a cohort

Between two members that are resumed a cohort stands at a stage: so many members
have had their turn in the round, the others have not, and the instances and
their locks are as they are.  `Cohort.Reaches` collects the stages that a cohort
can get to, each with the stretches that were run until then.
-/

namespace Courier

variable {σ ω : Type}

namespace Cohort

/-! ## Rounds -/

theorem rounds_of_settled {tasks : List (Task σ ω)} {invocations : List Invocation}
    (settled : invocations? tasks = some invocations) (budget : Nat) :
    rounds budget tasks = pure invocations := by
  cases budget <;> simp only [rounds, settled]

theorem rounds_zero {tasks : List (Task σ ω)} (unsettled : invocations? tasks = none) :
    rounds 0 tasks = Action.cutOff := by
  simp only [rounds, unsettled]

theorem rounds_succ {tasks : List (Task σ ω)} (unsettled : invocations? tasks = none)
    (budget : Nat) : rounds (budget + 1) tasks = round 0 tasks >>= rounds budget := by
  simp only [rounds, unsettled]

/-- A cohort that comes to its end does so however many more rounds it is allowed. -/
theorem rounds_approximates {budget larger : Nat} (le : budget ≤ larger)
    (tasks : List (Task σ ω)) :
    Action.Approximates (rounds budget tasks) (rounds larger tasks) := by
  induction budget generalizing larger tasks with
  | zero =>
      cases settled : invocations? tasks with
      | none =>
          rw [rounds_zero settled]
          exact .cutOff _
      | some invocations =>
          rw [rounds_of_settled settled, rounds_of_settled settled]
          exact .refl _
  | succ budget ih =>
      obtain ⟨larger, rfl⟩ := Nat.exists_eq_add_of_le' le
      cases settled : invocations? tasks with
      | none =>
          rw [rounds_succ settled, ← Nat.add_assoc, rounds_succ settled]
          exact (Action.Approximates.refl _).bind fun _ => ih (Nat.le_add_left _ _) _
      | some invocations =>
          rw [rounds_of_settled settled, rounds_of_settled settled]
          exact .refl _

/-- A cohort has settled when all its members have. -/
theorem invocations?_eq_some_iff (tasks : List (Task σ ω)) (invocations : List Invocation) :
    invocations? tasks = some invocations ↔ tasks = invocations.map .settled := by
  induction tasks generalizing invocations with
  | nil => cases invocations <;> simp [invocations?]
  | cons task rest ih =>
      unfold invocations? at ih ⊢
      cases task with
      | settled invocation =>
          rw [List.mapM_cons]
          cases invocations with
          | nil => simp [Task.invocation?, Option.bind_eq_some_iff]
          | cons first others =>
              simpa [Task.invocation?, Option.bind_eq_some_iff, ih] using and_comm
      | _ => cases invocations <;> simp [Task.invocation?]

/-- Members that have settled stay as they are in a round. -/
theorem round_of_settled {member : Nat} {invocations : List Invocation}
    {tasks : List (Task σ ω)} {s s' : SharedWorld σ ω}
    (returned : (round member (invocations.map .settled)).Returns s tasks s') :
    tasks = invocations.map .settled ∧ s' = s := by
  induction invocations generalizing member tasks s with
  | nil => exact (Action.returns_pure_iff _ _ _ _).mp returned |>.imp Eq.symm Eq.symm
  | cons invocation rest ih =>
      simp only [List.map_cons, round, Action.returns_bind_iff, Action.returns_pure_iff] at returned
      obtain ⟨_, _, ⟨outcomeEq, rfl⟩, others, _, continued, rfl, rfl⟩ := returned
      cases outcomeEq
      rcases ih continued with ⟨rfl, rfl⟩
      exact ⟨rfl, rfl⟩

/-- A cohort settles if it does so after a round. -/
theorem rounds_returns_of_round {budget : Nat} {tasks tasks' : List (Task σ ω)}
    {s middle s' : SharedWorld σ ω} {invocations : List Invocation}
    (rounded : (round 0 tasks).Returns s tasks' middle)
    (returned : (rounds budget tasks').Returns middle invocations s') :
    (rounds (budget + 1) tasks).Returns s invocations s' := by
  cases settled : invocations? tasks with
  | none =>
      rw [rounds_succ settled, Action.returns_bind_iff]
      exact ⟨tasks', middle, rounded, returned⟩
  | some all =>
      rw [invocations?_eq_some_iff] at settled
      subst settled
      rcases round_of_settled rounded with ⟨rfl, rfl⟩
      exact (rounds_approximates (Nat.le_succ budget) _).returns returned

/-! ## Stages -/

/-- A cohort in the course of a round. -/
structure Stage (σ ω : Type) where
  /-- The members that have been resumed in this round, in registration order. -/
  resumed : List (Task σ ω)
  /-- The members that are still to be resumed in this round, in this order. -/
  pending : List (Task σ ω)
  shared : SharedWorld σ ω

namespace Stage

/-- All members, in registration order. -/
def tasks (stage : Stage σ ω) : List (Task σ ω) :=
  stage.resumed ++ stage.pending

/-- A member is in the middle of its lifecycle on an instance. -/
def Holds (stage : Stage σ ω) (i : InstanceId) (member : Nat) : Prop :=
  ∃ p, stage.tasks[member]? = some (.active p) ∧ p.owner? = some i

end Stage

/-- The stages that a cohort with given programs can get to from a given world
and locks, each with the stretches that were run until then, in their order. -/
inductive Reaches (programs : List (Program σ ω)) (start : SharedWorld σ ω) :
    List (Stretch σ ω) → Stage σ ω → Prop
  | start : Reaches programs start [] ⟨[], programs.map .fresh, start⟩
  | resume {trace : List (Stretch σ ω)} {resumed pending : List (Task σ ω)}
      {task task' : Task σ ω} {s s' : SharedWorld σ ω} :
      Reaches programs start trace ⟨resumed, task :: pending, s⟩ →
      (task.resume resumed.length).Returns s task' s' →
      Reaches programs start
        (trace ++ (Task.stretch? resumed.length task task' s.world s'.world).toList)
        ⟨resumed ++ [task'], pending, s'⟩
  | round {trace : List (Stretch σ ω)} {tasks : List (Task σ ω)} {s : SharedWorld σ ω} :
      Reaches programs start trace ⟨tasks, [], s⟩ → invocations? tasks = none →
      Reaches programs start trace ⟨[], tasks, s⟩

/-- Nothing but the task at one place differs. -/
theorem getElem?_of_ne {front back : List (Task σ ω)} {task : Task σ ω} {k : Nat}
    (other : k ≠ front.length) (task' : Task σ ω) :
    (front ++ task' :: back)[k]? = (front ++ task :: back)[k]? := by
  simp only [List.getElem?_append, List.getElem?_cons]
  split
  · rfl
  · rw [if_neg (by omega), if_neg (by omega)]

theorem getElem?_at (front back : List (Task σ ω)) (task : Task σ ω) :
    (front ++ task :: back)[front.length]? = some task := by
  simp

variable {programs : List (Program σ ω)} {start : SharedWorld σ ω}

/-- A cohort keeps its members. -/
theorem Reaches.length_eq {trace : List (Stretch σ ω)} {stage : Stage σ ω}
    (reached : Reaches programs start trace stage) : stage.tasks.length = programs.length := by
  induction reached with
  | start => simp [Stage.tasks]
  | resume _ _ ih => simpa [Stage.tasks] using ih
  | round _ _ ih => simpa [Stage.tasks] using ih

/-- What holds of the programs at the start and survives every stretch holds of
what is left of them at every stage. -/
theorem Reaches.forall_program {P : Nat → Program σ ω → Prop} {trace : List (Stretch σ ω)}
    {stage : Stage σ ω} (reached : Reaches programs start trace stage)
    (holds : ∀ k p, programs[k]? = some p → P k p)
    (kept : ∀ k p w rest w', P k p → p.advance.Returns w (.inl rest) w' → P k rest) :
    ∀ k task p, stage.tasks[k]? = some task → task.program? = some p → P k p := by
  induction reached with
  | start =>
      intro k task p taskEq programEq
      simp only [Stage.tasks, List.nil_append, List.getElem?_map, Option.map_eq_some_iff] at taskEq
      rcases taskEq with ⟨q, qEq, rfl⟩
      cases programEq
      exact holds k p qEq
  | @resume trace resumed pending task task' s s' reached returned ih =>
      have before := ih resumed.length task
      simp only [Stage.tasks] at before ih ⊢
      rw [List.append_assoc, List.singleton_append]
      intro k other p otherEq programEq
      by_cases same : k = resumed.length
      · subst same
        rw [getElem?_at] at otherEq before
        cases otherEq
        cases Task.resume_returns returned with
        | stays invocation => contradiction
        | waits arrivedEq =>
            cases programEq
            apply before p rfl
            rw [← Task.program?_arrived, arrivedEq]
            rfl
        | @runs _ q left w goesOn advanced =>
            cases left with
            | inr invocation => contradiction
            | inl rest =>
                cases programEq
                refine kept _ q s.world p w (before q rfl ?_) advanced
                rw [← Task.program?_arrived, goesOn.program?_eq]
      · rw [getElem?_of_ne same] at otherEq
        exact ih k other p otherEq programEq
  | round _ _ ih => simpa [Stage.tasks] using ih

/-- A round leads from stage to stage. -/
theorem Reaches.of_round {trace : List (Stretch σ ω)} {resumed pending tasks : List (Task σ ω)}
    {s s' : SharedWorld σ ω} (reached : Reaches programs start trace ⟨resumed, pending, s⟩)
    (returned : (Cohort.round resumed.length pending).Returns s tasks s') :
    ∃ trace, Reaches programs start trace ⟨resumed ++ tasks, [], s'⟩ := by
  induction pending generalizing trace resumed tasks s with
  | nil =>
      rcases (Action.returns_pure_iff _ _ _ _).mp returned with ⟨rfl, rfl⟩
      exact ⟨trace, by simpa using reached⟩
  | cons task pending ih =>
      simp only [Cohort.round, Action.returns_bind_iff, Action.returns_pure_iff] at returned
      rcases returned with ⟨task', middle, resumedOne, others, _, continued, rfl, rfl⟩
      have nextReached := reached.resume resumedOne
      rw [← List.length_singleton (a := task'), ← List.length_append] at continued
      obtain ⟨trace', finished⟩ := ih nextReached continued
      exact ⟨trace', by simpa using finished⟩

/-- A cohort crashes when a member crashes that is resumed at some stage. -/
def CrashesAt (programs : List (Program σ ω)) (start : SharedWorld σ ω) (text : String)
    (s' : SharedWorld σ ω) : Prop :=
  ∃ trace resumed task pending s, Reaches programs start trace ⟨resumed, task :: pending, s⟩ ∧
    (Task.resume resumed.length task).Crashes s text s'

theorem Reaches.of_round_crashes {trace : List (Stretch σ ω)} {resumed pending : List (Task σ ω)}
    {s s' : SharedWorld σ ω} {text : String}
    (reached : Reaches programs start trace ⟨resumed, pending, s⟩)
    (crashed : (Cohort.round resumed.length pending).Crashes s text s') :
    CrashesAt programs start text s' := by
  induction pending generalizing trace resumed s with
  | nil => exact absurd crashed (Action.not_crashes_pure _ _ _ _)
  | cons task pending ih =>
      simp only [Cohort.round, Action.crashes_bind_iff, Action.not_crashes_pure] at crashed
      rcases crashed with crashed | ⟨task', middle, resumedOne, crashed | ⟨_, _, _, false⟩⟩
      · exact ⟨trace, resumed, task, pending, s, reached, crashed⟩
      · have nextReached := reached.resume resumedOne
        rw [← List.length_singleton (a := task'), ← List.length_append] at crashed
        exact ih nextReached crashed
      · exact false.elim

/-- A cohort that settles does so at a stage that it can get to. -/
theorem Reaches.of_rounds {trace : List (Stretch σ ω)} {tasks : List (Task σ ω)}
    {s s' : SharedWorld σ ω} {budget : Nat} {invocations : List Invocation}
    (reached : Reaches programs start trace ⟨[], tasks, s⟩)
    (returned : (rounds budget tasks).Returns s invocations s') :
    ∃ trace stage, Reaches programs start trace stage ∧
      invocations? stage.tasks = some invocations ∧ stage.shared = s' := by
  induction budget generalizing trace tasks s with
  | zero =>
      cases settled : invocations? tasks with
      | none =>
          rw [rounds_zero settled] at returned
          exact absurd returned (Action.not_returns_cutOff _ _ _)
      | some all =>
          rw [rounds_of_settled settled] at returned
          rcases (Action.returns_pure_iff _ _ _ _).mp returned with ⟨rfl, rfl⟩
          exact ⟨trace, _, reached, settled, rfl⟩
  | succ budget ih =>
      cases settled : invocations? tasks with
      | none =>
          rw [rounds_succ settled, Action.returns_bind_iff] at returned
          rcases returned with ⟨tasks', middle, rounded, continued⟩
          obtain ⟨trace', nextReached⟩ := reached.of_round rounded
          cases settled' : invocations? tasks' with
          | none => exact ih (nextReached.round settled') continued
          | some all =>
              rw [rounds_of_settled settled'] at continued
              rcases (Action.returns_pure_iff _ _ _ _).mp continued with ⟨rfl, rfl⟩
              exact ⟨trace', _, nextReached, by simpa [Stage.tasks] using settled', rfl⟩
      | some all =>
          rw [rounds_of_settled settled] at returned
          rcases (Action.returns_pure_iff _ _ _ _).mp returned with ⟨rfl, rfl⟩
          exact ⟨trace, _, reached, settled, rfl⟩

theorem Reaches.of_rounds_crashes {trace : List (Stretch σ ω)} {tasks : List (Task σ ω)}
    {s s' : SharedWorld σ ω} {budget : Nat} {text : String}
    (reached : Reaches programs start trace ⟨[], tasks, s⟩)
    (crashed : (rounds budget tasks).Crashes s text s') :
    CrashesAt programs start text s' := by
  induction budget generalizing trace tasks s with
  | zero =>
      cases settled : invocations? tasks with
      | none =>
          rw [rounds_zero settled] at crashed
          exact absurd crashed (Action.not_crashes_cutOff _ _ _)
      | some all =>
          rw [rounds_of_settled settled] at crashed
          exact absurd crashed (Action.not_crashes_pure _ _ _ _)
  | succ budget ih =>
      cases settled : invocations? tasks with
      | none =>
          rw [rounds_succ settled, Action.crashes_bind_iff] at crashed
          rcases crashed with crashed | ⟨tasks', middle, rounded, crashed⟩
          · exact reached.of_round_crashes crashed
          · obtain ⟨trace', nextReached⟩ := reached.of_round rounded
            cases settled' : invocations? tasks' with
            | none => exact ih (nextReached.round settled') crashed
            | some all =>
                rw [rounds_of_settled settled'] at crashed
                exact absurd crashed (Action.not_crashes_pure _ _ _ _)
      | some all =>
          rw [rounds_of_settled settled] at crashed
          exact absurd crashed (Action.not_crashes_pure _ _ _ _)

end Cohort

end Courier
