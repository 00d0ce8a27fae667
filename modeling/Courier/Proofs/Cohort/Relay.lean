import Courier.Proofs.Cohort.Order

/-!
# The relay on an instance

The members that share an instance run on it one after the other, in registration
order: only the first of those that have not settled runs, it runs on the state
that the stretch before has left, and it is the first until it has settled.
-/

namespace Courier

variable {σ ω : Type}

/-- What is left to be done on an instance, if it is the one that the member
needs. -/
def Task.needs (i : InstanceId) (member : Nat) (task : Task σ ω) : List (Nat × Program σ ω) :=
  match task.program? with
  | some p => if p.owner? = some i then [(member, p)] else []
  | none => []

namespace Cohort

/-- The members that need an instance and have not settled, in registration order,
each with what is left of its lifecycle; `member` is the number of the first task. -/
def unsettled (i : InstanceId) (member : Nat) (tasks : List (Task σ ω)) :
    List (Nat × Program σ ω) :=
  (tasks.zipIdx member).flatMap fun entry => entry.1.needs i entry.2

theorem unsettled_cons (i : InstanceId) (member : Nat) (task : Task σ ω)
    (rest : List (Task σ ω)) :
    unsettled i member (task :: rest) =
      task.needs i member ++ unsettled i (member + 1) rest := by
  simp [unsettled]

theorem unsettled_append (i : InstanceId) (member : Nat) (front back : List (Task σ ω)) :
    unsettled i member (front ++ back) =
      unsettled i member front ++ unsettled i (member + front.length) back := by
  simp [unsettled, List.zipIdx_append]

theorem unsettled_eq_nil {i : InstanceId} {member : Nat} {tasks : List (Task σ ω)}
    (others : ∀ task ∈ tasks, ∀ p, task.program? = some p → p.owner? ≠ some i) :
    unsettled i member tasks = [] := by
  induction tasks generalizing member with
  | nil => rfl
  | cons task rest ih =>
      rw [List.forall_mem_cons] at others
      have needsEq : task.needs i member = [] := by
        unfold Task.needs
        cases programEq : task.program? with
        | none => rfl
        | some p => exact if_neg (others.1 p programEq)
      rw [unsettled_cons, needsEq, ih others.2, List.nil_append]

theorem unsettled_replace {i : InstanceId} {front back : List (Task σ ω)}
    {task task' : Task σ ω}
    (sameNeeds : task'.needs i front.length = task.needs i front.length) :
    unsettled i 0 (front ++ task' :: back) = unsettled i 0 (front ++ task :: back) := by
  rw [unsettled_append, unsettled_append, unsettled_cons, unsettled_cons, Nat.zero_add, sameNeeds]

/-- Members take their turns on an instance.  From the line of those that need it
and the state it has, the stretches lead to those that still need it and the state
it has then: every stretch is one of the first in the line, on the state that was
left before. -/
inductive Relay (i : InstanceId) (line : List (Nat × Program σ ω)) (own : σ) :
    List (Stretch σ ω) → List (Nat × Program σ ω) → σ → Prop
  | idle : Relay i line own [] line own
  | suspends {trace : List (Stretch σ ω)} {k : Nat} {p rest : Program σ ω}
      {others : List (Nat × Program σ ω)} {before after : World σ ω} :
      Relay i line own trace ((k, p) :: others) (before.instances i) →
      p.advance.Returns before (.inl rest) after →
      Relay i line own (trace ++ [⟨k, p, before, .inl rest, after⟩]) ((k, rest) :: others)
        (after.instances i)
  | ends {trace : List (Stretch σ ω)} {k : Nat} {p : Program σ ω}
      {others : List (Nat × Program σ ω)} {before after : World σ ω} {invocation : Invocation} :
      Relay i line own trace ((k, p) :: others) (before.instances i) →
      p.advance.Returns before (.inr invocation) after →
      Relay i line own (trace ++ [⟨k, p, before, .inr invocation, after⟩]) others
        (after.instances i)

/-- The stretches that belong to an instance. -/
def onInstance (i : InstanceId) (trace : List (Stretch σ ω)) : List (Stretch σ ω) :=
  trace.filter fun stretch => stretch.program.owner? = some i

theorem onInstance_append_of_owned {i : InstanceId} {stretch : Stretch σ ω}
    (owned : stretch.program.owner? = some i) (trace : List (Stretch σ ω)) :
    onInstance i (trace ++ [stretch]) = onInstance i trace ++ [stretch] := by
  simp [onInstance, owned]

theorem onInstance_append_of_other {i : InstanceId} {stretch : Stretch σ ω}
    (other : stretch.program.owner? ≠ some i) (trace : List (Stretch σ ω)) :
    onInstance i (trace ++ [stretch]) = onInstance i trace := by
  simp [onInstance, other]

variable {front back : List (Task σ ω)} {task : Task σ ω} {locks : Locks} {i : InstanceId}

/-- A member that goes on is the first of those that need its instance. -/
theorem Orderly.unsettled_of_goesOn (orderly : Orderly (front ++ task :: back) locks)
    (asked : ∀ earlier ∈ front, earlier.isFresh = false) {p : Program σ ω}
    (goesOn : Task.GoesOn front.length locks task p) (owned : p.owner? = some i)
    (task' : Task σ ω) :
    unsettled i 0 (front ++ task' :: back) =
      task'.needs i front.length ++ unsettled i (front.length + 1) back := by
  have settled := owner_ne_of_line_eq_nil asked (orderly.line_front_eq_nil goesOn owned)
  rw [unsettled_append, unsettled_eq_nil settled, unsettled_cons, Nat.zero_add, List.nil_append]

/-- A stretch of a member is the next of the relay on its instance, and does not
concern the relay on another. -/
theorem Relay.stretch {line : List (Nat × Program σ ω)} {own : σ} {trace : List (Stretch σ ω)}
    {w w' : World σ ω}
    (relay : Relay i line own (onInstance i trace) (unsettled i 0 (front ++ task :: back))
      (w.instances i))
    (orderly : Orderly (front ++ task :: back) locks)
    (asked : ∀ earlier ∈ front, earlier.isFresh = false) {p : Program σ ω}
    (goesOn : Task.GoesOn front.length locks task p) {left : Program σ ω ⊕ Invocation}
    (advanced : p.advance.Returns w left w') :
    Relay i line own (onInstance i (trace ++ [⟨front.length, p, w, left, w'⟩]))
      (unsettled i 0 (front ++ .ofLeft left :: back)) (w'.instances i) := by
  have needsEq : task.needs i front.length =
      if p.owner? = some i then [(front.length, p)] else [] := by
    simp [Task.needs, goesOn.program?_eq]
  by_cases owned : p.owner? = some i
  · rw [orderly.unsettled_of_goesOn asked goesOn owned, needsEq, if_pos owned] at relay
    rw [orderly.unsettled_of_goesOn asked goesOn owned, onInstance_append_of_owned owned]
    cases left with
    | inl rest =>
        have ownedRest : rest.owner? = some i := (Program.owner?_of_advance advanced).trans owned
        simpa [Task.needs, Task.ofLeft, Task.program?, ownedRest] using relay.suspends advanced
    | inr invocation => exact relay.ends advanced
  · have sameNeeds : (Task.ofLeft left).needs i front.length = task.needs i front.length := by
      rw [needsEq, if_neg owned]
      cases left with
      | inl rest =>
          simp [Task.needs, Task.ofLeft, Task.program?, Program.owner?_of_advance advanced, owned]
      | inr invocation => rfl
    rw [onInstance_append_of_other owned, Program.instances_of_advance advanced owned,
      unsettled_replace sameNeeds]
    exact relay

/-- What has been run on an instance at a stage of a cohort is a relay of those
that need it. -/
theorem Reaches.relay {programs : List (Program σ ω)} {w : World σ ω}
    {trace : List (Stretch σ ω)} {stage : Stage σ ω}
    (reached : Reaches programs ⟨w, Locks.free⟩ trace stage) (i : InstanceId) :
    Relay i (unsettled i 0 (programs.map .fresh)) (w.instances i) (onInstance i trace)
      (unsettled i 0 stage.tasks) (stage.shared.world.instances i) := by
  induction reached with
  | start => exact .idle
  | @resume trace resumed pending task task' s s' reached returned ih =>
      rcases reached.orderly with ⟨orderly, asked⟩
      have arrived := Orderly.arrive orderly asked
      have relay : Relay i (unsettled i 0 (programs.map .fresh)) (w.instances i)
          (onInstance i trace) (unsettled i 0 (resumed ++ task.arrived :: pending))
          (s.world.instances i) := by
        have sameNeeds : task.arrived.needs i resumed.length = task.needs i resumed.length := by
          simp [Task.needs]
        rw [unsettled_replace sameNeeds]
        exact ih
      simp only [Stage.tasks, List.append_assoc, List.singleton_append]
      cases Task.resume_returns returned with
      | stays invocation => simpa [Task.stretch?, Task.program?, Stage.tasks] using ih
      | waits arrivedEq owned notHeld =>
          rw [arrivedEq] at relay
          simpa [Task.stretch?_queued] using relay
      | runs goesOn advanced =>
          rw [Task.stretch?_ofLeft ((task.program?_arrived).symm.trans goesOn.program?_eq)]
          exact relay.stretch arrived asked goesOn advanced
  | round _ _ ih => simpa [Stage.tasks] using ih

/-- Who is in the middle of its lifecycle on an instance has its lock. -/
theorem Reaches.holder_of_holds {programs : List (Program σ ω)} {w : World σ ω}
    {trace : List (Stretch σ ω)} {stage : Stage σ ω}
    (reached : Reaches programs ⟨w, Locks.free⟩ trace stage) {i : InstanceId} {member : Nat}
    (holds : stage.Holds i member) : (stage.shared.locks i).holder = some member := by
  rcases reached.orderly with ⟨orderly, _⟩
  rcases holds with ⟨p, taskEq, owned⟩
  rw [orderly.locksEq, Lock.holder_ofLine]
  exact orderly.activeFirst i member p taskEq owned

end Cohort

end Courier
