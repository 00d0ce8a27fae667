import Courier.Proofs.Cohort.Stage

/-!
# The order at the locks

At every stage the lock of an instance is the line of the members that have
asked for it and have not settled, in registration order, and who is in the
middle of its lifecycle is the first of the line.  The reason is that all members
ask in the first round: a member that has not asked stands behind every member
that has.
-/

namespace Courier

variable {σ ω : Type}

namespace Task

/-- The place of a member in the line at an instance, if it has one. -/
def place (i : InstanceId) (member : Nat) : Task σ ω → List Nat
  | queued p => if p.owner? = some i then [member] else []
  | active p => if p.owner? = some i then [member] else []
  | _ => []

theorem place_eq_nil {i : InstanceId} {member : Nat} {task : Task σ ω} {p : Program σ ω}
    (programEq : task.program? = some p) (other : p.owner? ≠ some i) :
    task.place i member = [] := by
  cases task <;> cases programEq <;> simp [place, other]

theorem place_of_goesOn {i : InstanceId} {member : Nat} {locks : Locks} {task : Task σ ω}
    {p : Program σ ω} (goesOn : GoesOn member locks task p) (owned : p.owner? = some i) :
    task.place i member = [member] := by
  cases goesOn <;> exact if_pos owned

theorem mem_place {i : InstanceId} {member k : Nat} {task : Task σ ω}
    (mem : k ∈ task.place i member) :
    k = member ∧ ∃ p, task.program? = some p ∧ p.owner? = some i := by
  cases task with
  | fresh p => exact absurd mem List.not_mem_nil
  | queued p =>
      obtain ⟨owned, rfl⟩ : p.owner? = some i ∧ k = member := by simpa [place] using mem
      exact ⟨rfl, p, rfl, owned⟩
  | active p =>
      obtain ⟨owned, rfl⟩ : p.owner? = some i ∧ k = member := by simpa [place] using mem
      exact ⟨rfl, p, rfl, owned⟩
  | settled invocation => exact absurd mem List.not_mem_nil

end Task

namespace Cohort

/-! ## Lines -/

/-- The line at an instance; `member` is the number of the first task. -/
def line (i : InstanceId) (member : Nat) (tasks : List (Task σ ω)) : List Nat :=
  (tasks.zipIdx member).flatMap fun entry => entry.1.place i entry.2

theorem line_cons (i : InstanceId) (member : Nat) (task : Task σ ω) (rest : List (Task σ ω)) :
    line i member (task :: rest) = task.place i member ++ line i (member + 1) rest := by
  simp [line]

theorem line_append (i : InstanceId) (member : Nat) (front back : List (Task σ ω)) :
    line i member (front ++ back) = line i member front ++ line i (member + front.length) back := by
  simp [line, List.zipIdx_append]

/-- Who stands in the line has not settled and needs the instance. -/
theorem mem_line {i : InstanceId} {member k : Nat} {tasks : List (Task σ ω)}
    (mem : k ∈ line i member tasks) :
    ∃ n task p, k = member + n ∧ tasks[n]? = some task ∧ task.program? = some p ∧
      p.owner? = some i := by
  induction tasks generalizing member with
  | nil => exact absurd mem List.not_mem_nil
  | cons task rest ih =>
      rw [line_cons] at mem
      rcases List.mem_append.mp mem with first | later
      · obtain ⟨rfl, p, programEq, owned⟩ := Task.mem_place first
        exact ⟨0, task, p, rfl, rfl, programEq, owned⟩
      · obtain ⟨n, other, p, rfl, taskEq, programEq, owned⟩ := ih later
        exact ⟨n + 1, other, p, by omega, taskEq, programEq, owned⟩

/-- Who stands in the line is seen from the places of the members. -/
theorem line_replace {i : InstanceId} {front back : List (Task σ ω)} {task task' : Task σ ω}
    (samePlace : task'.place i front.length = task.place i front.length) :
    line i 0 (front ++ task' :: back) = line i 0 (front ++ task :: back) := by
  rw [line_append, line_append, line_cons, line_cons, Nat.zero_add, samePlace]

/-- Who has not asked does not stand in the line. -/
theorem line_of_fresh (i : InstanceId) (member : Nat) {tasks : List (Task σ ω)}
    (fresh : ∀ task ∈ tasks, task.isFresh = true) : line i member tasks = [] := by
  induction tasks generalizing member with
  | nil => rfl
  | cons task rest ih =>
      rw [List.forall_mem_cons] at fresh
      have placeEq : task.place i member = [] := by
        cases task with
        | fresh p => rfl
        | queued p => exact absurd fresh.1 Bool.false_ne_true
        | active p => exact absurd fresh.1 Bool.false_ne_true
        | settled invocation => rfl
      rw [line_cons, placeEq, ih (member + 1) fresh.2, List.nil_append]

/-- Who has not asked does not stand behind a member. -/
theorem line_of_freshLast (i : InstanceId) (front : List (Task σ ω)) (task : Task σ ω)
    {back : List (Task σ ω)} (fresh : ∀ later ∈ back, later.isFresh = true) :
    line i 0 (front ++ task :: back) = line i 0 front ++ task.place i front.length := by
  rw [line_append, line_cons, line_of_fresh _ _ fresh, List.append_nil, Nat.zero_add]

/-- Where the line is empty and all have asked, nobody needs the instance. -/
theorem owner_ne_of_line_eq_nil {i : InstanceId} {member : Nat} {tasks : List (Task σ ω)}
    (asked : ∀ task ∈ tasks, task.isFresh = false) (empty : line i member tasks = []) :
    ∀ task ∈ tasks, ∀ p, task.program? = some p → p.owner? ≠ some i := by
  induction tasks generalizing member with
  | nil => exact fun task mem => absurd mem List.not_mem_nil
  | cons task rest ih =>
      rw [List.forall_mem_cons] at asked ⊢
      rw [line_cons] at empty
      rcases List.append_eq_nil_iff.mp empty with ⟨placeEq, restEmpty⟩
      refine ⟨?_, ih asked.2 restEmpty⟩
      intro p programEq owned
      cases task with
      | fresh q => exact absurd asked.1 Bool.noConfusion
      | queued q =>
          cases programEq
          simp [Task.place, owned] at placeEq
      | active q =>
          cases programEq
          simp [Task.place, owned] at placeEq
      | settled invocation => contradiction

/-! ## Orderly cohorts -/

/-- The tasks of a cohort and the locks go together. -/
structure Orderly (tasks : List (Task σ ω)) (locks : Locks) : Prop where
  freshLast : tasks.Pairwise fun first second => first.isFresh = true → second.isFresh = true
  locksEq : ∀ i, locks i = Lock.ofLine (line i 0 tasks)
  activeFirst : ∀ i k p, tasks[k]? = some (.active p) → p.owner? = some i →
    (line i 0 tasks).head? = some k

variable {front back : List (Task σ ω)} {task : Task σ ω} {locks : Locks}

/-- A member that has asked stands in front of all that have not. -/
theorem Orderly.freshLast_replace (orderly : Orderly (front ++ task :: back) locks)
    (asked : ∀ earlier ∈ front, earlier.isFresh = false) {task' : Task σ ω}
    (askedNow : task'.isFresh = false) :
    (front ++ task' :: back).Pairwise fun first second =>
      first.isFresh = true → second.isFresh = true := by
  rcases List.pairwise_append.mp orderly.freshLast with ⟨frontFresh, backFresh, _⟩
  refine List.pairwise_append.mpr ⟨frontFresh, List.pairwise_cons.mpr ⟨?_, backFresh.of_cons⟩, ?_⟩
  · intro later _ fresh
    rw [askedNow] at fresh
    contradiction
  · intro earlier mem later _ fresh
    rw [asked earlier mem] at fresh
    contradiction

/-- A cohort in which nobody has asked is orderly at free locks. -/
theorem Orderly.start (programs : List (Program σ ω)) :
    Orderly (programs.map .fresh) Locks.free where
  freshLast := by
    apply List.pairwise_map.mpr
    apply List.pairwise_of_forall
    intro _ _ _
    rfl
  locksEq i := by
    rw [line_of_fresh i 0 (by simp [Task.isFresh])]
    rfl
  activeFirst i k p taskEq := by
    rw [List.getElem?_map] at taskEq
    cases programEq : programs[k]? <;> simp [programEq] at taskEq

/-- A member that asks for its lock joins the line at its end. -/
theorem Orderly.arrive (orderly : Orderly (front ++ task :: back) locks)
    (asked : ∀ earlier ∈ front, earlier.isFresh = false) :
    Orderly (front ++ task.arrived :: back) (task.arrive front.length locks) := by
  cases task with
  | queued p => exact orderly
  | active p => exact orderly
  | settled invocation => exact orderly
  | fresh p =>
      have backFresh : ∀ later ∈ back, later.isFresh = true := by
        intro later mem
        have pairwise := (List.pairwise_append.mp orderly.freshLast).2.1
        exact (List.pairwise_cons.mp pairwise).1 later mem rfl
      have lineEq : ∀ i, line i 0 (front ++ .fresh p :: back) = line i 0 front := by
        intro i
        rw [line_of_freshLast i front _ backFresh]
        exact List.append_nil _
      constructor
      · exact orderly.freshLast_replace asked rfl
      · intro i
        have locksEq := orderly.locksEq i
        rw [lineEq] at locksEq
        rw [Task.arrived, line_of_freshLast i front _ backFresh, Task.arrive, Task.place]
        cases owned : p.owner? with
        | none => simpa using locksEq
        | some owner =>
            by_cases same : i = owner
            · subst same
              simp only [Locks.update_same, locksEq, Lock.request_ofLine, if_true]
            · have different : some owner ≠ some i := fun eq => same (Option.some.inj eq).symm
              simpa [Locks.update_of_ne _ same, different] using locksEq
      · intro i k q taskEq owned
        have other : k ≠ front.length := by
          rintro rfl
          rw [getElem?_at] at taskEq
          cases taskEq
        rw [getElem?_of_ne other] at taskEq
        have first := orderly.activeFirst i k q taskEq owned
        rw [lineEq] at first
        rw [Task.arrived, line_of_freshLast i front _ backFresh, List.head?_append, first]
        rfl

/-- A member that goes on is the first in its line: whoever was registered before
it for the same instance has settled. -/
theorem Orderly.line_front_eq_nil (orderly : Orderly (front ++ task :: back) locks)
    {p : Program σ ω} (goesOn : Task.GoesOn front.length locks task p) {i : InstanceId}
    (owned : p.owner? = some i) : line i 0 front = [] := by
  have first : (line i 0 (front ++ task :: back)).head? = some front.length := by
    cases goesOn with
    | held held =>
        rw [← Lock.holder_ofLine, ← orderly.locksEq]
        exact held i owned
    | running => exact orderly.activeFirst i _ _ (getElem?_at _ _ _) owned
  rw [line_append] at first
  cases frontLine : line i 0 front with
  | nil => rfl
  | cons k others =>
      rw [frontLine, List.cons_append, List.head?_cons] at first
      obtain ⟨n, _, _, numberEq, taskEq, _⟩ :=
        mem_line (frontLine ▸ List.mem_cons_self : k ∈ line i 0 front)
      rcases List.getElem?_eq_some_iff.mp taskEq with ⟨bound, _⟩
      have := Option.some.inj first
      omega

theorem Orderly.line_of_goesOn (orderly : Orderly (front ++ task :: back) locks)
    {p : Program σ ω} (goesOn : Task.GoesOn front.length locks task p) {i : InstanceId}
    (owned : p.owner? = some i) :
    line i 0 (front ++ task :: back) = front.length :: line i (front.length + 1) back := by
  rw [line_append, orderly.line_front_eq_nil goesOn owned, line_cons, Nat.zero_add,
    Task.place_of_goesOn goesOn owned]
  rfl

/-- A member that runs a stretch keeps its place until the end. -/
theorem Orderly.depart (orderly : Orderly (front ++ task :: back) locks)
    (asked : ∀ earlier ∈ front, earlier.isFresh = false) {p : Program σ ω}
    (goesOn : Task.GoesOn front.length locks task p) {left : Program σ ω ⊕ Invocation}
    (ownerKept : ∀ rest, left = .inl rest → rest.owner? = p.owner?) :
    Orderly (front ++ .ofLeft left :: back) (p.depart left locks) := by
  have lineOther : ∀ i, p.owner? ≠ some i →
      line i 0 (front ++ .ofLeft left :: back) = line i 0 (front ++ task :: back) := by
    intro i other
    apply line_replace
    rw [Task.place_eq_nil goesOn.program?_eq other]
    cases left with
    | inl rest => exact Task.place_eq_nil rfl (ownerKept rest rfl ▸ other)
    | inr invocation => rfl
  constructor
  · exact orderly.freshLast_replace asked (Task.isFresh_ofLeft left)
  · intro i
    have locksEq := orderly.locksEq i
    by_cases owned : p.owner? = some i
    · rw [orderly.line_of_goesOn goesOn owned] at locksEq
      rw [line_append, orderly.line_front_eq_nil goesOn owned, line_cons, Nat.zero_add]
      cases left with
      | inl rest => simpa [Program.depart, Task.ofLeft, Task.place, ownerKept rest rfl, owned]
      | inr invocation =>
          simp [Program.depart, Task.ofLeft, Task.place, owned, locksEq, Lock.release_ofLine]
    · rw [lineOther i owned, ← locksEq]
      exact Program.depart_of_ne owned left locks
  · intro i k q taskEq ownedBy
    by_cases same : k = front.length
    · subst same
      rw [getElem?_at] at taskEq
      cases left with
      | inr invocation => cases taskEq
      | inl rest =>
          cases taskEq
          rw [ownerKept q rfl] at ownedBy
          rw [line_append, orderly.line_front_eq_nil goesOn ownedBy, line_cons, Nat.zero_add]
          simp [Task.ofLeft, Task.place, ownerKept q rfl, ownedBy]
    · rw [getElem?_of_ne same] at taskEq
      have first := orderly.activeFirst i k q taskEq ownedBy
      by_cases owned : p.owner? = some i
      · rw [orderly.line_of_goesOn goesOn owned] at first
        exact absurd (Option.some.inj first).symm same
      · rw [lineOther i owned]
        exact first

/-- Every stage of a cohort that starts with free locks is orderly. -/
theorem Reaches.orderly {programs : List (Program σ ω)} {w : World σ ω}
    {trace : List (Stretch σ ω)} {stage : Stage σ ω}
    (reached : Reaches programs ⟨w, Locks.free⟩ trace stage) :
    Orderly stage.tasks stage.shared.locks ∧
      ∀ task ∈ stage.resumed, task.isFresh = false := by
  induction reached with
  | start => exact ⟨.start programs, by simp⟩
  | @resume trace resumed pending task task' s s' reached returned ih =>
      rcases ih with ⟨orderly, asked⟩
      have arrived := Orderly.arrive orderly asked
      have orderlyNext : Orderly (resumed ++ task' :: pending) s'.locks ∧
          task'.isFresh = false := by
        cases Task.resume_returns returned with
        | stays invocation => exact ⟨orderly, rfl⟩
        | waits arrivedEq owned notHeld =>
            rw [arrivedEq] at arrived
            exact ⟨arrived, rfl⟩
        | runs goesOn advanced =>
            refine ⟨arrived.depart asked goesOn ?_, Task.isFresh_ofLeft _⟩
            rintro rest rfl
            exact Program.owner?_of_advance advanced
      refine ⟨by simpa [Stage.tasks] using orderlyNext.1, ?_⟩
      intro earlier mem
      rcases List.mem_append.mp mem with before | now
      · exact asked earlier before
      · rw [List.mem_singleton.mp now]
        exact orderlyNext.2
  | round reached _ ih => exact ⟨by simpa [Stage.tasks] using ih.1, by simp⟩

end Cohort

end Courier
