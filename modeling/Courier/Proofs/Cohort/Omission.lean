import Courier.Proofs.Cohort.Settling
import Courier.Proofs.Handler.Apart

/-!
# Cohorts without some of their members

Members out of sight may be left out of a cohort: the others run the same stretches, and end
with the same invocations.  The two cohorts are walked together, member by member; the place
of a member in its line does not matter, only whether somebody stands in front of it, and
members out of sight stand in front of nobody.
-/

namespace Courier

open Courier.Action

variable {σ ω κ α β : Type} {apart : InstanceId → Prop} {g : ω → κ}

/-- What is marked of a list. -/
def kept (marked : List (α × Bool)) : List α :=
  (marked.filter (·.2)).map (·.1)

@[simp]
theorem kept_nil : kept ([] : List (α × Bool)) = [] :=
  rfl

@[simp]
theorem kept_cons_true (a : α) (rest : List (α × Bool)) :
    kept ((a, true) :: rest) = a :: kept rest :=
  rfl

@[simp]
theorem kept_cons_false (a : α) (rest : List (α × Bool)) : kept ((a, false) :: rest) = kept rest :=
  rfl

@[simp]
theorem kept_append (first second : List (α × Bool)) :
    kept (first ++ second) = kept first ++ kept second := by
  simp [kept]

theorem mem_kept_iff (a : α) (marked : List (α × Bool)) : a ∈ kept marked ↔ (a, true) ∈ marked := by
  simp [kept]

/-- The same marks on other values. -/
def mapMarked (f : α → β) (marked : List (α × Bool)) : List (β × Bool) :=
  marked.map fun entry => (f entry.1, entry.2)

@[simp]
theorem map_fst_mapMarked (f : α → β) (marked : List (α × Bool)) :
    (mapMarked f marked).map (·.1) = (marked.map (·.1)).map f := by
  simp [mapMarked]

@[simp]
theorem map_snd_mapMarked (f : α → β) (marked : List (α × Bool)) :
    (mapMarked f marked).map (·.2) = marked.map (·.2) := by
  simp [mapMarked]

@[simp]
theorem kept_mapMarked (f : α → β) (marked : List (α × Bool)) :
    kept (mapMarked f marked) = (kept marked).map f := by
  simp [kept, mapMarked, List.filter_map, Function.comp_def]

theorem mem_mapMarked_iff (f : α → β) (marked : List (α × Bool)) (b : β) (mark : Bool) :
    (b, mark) ∈ mapMarked f marked ↔ ∃ a, (a, mark) ∈ marked ∧ f a = b := by
  simp [mapMarked]

namespace Cohort

/-! ## Who stands in front -/

theorem place_eq_nil_of_settled {task : Task σ ω} (settled : task.program? = none)
    (i : InstanceId) (member : Nat) : task.place i member = [] := by
  cases task with
  | settled invocation => rfl
  | _ => contradiction

/-- Nobody stands in a line if nobody has a place in it. -/
theorem line_eq_nil_iff (i : InstanceId) (member : Nat) (tasks : List (Task σ ω)) :
    line i member tasks = [] ↔ ∀ task ∈ tasks, task.place i 0 = [] := by
  induction tasks generalizing member with
  | nil => simp [line]
  | cons task rest ih =>
      have place_eq_nil_iff : task.place i member = [] ↔ task.place i 0 = [] := by
        cases task <;> simp [Task.place]
      rw [line_cons, List.append_eq_nil_iff, ih, place_eq_nil_iff, List.forall_mem_cons]

/-- A member that has asked for its lock gets it if nobody stands in front of it. -/
theorem Orderly.holder_iff {front back : List (Task σ ω)} {task : Task σ ω} {locks : Locks}
    (orderly : Orderly (front ++ task :: back) locks)
    (asked : ∀ earlier ∈ front, earlier.isFresh = false) {p : Program σ ω}
    (arrivedEq : task.arrived = .queued p) {i : InstanceId} (owned : p.owner? = some i) :
    (task.arrive front.length locks i).holder = some front.length ↔ line i 0 front = [] := by
  have arrived := orderly.arrive asked
  rw [arrivedEq] at arrived
  constructor
  · intro held
    have goesOn : Task.GoesOn front.length (task.arrive front.length locks) (.queued p) p := by
      apply Task.GoesOn.held
      intro owner ownedBy
      rw [owned] at ownedBy
      cases ownedBy
      exact held
    exact arrived.line_front_eq_nil goesOn owned
  · intro empty
    rw [arrived.locksEq, line_append, empty, line_cons]
    simp [Task.place, owned]

/-- Members that have settled may be left out of a line. -/
theorem line_kept_eq_nil_iff (i : InstanceId) {marked : List (Task σ ω × Bool)}
    (settled : ∀ task, (task, false) ∈ marked → task.program? = none) :
    line i 0 (kept marked) = [] ↔ line i 0 (marked.map (·.1)) = [] := by
  rw [line_eq_nil_iff, line_eq_nil_iff]
  constructor
  · intro empty task mem
    rcases List.mem_map.mp mem with ⟨⟨_, mark⟩, entryMem, rfl⟩
    cases mark with
    | true => exact empty _ ((mem_kept_iff _ _).mpr entryMem)
    | false => exact place_eq_nil_of_settled (settled _ entryMem) i 0
  · intro empty task mem
    exact empty task (List.mem_map.mpr ⟨_, (mem_kept_iff _ _).mp mem, rfl⟩)

/-! ## Two cohorts at once -/

variable {programs : List (Program σ ω × Bool)} {w v : World σ ω}

/-- Two cohorts stand at the same place: the one has all programs, the other those that are
marked.  Who is not marked is out of sight, and has settled when it has been resumed. -/
structure Abreast (apart : InstanceId → Prop) (g : ω → κ) (programs : List (Program σ ω × Bool))
    (w v : World σ ω) (resumed pending : List (Task σ ω × Bool)) (s s' : SharedWorld σ ω) :
    Prop where
  whole : ∃ trace, Reaches (programs.map (·.1)) ⟨w, Locks.free⟩ trace
    ⟨resumed.map (·.1), pending.map (·.1), s⟩
  part : ∃ trace, Reaches (kept programs) ⟨v, Locks.free⟩ trace ⟨kept resumed, kept pending, s'⟩
  marks : (resumed ++ pending).map (·.2) = programs.map (·.2)
  inSight : ∀ task, (task, true) ∈ resumed ++ pending → ∀ p, task.program? = some p →
    p.InSight apart g
  settled : ∀ task, (task, false) ∈ resumed → task.program? = none
  outOfSight : ∀ task, (task, false) ∈ pending → ∀ p, task.program? = some p →
    p.OutOfSight apart g
  same : s.world.SameBut apart g s'.world

variable {resumed pending : List (Task σ ω × Bool)} {task task' : Task σ ω}
  {s s' t : SharedWorld σ ω}

/-- Whether a member holds its lock does not depend on those that have been left out. -/
theorem Abreast.held_iff
    (abreast : Abreast apart g programs w v resumed ((task, true) :: pending) s s')
    {p : Program σ ω} (arrivedEq : task.arrived = .queued p) {i : InstanceId}
    (owned : p.owner? = some i) :
    (task.arrive (kept resumed).length s'.locks i).holder = some (kept resumed).length ↔
      (task.arrive resumed.length s.locks i).holder = some resumed.length := by
  obtain ⟨_, reached⟩ := abreast.whole
  obtain ⟨_, reachedPart⟩ := abreast.part
  have whole := Orderly.holder_iff reached.orderly.1 reached.orderly.2 arrivedEq owned
  have part := Orderly.holder_iff reachedPart.orderly.1 reachedPart.orderly.2 arrivedEq owned
  rw [List.length_map] at whole
  rw [whole, part, line_kept_eq_nil_iff i abreast.settled]

/-- A member goes on in the one cohort when it does so in the other. -/
theorem Abreast.goesOn_part
    (abreast : Abreast apart g programs w v resumed ((task, true) :: pending) s s')
    {p : Program σ ω}
    (goesOn : Task.GoesOn resumed.length (task.arrive resumed.length s.locks) task.arrived p) :
    Task.GoesOn (kept resumed).length (task.arrive (kept resumed).length s'.locks) task.arrived
      p := by
  generalize arrivedEq : task.arrived = arrived at goesOn
  cases goesOn with
  | held held =>
      apply Task.GoesOn.held
      intro owner owned
      exact (abreast.held_iff arrivedEq owned).mpr (held owner owned)
  | running => exact .running

/-- Nobody stands in line at an instance apart. -/
theorem Abreast.line_eq_nil_of_apart (abreast : Abreast apart g programs w v resumed pending s s')
    {i : InstanceId} (isApart : apart i) : line i 0 (resumed.map (·.1)) = [] := by
  rw [← line_kept_eq_nil_iff i abreast.settled, line_eq_nil_iff]
  intro task mem
  rw [mem_kept_iff] at mem
  cases programEq : task.program? with
  | none => exact place_eq_nil_of_settled programEq i 0
  | some p =>
      apply Task.place_eq_nil programEq
      intro owned
      exact (abreast.inSight task (List.mem_append_left _ mem) p programEq).owner i owned isApart

/-- The first of the members that are still to be resumed has been resumed. -/
theorem Abreast.next {mark : Bool}
    (abreast : Abreast apart g programs w v resumed ((task, mark) :: pending) s s')
    {t' : SharedWorld σ ω} (returned : (task.resume resumed.length).Returns s task' t)
    (part : ∃ trace, Reaches (kept programs) ⟨v, Locks.free⟩ trace
      ⟨kept (resumed ++ [(task', mark)]), kept pending, t'⟩)
    (inSight : mark = true → ∀ p, task'.program? = some p → p.InSight apart g)
    (settled : mark = false → task'.program? = none) (same : t.world.SameBut apart g t'.world) :
    Abreast apart g programs w v (resumed ++ [(task', mark)]) pending t t' where
  whole := by
    obtain ⟨_, reached⟩ := abreast.whole
    rw [← List.length_map (·.1)] at returned
    have reachedNext := reached.resume returned
    rw [List.map_append]
    exact ⟨_, reachedNext⟩
  part := part
  marks := by simpa using abreast.marks
  inSight other mem := by
    rw [List.append_assoc, List.mem_append, List.singleton_append, List.mem_cons] at mem
    rcases mem with before | now | behind
    · exact abreast.inSight other (List.mem_append_left _ before)
    · cases now
      exact inSight rfl
    · exact abreast.inSight other (List.mem_append_right _ (List.mem_cons_of_mem _ behind))
  settled other mem := by
    rcases List.mem_append.mp mem with before | now
    · exact abreast.settled other before
    · cases List.mem_singleton.mp now
      exact settled rfl
  outOfSight other mem := abreast.outOfSight other (List.mem_cons_of_mem _ mem)
  same := same

/-- A member that is marked is resumed in both cohorts alike. -/
theorem Abreast.resume_marked
    (abreast : Abreast apart g programs w v resumed ((task, true) :: pending) s s')
    (returned : (task.resume resumed.length).Returns s task' t) :
    ∃ t', (task.resume (kept resumed).length).Returns s' task' t' ∧
      Abreast apart g programs w v (resumed ++ [(task', true)]) pending t t' := by
  have inSight : ∀ p, task.program? = some p → p.InSight apart g :=
    abreast.inSight task (List.mem_append_right _ List.mem_cons_self)
  -- It is enough that the member is resumed alike, and still in sight.
  have alike : ∃ t', Task.Resumption (kept resumed).length s' task task' t' ∧
      (∀ p, task'.program? = some p → p.InSight apart g) ∧ t.world.SameBut apart g t'.world := by
    cases Task.resume_returns returned with
    | stays invocation => exact ⟨s', .stays invocation, fun _ => nofun, abreast.same⟩
    | @waits _ p owner arrivedEq owned notHeld =>
        have notHeldPart := mt (abreast.held_iff arrivedEq owned).mp notHeld
        refine ⟨_, .waits arrivedEq owned notHeldPart, ?_, abreast.same⟩
        rintro _ ⟨⟩
        exact inSight p (Task.program?_of_arrived arrivedEq)
    | @runs _ p left w' goesOn advanced =>
        have programEq : task.program? = some p :=
          task.program?_arrived.symm.trans goesOn.program?_eq
        obtain ⟨v', advancedPart, same⟩ := (inSight p programEq).advance abreast.same advanced
        refine ⟨_, .runs (abreast.goesOn_part goesOn) advancedPart, ?_, same⟩
        cases left with
        | inl rest =>
            rintro _ ⟨⟩
            exact (inSight p programEq).rest advanced
        | inr invocation => exact fun _ => nofun
  obtain ⟨t', resumption, inSight', same⟩ := alike
  have part : ∃ trace, Reaches (kept programs) ⟨v, Locks.free⟩ trace
      ⟨kept (resumed ++ [(task', true)]), kept pending, t'⟩ := by
    obtain ⟨_, reachedPart⟩ := abreast.part
    rw [kept_append]
    exact ⟨_, reachedPart.resume resumption.returns⟩
  exact ⟨t', resumption.returns, abreast.next returned part (fun _ => inSight') nofun same⟩

/-- A member that is not marked ends when it is resumed, if it has not done so before, and
the other cohort does not notice. -/
theorem Abreast.resume_unmarked
    (abreast : Abreast apart g programs w v resumed ((task, false) :: pending) s s')
    (returned : (task.resume resumed.length).Returns s task' t) :
    Abreast apart g programs w v (resumed ++ [(task', false)]) pending t s' := by
  obtain ⟨_, reached⟩ := abreast.whole
  have outOfSight := abreast.outOfSight task List.mem_cons_self
  have ends : task'.program? = none ∧ t.world.SameBut apart g s'.world := by
    cases Task.resume_returns returned with
    | stays invocation => exact ⟨rfl, abreast.same⟩
    | @waits _ p owner arrivedEq owned notHeld =>
        exfalso
        have isApart : apart owner :=
          (outOfSight p (Task.program?_of_arrived arrivedEq)).owner owner owned
        have held := Orderly.holder_iff reached.orderly.1 reached.orderly.2 arrivedEq owned
        rw [List.length_map] at held
        exact notHeld (held.mpr (abreast.line_eq_nil_of_apart isApart))
    | @runs _ p left w' goesOn advanced =>
        have programEq : task.program? = some p :=
          task.program?_arrived.symm.trans goesOn.program?_eq
        obtain ⟨invocation, rfl, same⟩ := (outOfSight p programEq).advance abreast.same advanced
        exact ⟨rfl, same⟩
  have part : ∃ trace, Reaches (kept programs) ⟨v, Locks.free⟩ trace
      ⟨kept (resumed ++ [(task', false)]), kept pending, s'⟩ := by
    rw [kept_append, kept_cons_false, kept_nil, List.append_nil]
    exact abreast.part
  exact abreast.next returned part nofun (fun _ => ends.1) ends.2

/-- A round of the one cohort is a round of the other. -/
theorem Abreast.round (abreast : Abreast apart g programs w v resumed pending s s')
    {tasks : List (Task σ ω)}
    (returned : (Cohort.round resumed.length (pending.map (·.1))).Returns s tasks t) :
    ∃ marked t', tasks = marked.map (·.1) ∧
      (Cohort.round (kept resumed).length (kept pending)).Returns s' (kept marked) t' ∧
      Abreast apart g programs w v (resumed ++ marked) [] t t' := by
  induction pending generalizing resumed s s' tasks with
  | nil =>
      rcases (returns_pure_iff _ _ _ _).mp returned with ⟨rfl, rfl⟩
      refine ⟨[], s', rfl, (returns_pure_iff _ _ _ _).mpr ⟨rfl, rfl⟩, ?_⟩
      rw [List.append_nil]
      exact abreast
  | cons entry pending ih =>
      rcases entry with ⟨task, mark⟩
      simp only [List.map_cons, Cohort.round, returns_bind_iff, returns_pure_iff] at returned
      obtain ⟨task', middle, resumedOne, others, _, continued, rfl, rfl⟩ := returned
      cases mark with
      | true =>
          obtain ⟨middle', resumedPart, abreastNext⟩ := abreast.resume_marked resumedOne
          rw [← List.length_singleton (a := (task', true)), ← List.length_append] at continued
          obtain ⟨marked, t', rfl, continuedPart, finished⟩ := ih abreastNext continued
          refine ⟨(task', true) :: marked, t', rfl, ?_, by simpa using finished⟩
          rw [kept_append, List.length_append] at continuedPart
          simp only [kept_cons_true, Cohort.round, returns_bind_iff, returns_pure_iff]
          exact ⟨task', middle', resumedPart, kept marked, t', continuedPart, rfl, rfl⟩
      | false =>
          have abreastNext := abreast.resume_unmarked resumedOne
          rw [← List.length_singleton (a := (task', false)), ← List.length_append] at continued
          obtain ⟨marked, t', rfl, continuedPart, finished⟩ := ih abreastNext continued
          refine ⟨(task', false) :: marked, t', rfl, ?_, by simpa using finished⟩
          rw [kept_append, kept_cons_false, kept_nil, List.append_nil] at continuedPart
          exact continuedPart

/-- When the one cohort has settled, so has the other, with the same invocations of its
members. -/
theorem kept_eq_of_settled {tasks : List (Task σ ω × Bool)} {invocations : List Invocation}
    (settled : invocations? (tasks.map (·.1)) = some invocations) :
    invocations? (kept tasks) = some (kept (invocations.zip (tasks.map (·.2)))) := by
  rw [invocations?_eq_some_iff] at settled ⊢
  induction tasks generalizing invocations with
  | nil => simp
  | cons entry tasks ih =>
      rcases entry with ⟨task, mark⟩
      cases invocations with
      | nil => cases settled
      | cons invocation invocations =>
          obtain ⟨rfl, settledRest⟩ := List.cons.inj settled
          cases mark with
          | true => exact congrArg (Task.settled invocation :: ·) (ih settledRest)
          | false => exact ih settledRest

/-- Where the one cohort goes on to another round, so does the other: only members that are
marked are left. -/
theorem Abreast.again {tasks : List (Task σ ω × Bool)}
    (abreast : Abreast apart g programs w v tasks [] s s')
    (unsettled : invocations? (tasks.map (·.1)) = none) :
    Abreast apart g programs w v [] tasks s s' where
  whole := by
    obtain ⟨_, reached⟩ := abreast.whole
    exact ⟨_, reached.round unsettled⟩
  part := by
    obtain ⟨_, reachedPart⟩ := abreast.part
    refine ⟨_, reachedPart.round ?_⟩
    apply Option.eq_none_iff_forall_not_mem.mpr
    intro invocations settled
    obtain ⟨task, mem, p, programEq⟩ := exists_unsettled unsettled
    obtain ⟨⟨_, mark⟩, entryMem, rfl⟩ := List.mem_map.mp mem
    cases mark with
    | false =>
        rw [abreast.settled _ entryMem] at programEq
        cases programEq
    | true =>
        have memKept := (mem_kept_iff _ _).mpr entryMem
        rw [(invocations?_eq_some_iff _ _).mp settled] at memKept
        obtain ⟨invocation, _, taskEq⟩ := List.mem_map.mp memKept
        simp only at taskEq programEq
        rw [← taskEq] at programEq
        cases programEq
  marks := by simpa using abreast.marks
  inSight := by simpa using abreast.inSight
  settled := by simp
  outOfSight other mem p programEq := by
    rw [abreast.settled other mem] at programEq
    cases programEq
  same := abreast.same

/-- When all members have settled nothing is left to do in either cohort. -/
theorem Abreast.rounds_of_settled (abreast : Abreast apart g programs w v resumed pending s s')
    {all invocations : List Invocation} {budget : Nat}
    (settled : invocations? ((resumed ++ pending).map (·.1)) = some all)
    (returned : (Cohort.rounds budget ((resumed ++ pending).map (·.1))).Returns s invocations t) :
    ∃ t', (Cohort.rounds budget (kept (resumed ++ pending))).Returns s'
        (kept (invocations.zip (programs.map (·.2)))) t' ∧ t.world.SameBut apart g t'.world := by
  rw [Cohort.rounds_of_settled settled] at returned
  rcases (returns_pure_iff _ _ _ _).mp returned with ⟨rfl, rfl⟩
  rw [Cohort.rounds_of_settled (kept_eq_of_settled settled), abreast.marks]
  exact ⟨s', (returns_pure_iff _ _ _ _).mpr ⟨rfl, rfl⟩, abreast.same⟩

/-- When the one cohort settles, so does the other, with the same invocations of its
members. -/
theorem Abreast.rounds {tasks : List (Task σ ω × Bool)}
    (abreast : Abreast apart g programs w v [] tasks s s') {budget : Nat}
    {invocations : List Invocation}
    (returned : (Cohort.rounds budget (tasks.map (·.1))).Returns s invocations t) :
    ∃ t', (Cohort.rounds budget (kept tasks)).Returns s'
        (kept (invocations.zip (programs.map (·.2)))) t' ∧ t.world.SameBut apart g t'.world := by
  induction budget generalizing tasks s s' with
  | zero =>
      cases settled : invocations? (tasks.map (·.1)) with
      | some all => exact abreast.rounds_of_settled settled returned
      | none =>
          rw [rounds_zero settled] at returned
          exact absurd returned (not_returns_cutOff _ _ _)
  | succ budget ih =>
      cases settled : invocations? (tasks.map (·.1)) with
      | some all => exact abreast.rounds_of_settled settled returned
      | none =>
          rw [rounds_succ settled, returns_bind_iff] at returned
          obtain ⟨_, middle, rounded, continued⟩ := returned
          obtain ⟨marked, middle', rfl, roundedPart, finished⟩ := abreast.round rounded
          have later : ∃ t', (Cohort.rounds budget (kept marked)).Returns middle'
              (kept (invocations.zip (programs.map (·.2)))) t' ∧
              t.world.SameBut apart g t'.world := by
            cases settled' : invocations? (marked.map (·.1)) with
            | some all =>
                rw [← List.append_nil marked] at settled' continued ⊢
                exact finished.rounds_of_settled settled' continued
            | none => exact ih (finished.again settled') continued
          obtain ⟨t', continuedPart, same⟩ := later
          exact ⟨t', rounds_returns_of_round roundedPart continuedPart, same⟩

/-- Two cohorts of which the one lacks programs out of sight start abreast. -/
theorem Abreast.start (inSight : ∀ p, (p, true) ∈ programs → p.InSight apart g)
    (outOfSight : ∀ p, (p, false) ∈ programs → p.OutOfSight apart g) (same : w.SameBut apart g v) :
    Abreast apart g programs w v [] (mapMarked .fresh programs) ⟨w, Locks.free⟩
      ⟨v, Locks.free⟩ where
  whole := by
    rw [map_fst_mapMarked]
    exact ⟨[], .start⟩
  part := by
    rw [kept_mapMarked]
    exact ⟨[], .start⟩
  marks := map_snd_mapMarked _ _
  inSight task mem q programEq := by
    obtain ⟨p, programMem, rfl⟩ := (mem_mapMarked_iff _ _ _ _).mp mem
    cases programEq
    exact inSight q programMem
  settled := by simp
  outOfSight task mem q programEq := by
    obtain ⟨p, programMem, rfl⟩ := (mem_mapMarked_iff _ _ _ _).mp mem
    cases programEq
    exact outOfSight q programMem
  same := same

/-- Members out of sight may be left out of a cohort: the others return the same
invocations, and leave the same world but for the instances apart. -/
theorem run_returns_kept {handlers : List (Handler σ ω × Bool)} {m : Message} {x : Extra}
    (inSight : ∀ h, (h, true) ∈ handlers → (h.program m x).InSight apart g)
    (outOfSight : ∀ h, (h, false) ∈ handlers → (h.program m x).OutOfSight apart g)
    (same : w.SameBut apart g v) {budget : Nat} {invocations : List Invocation}
    (returned : (run budget (handlers.map (·.1)) m x).Returns ⟨w, Locks.free⟩ invocations s) :
    ∃ s', (run budget (kept handlers) m x).Returns ⟨v, Locks.free⟩
        (kept (invocations.zip (handlers.map (·.2)))) s' ∧ s.world.SameBut apart g s'.world := by
  have abreast : Abreast apart g (mapMarked (fun h => h.program m x) handlers) w v []
      (mapMarked .fresh (mapMarked (fun h => h.program m x) handlers)) ⟨w, Locks.free⟩
      ⟨v, Locks.free⟩ := by
    apply Abreast.start _ _ same
    · intro p mem
      obtain ⟨h, handlerMem, rfl⟩ := (mem_mapMarked_iff _ _ _ _).mp mem
      exact inSight h handlerMem
    · intro p mem
      obtain ⟨h, handlerMem, rfl⟩ := (mem_mapMarked_iff _ _ _ _).mp mem
      exact outOfSight h handlerMem
  simp only [run, returns_onCrash_iff] at returned ⊢
  rw [← map_fst_mapMarked, ← map_fst_mapMarked] at returned
  obtain ⟨s', returnedPart, sameEnd⟩ := abreast.rounds returned
  rw [kept_mapMarked, kept_mapMarked, map_snd_mapMarked] at returnedPart
  exact ⟨s', returnedPart, sameEnd⟩

end Cohort

end Courier
