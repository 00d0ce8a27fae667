import Mathlib.Logic.Hydra
import Courier.Proofs.Cohort.Relay

/-!
# Cohorts settle

In every round the first member that has not settled runs a stretch, for nobody
before it can have its lock.  A stretch puts what is left of a program in its
place, or nothing, so that the programs that are left descend in a well-founded
order: a cohort settles after finitely many rounds unless a member crashes.  In
both cases all locks are free afterwards.
-/

namespace Courier

open Relation

variable {σ ω : Type}

namespace Task

/-- A member that is resumed is not cut off. -/
theorem resume_ne_unfinished (member : Nat) (task : Task σ ω) (s : SharedWorld σ ω) :
    (task.resume member s).outcome ≠ .unfinished := by
  rcases resume_cases member task s with
    ⟨_, _, resumeEq⟩ | ⟨_, _, _, _, _, resumeEq⟩ | ⟨p, _, resumeEq⟩
  · rw [resumeEq]
    exact Action.pure_ne_unfinished _ _
  · rw [resumeEq]
    exact Action.pure_ne_unfinished _ _
  · rw [resumeEq]
    refine Action.bind_ne_unfinished (p.advance_ne_unfinished _) ?_
    intro left _ _
    cases left with
    | inl rest => exact Action.pure_ne_unfinished _ _
    | inr invocation =>
        cases owned : p.owner? with
        | none => exact Action.pure_ne_unfinished _ _
        | some owner => rintro ⟨⟩

end Task

namespace Cohort

/-! ## Descent -/

/-- What is left of the programs of a list of tasks. -/
def leftover (tasks : List (Task σ ω)) : Multiset (Program σ ω) :=
  Multiset.ofList (tasks.filterMap Task.program?)

theorem leftover_cons (task : Task σ ω) (rest : List (Task σ ω)) :
    leftover (task :: rest) = leftover [task] + leftover rest := by
  simp only [leftover, Multiset.coe_add, ← List.filterMap_append, List.singleton_append]

/-- A program is replaced by what may be left of it, or by nothing. -/
abbrev Descends : Multiset (Program σ ω) → Multiset (Program σ ω) → Prop :=
  CutExpand Program.Remainder

/-- A stretch is a descent. -/
theorem descends_of_advance {member : Nat} {locks : Locks} {task : Task σ ω} {p : Program σ ω}
    {left : Program σ ω ⊕ Invocation} {w w' : World σ ω}
    (goesOn : Task.GoesOn member locks task.arrived p) (advanced : p.advance.Returns w left w') :
    Descends (leftover [.ofLeft left]) (leftover [task]) := by
  have programEq := goesOn.program?_eq
  rw [Task.program?_arrived] at programEq
  have leftoverEq : leftover [task] = {p} := by
    simp [leftover, programEq]
  rw [leftoverEq]
  apply cutExpand_singleton
  intro rest mem
  cases left with
  | inl other =>
      obtain rfl : rest = other := by simpa [leftover, Task.ofLeft, Task.program?] using mem
      exact ⟨w, w', advanced⟩
  | inr invocation => simp [leftover, Task.ofLeft, Task.program?] at mem

theorem leftover_of_waits {task : Task σ ω} {p : Program σ ω}
    (arrivedEq : task.arrived = .queued p) : leftover [.queued p] = leftover [task] := by
  cases task <;> cases arrivedEq <;> rfl

/-- No round adds to what is left. -/
theorem descends_of_round {member : Nat} {pending tasks : List (Task σ ω)}
    {s s' : SharedWorld σ ω} (returned : (round member pending).Returns s tasks s') :
    ReflTransGen Descends (leftover tasks) (leftover pending) := by
  induction pending generalizing member tasks s with
  | nil =>
      rcases (Action.returns_pure_iff _ _ _ _).mp returned with ⟨rfl, _⟩
      exact .refl
  | cons task pending ih =>
      simp only [round, Action.returns_bind_iff, Action.returns_pure_iff] at returned
      rcases returned with ⟨task', middle, resumed, others, _, continued, rfl, rfl⟩
      rw [leftover_cons task', leftover_cons task]
      have later : ReflTransGen Descends (leftover [task'] + leftover others)
          (leftover [task'] + leftover pending) :=
        (ih continued).lift _ fun _ _ => (cutExpand_add_left _).mpr
      apply later.trans
      cases Task.resume_returns resumed with
      | stays invocation => exact .refl
      | waits arrivedEq => rw [leftover_of_waits arrivedEq]
      | runs goesOn advanced =>
          exact .single ((cutExpand_add_right _).mpr (descends_of_advance goesOn advanced))

variable {front pending : List (Task σ ω)}

/-- Behind members that have settled nobody waits. -/
theorem Orderly.holder_of_settled {p : Program σ ω} {locks : Locks}
    {owner : InstanceId} (orderly : Orderly (front ++ .queued p :: pending) locks)
    (settled : ∀ earlier ∈ front, earlier.program? = none) (owned : p.owner? = some owner) :
    (locks owner).holder = some front.length := by
  have frontEmpty : line owner 0 front = [] := by
    apply List.eq_nil_iff_forall_not_mem.mpr
    intro k mem
    obtain ⟨n, earlier, q, _, earlierEq, programEq, _⟩ := mem_line mem
    rw [settled earlier (List.mem_of_getElem? earlierEq)] at programEq
    contradiction
  rw [orderly.locksEq, line_append, frontEmpty, line_cons]
  simp [Task.place, owned]

/-- In a round that does not find all members settled the first that has not
settled runs a stretch. -/
theorem strictly_descends_of_round {tasks : List (Task σ ω)} {s s' : SharedWorld σ ω}
    (orderly : Orderly (front ++ pending) s.locks)
    (settled : ∀ earlier ∈ front, earlier.program? = none)
    (unsettled : ∃ task ∈ pending, ∃ p, task.program? = some p)
    (returned : (round front.length pending).Returns s tasks s') :
    TransGen Descends (leftover tasks) (leftover pending) := by
  induction pending generalizing front tasks s with
  | nil =>
      rcases unsettled with ⟨task, mem, _⟩
      exact absurd mem List.not_mem_nil
  | cons task pending ih =>
      have asked : ∀ earlier ∈ front, earlier.isFresh = false := by
        intro earlier mem
        have programEq := settled earlier mem
        cases earlier with
        | settled invocation => rfl
        | _ => contradiction
      have arrived := orderly.arrive asked
      simp only [round, Action.returns_bind_iff, Action.returns_pure_iff] at returned
      rcases returned with ⟨task', middle, resumed, others, _, continued, rfl, rfl⟩
      rw [leftover_cons task', leftover_cons task]
      cases Task.resume_returns resumed with
      | stays invocation =>
          have settledNow : ∀ earlier ∈ front ++ [Task.settled invocation],
              earlier.program? = none := by
            intro earlier mem
            rcases List.mem_append.mp mem with before | now
            · exact settled earlier before
            · rw [List.mem_singleton.mp now]
              rfl
          rcases unsettled with ⟨other, mem, p, programEq⟩
          have later : ∃ other ∈ pending, ∃ p, other.program? = some p := by
            rcases List.mem_cons.mp mem with rfl | mem
            · contradiction
            · exact ⟨other, mem, p, programEq⟩
          have strictly := ih (by simpa using orderly) settledNow later (by simpa using continued)
          exact strictly.lift _ fun _ _ => (cutExpand_add_left _).mpr
      | waits arrivedEq owned notHeld =>
          rw [arrivedEq] at arrived
          exact absurd (arrived.holder_of_settled settled owned) notHeld
      | runs goesOn advanced =>
          refine .tail' ?_ ((cutExpand_add_right _).mpr (descends_of_advance goesOn advanced))
          exact (descends_of_round continued).lift _ fun _ _ => (cutExpand_add_left _).mpr

/-! ## Finitely many rounds -/

theorem round_ne_unfinished (member : Nat) (tasks : List (Task σ ω)) (s : SharedWorld σ ω) :
    (round member tasks s).outcome ≠ .unfinished := by
  induction tasks generalizing member s with
  | nil => exact Action.pure_ne_unfinished _ _
  | cons task rest ih =>
      apply Action.bind_ne_unfinished (task.resume_ne_unfinished member s)
      intro _ middle _
      apply Action.bind_ne_unfinished (ih (member + 1) middle)
      intro _ _ _
      exact Action.pure_ne_unfinished _ _

theorem exists_unsettled {tasks : List (Task σ ω)} (unsettled : invocations? tasks = none) :
    ∃ task ∈ tasks, ∃ p, task.program? = some p := by
  by_contra settled
  push Not at settled
  have allSettled : ∃ invocations : List Invocation, tasks = invocations.map .settled := by
    clear unsettled
    induction tasks with
    | nil => exact ⟨[], rfl⟩
    | cons task rest ih =>
        rw [List.forall_mem_cons] at settled
        obtain ⟨invocations, rfl⟩ := ih settled.2
        cases task with
        | settled invocation => exact ⟨invocation :: invocations, rfl⟩
        | _ => exact absurd rfl (settled.1 _)
  rcases allSettled with ⟨invocations, tasksEq⟩
  rw [(invocations?_eq_some_iff tasks invocations).mpr tasksEq] at unsettled
  contradiction

theorem rounds_ne_unfinished_of_settled {tasks : List (Task σ ω)} {invocations : List Invocation}
    (settled : invocations? tasks = some invocations) (s : SharedWorld σ ω) :
    (rounds 0 tasks s).outcome ≠ .unfinished := by
  rw [rounds_of_settled settled]
  exact Action.pure_ne_unfinished _ _

theorem rounds_succ_ne_unfinished {budget : Nat} {tasks : List (Task σ ω)}
    (unsettled : invocations? tasks = none) {s : SharedWorld σ ω}
    (ended : ∀ tasks' s', (round 0 tasks).Returns s tasks' s' →
      (rounds budget tasks' s').outcome ≠ .unfinished) :
    (rounds (budget + 1) tasks s).outcome ≠ .unfinished := by
  rw [rounds_succ unsettled]
  exact Action.bind_ne_unfinished (round_ne_unfinished 0 tasks s) ended

variable {programs : List (Program σ ω)} {w : World σ ω}

/-- From every stage between two rounds finitely many rounds lead to the end. -/
theorem Reaches.exists_rounds {trace : List (Stretch σ ω)} {tasks : List (Task σ ω)}
    {s : SharedWorld σ ω} (reached : Reaches programs ⟨w, Locks.free⟩ trace ⟨[], tasks, s⟩) :
    ∃ budget, (rounds budget tasks s).outcome ≠ .unfinished := by
  have descending : WellFounded (TransGen (Descends (σ := σ) (ω := ω))) :=
    Program.remainder_wellFounded.cutExpand.transGen
  generalize leftoverEq : leftover tasks = programsLeft
  induction programsLeft using descending.induction generalizing trace tasks s with
  | _ programsLeft ih =>
      subst leftoverEq
      cases settled : invocations? tasks with
      | some invocations => exact ⟨0, rounds_ne_unfinished_of_settled settled s⟩
      | none =>
          rcases Action.returns_or_crashes (round_ne_unfinished 0 tasks s) with
            ⟨tasks', s', returned⟩ | ⟨text, s', crashed⟩
          · obtain ⟨trace', nextReached⟩ := reached.of_round returned
            have ends : ∃ budget, (rounds budget tasks' s').outcome ≠ .unfinished := by
              cases settled' : invocations? tasks' with
              | some invocations => exact ⟨0, rounds_ne_unfinished_of_settled settled' s'⟩
              | none =>
                  have strictly := strictly_descends_of_round reached.orderly.1
                    (fun _ mem => absurd mem List.not_mem_nil) (exists_unsettled settled) returned
                  exact ih _ strictly (nextReached.round settled') rfl
            rcases ends with ⟨budget, ended⟩
            have endedNext : (rounds (budget + 1) tasks s).outcome ≠ .unfinished := by
              apply rounds_succ_ne_unfinished settled
              intro _ _ sameReturned
              obtain ⟨rfl, rfl⟩ := returned.unique sameReturned
              exact ended
            exact ⟨budget + 1, endedNext⟩
          · have endedNow : (rounds 1 tasks s).outcome ≠ .unfinished := by
              apply rounds_succ_ne_unfinished settled
              intro _ _ returned
              exact absurd crashed returned.not_crashes
            exact ⟨1, endedNow⟩

/-! ## Free locks -/

/-- Only members that need an instance stand in line at its lock; `member` is the
number of the first program. -/
def Lined (member : Nat) (programs : List (Program σ ω)) (locks : Locks) : Prop :=
  ∀ i, ∃ line, locks i = Lock.ofLine line ∧
    ∀ k ∈ line, ∃ n p, k = member + n ∧ programs[n]? = some p ∧ p.owner? = some i

/-- When all members are dropped nobody stands in line. -/
theorem drop_eq_free {member : Nat} {programs : List (Program σ ω)} {locks : Locks}
    (lined : Lined member programs locks) : drop member programs locks = Locks.free := by
  induction programs generalizing member locks with
  | nil =>
      funext i
      obtain ⟨line, locksEq, members⟩ := lined i
      cases line with
      | nil => exact locksEq
      | cons k others =>
          obtain ⟨_, _, _, programEq, _⟩ := members k List.mem_cons_self
          contradiction
  | cons p rest ih =>
      -- Who is left in a line after the first member is dropped is one of the others.
      have later : ∀ {i k}, (k = member → p.owner? ≠ some i) →
          (∃ n q, k = member + n ∧ (p :: rest)[n]? = some q ∧ q.owner? = some i) →
          ∃ n q, k = member + 1 + n ∧ rest[n]? = some q ∧ q.owner? = some i := by
        rintro i k notFirst ⟨n, q, rfl, programEq, owned⟩
        cases n with
        | zero =>
            cases programEq
            exact absurd owned (notFirst rfl)
        | succ n => exact ⟨n, q, by omega, programEq, owned⟩
      apply ih
      intro i
      obtain ⟨line, locksEq, members⟩ := lined i
      cases owned : p.owner? with
      | none => exact ⟨line, locksEq, fun k mem => later (by simp [owned]) (members k mem)⟩
      | some owner =>
          by_cases same : i = owner
          · subst same
            refine ⟨line.filter fun other => other ≠ member, ?_, ?_⟩
            · show locks.update i (fun l => l.forget member) i = _
              rw [Locks.update_same, locksEq, Lock.forget_ofLine]
            · intro k mem
              rcases List.mem_filter.mp mem with ⟨inLine, notFirst⟩
              exact later (fun first => absurd first (by simpa using notFirst)) (members k inLine)
          · refine ⟨line, (Locks.update_of_ne _ same _).trans locksEq, ?_⟩
            intro k mem
            apply later _ (members k mem)
            intro _ ownedHere
            rw [owned] at ownedHere
            exact same (Option.some.inj ownedHere).symm

/-- Where a member has crashed, all locks are free once the cohort is dropped. -/
theorem CrashesAt.drop_eq_free {text : String} {s' : SharedWorld σ ω}
    (crashed : CrashesAt programs ⟨w, Locks.free⟩ text s') :
    drop 0 programs s'.locks = Locks.free := by
  rcases crashed with ⟨trace, resumed, task, pending, s, reached, crashed⟩
  obtain ⟨p, w', _, _, rfl⟩ := Task.resume_crashes crashed
  rcases reached.orderly with ⟨orderly, asked⟩
  have arrived := Orderly.arrive orderly asked
  have owners := reached.forall_program
    (P := fun k p => ∃ q, programs[k]? = some q ∧ q.owner? = p.owner?)
    (fun k p programEq => ⟨p, programEq, rfl⟩)
    (fun k p _ rest _ ⟨q, programEq, ownerEq⟩ advanced =>
      ⟨q, programEq, ownerEq.trans (Program.owner?_of_advance advanced).symm⟩)
  refine Cohort.drop_eq_free fun i => ⟨_, arrived.locksEq i, ?_⟩
  intro k mem
  obtain ⟨n, other, q, rfl, taskEq, programEq, owned⟩ := mem_line mem
  have before : ∃ earlier, (resumed ++ task :: pending)[n]? = some earlier ∧
      earlier.program? = some q := by
    by_cases same : n = resumed.length
    · subst same
      rw [getElem?_at] at taskEq
      cases taskEq
      exact ⟨task, getElem?_at _ _ _, by simpa using programEq⟩
    · rw [getElem?_of_ne same] at taskEq
      exact ⟨other, taskEq, programEq⟩
  rcases before with ⟨earlier, earlierEq, earlierProgram⟩
  obtain ⟨first, firstEq, ownerEq⟩ := owners n earlier q earlierEq earlierProgram
  exact ⟨n, first, rfl, firstEq, ownerEq.trans owned⟩

/-- Where all members have settled, all locks are free. -/
theorem Orderly.locks_eq_free {invocations : List Invocation} {locks : Locks}
    (orderly : Orderly (invocations.map (Task.settled (σ := σ) (ω := ω))) locks) :
    locks = Locks.free := by
  funext i
  rw [orderly.locksEq]
  have lineEq : line i 0 (invocations.map (Task.settled (σ := σ) (ω := ω))) = [] := by
    apply List.eq_nil_iff_forall_not_mem.mpr
    intro k mem
    obtain ⟨n, task, p, _, taskEq, programEq, _⟩ := mem_line mem
    rcases List.mem_map.mp (List.mem_of_getElem? taskEq) with ⟨invocation, _, rfl⟩
    contradiction
  rw [lineEq]
  rfl

/-! ## Cohorts of handlers -/

/-- A cohort of handlers gets to a stage from a world in which nothing is locked. -/
abbrev Passes (handlers : List (Handler σ ω)) (m : Message) (x : Extra) (w : World σ ω) :
    List (Stretch σ ω) → Stage σ ω → Prop :=
  Reaches (handlers.map fun h => h.program m x) ⟨w, Locks.free⟩

/-- A member of a cohort of handlers crashes at a stage that the cohort gets to. -/
abbrev MemberCrashes (handlers : List (Handler σ ω)) (m : Message) (x : Extra) (w : World σ ω) :
    Prop :=
  ∃ text s', CrashesAt (handlers.map fun h => h.program m x) ⟨w, Locks.free⟩ text s'

/-- A cohort that returns has settled at one of its stages. -/
theorem run_returns {handlers : List (Handler σ ω)} {m : Message} {x : Extra}
    {budget : Nat} {invocations : List Invocation} {s s' : SharedWorld σ ω}
    (returned : (run budget handlers m x).Returns s invocations s') :
    ∃ trace stage, Reaches (handlers.map fun h => h.program m x) s trace stage ∧
      stage.tasks = invocations.map .settled ∧ stage.shared = s' := by
  obtain ⟨trace, stage, reached, settled, sharedEq⟩ :=
    Reaches.start.of_rounds ((Action.returns_onCrash_iff _ _ _ _ _).mp returned)
  exact ⟨trace, stage, reached, (invocations?_eq_some_iff _ _).mp settled, sharedEq⟩

/-- A cohort returns one invocation for each of its handlers. -/
theorem length_of_run_returns {handlers : List (Handler σ ω)} {m : Message} {x : Extra}
    {budget : Nat} {invocations : List Invocation} {s s' : SharedWorld σ ω}
    (returned : (run budget handlers m x).Returns s invocations s') :
    invocations.length = handlers.length := by
  obtain ⟨trace, stage, reached, tasksEq, _⟩ := run_returns returned
  have lengthEq := reached.length_eq
  rw [tasksEq] at lengthEq
  simpa using lengthEq

/-- A cohort that returns leaves no instance locked. -/
theorem locks_of_run_returns {handlers : List (Handler σ ω)} {m : Message} {x : Extra}
    {w : World σ ω} {budget : Nat} {invocations : List Invocation} {s' : SharedWorld σ ω}
    (returned : (run budget handlers m x).Returns ⟨w, Locks.free⟩ invocations s') :
    s'.locks = Locks.free := by
  obtain ⟨trace, stage, reached, tasksEq, rfl⟩ := run_returns returned
  have orderly := reached.orderly.1
  rw [tasksEq] at orderly
  exact orderly.locks_eq_free

theorem run_approximates {budget larger : Nat} (le : budget ≤ larger)
    (handlers : List (Handler σ ω)) (m : Message) (x : Extra) :
    Action.Approximates (run budget handlers m x) (run larger handlers m x) :=
  (rounds_approximates le _).onCrash _

/-- A cohort that returns does so however many more rounds it is allowed. -/
theorem run_returns_mono {handlers : List (Handler σ ω)} {m : Message} {x : Extra}
    {budget larger : Nat} (le : budget ≤ larger) {invocations : List Invocation}
    {s s' : SharedWorld σ ω} (returned : (run budget handlers m x).Returns s invocations s') :
    (run larger handlers m x).Returns s invocations s' :=
  (run_approximates le handlers m x).returns returned

/-- A cohort that crashes does so because a member does. -/
theorem run_crashes {handlers : List (Handler σ ω)} {m : Message} {x : Extra} {w : World σ ω}
    {budget : Nat} {text : String} {s' : SharedWorld σ ω}
    (crashed : (run budget handlers m x).Crashes ⟨w, Locks.free⟩ text s') :
    MemberCrashes handlers m x w ∧ s'.locks = Locks.free := by
  rcases (Action.crashes_onCrash_iff _ _ _ _ _).mp crashed with ⟨t, roundsCrashed, rfl⟩
  have crashedAt := Reaches.start.of_rounds_crashes roundsCrashed
  exact ⟨⟨text, t, crashedAt⟩, crashedAt.drop_eq_free⟩

/-- A cohort settles after finitely many rounds unless a member crashes. -/
theorem exists_run_returns_or_crashes (handlers : List (Handler σ ω)) (m : Message) (x : Extra)
    (w : World σ ω) :
    (∃ budget invocations s', (run budget handlers m x).Returns ⟨w, Locks.free⟩ invocations s') ∨
      MemberCrashes handlers m x w := by
  have passed : Passes handlers m x w [] ⟨[], _, ⟨w, Locks.free⟩⟩ := .start
  rcases passed.exists_rounds with ⟨budget, ended⟩
  rcases Action.returns_or_crashes ended with ⟨invocations, s', returned⟩ | ⟨text, s', crashed⟩
  · exact .inl ⟨budget, invocations, s', (Action.returns_onCrash_iff _ _ _ _ _).mpr returned⟩
  · exact .inr ⟨text, s', Reaches.start.of_rounds_crashes crashed⟩

/-- Members that share an instance exclude each other, whatever they do and
wherever they suspend.  At every stage at most one is in the middle of its
lifecycle on an instance, and it has the lock; and what has been run on the
instance is a relay: whole lifecycles one after the other in registration order,
each on the state that the one before has left.  Unless a member crashes the
cohort settles, with one invocation for each registration; and however it ends no
instance stays locked. -/
theorem run_excludes (handlers : List (Handler σ ω)) (m : Message) (x : Extra) (w : World σ ω) :
    (∀ trace stage, Passes handlers m x w trace stage → ∀ i,
      (∀ k, stage.Holds i k → (stage.shared.locks i).holder = some k) ∧
      (∀ k l, stage.Holds i k → stage.Holds i l → k = l) ∧
      Relay i (unsettled i 0 (handlers.map fun h => .fresh (h.program m x))) (w.instances i)
        (onInstance i trace) (unsettled i 0 stage.tasks) (stage.shared.world.instances i)) ∧
    ((∃ budget invocations s',
        (run budget handlers m x).Returns ⟨w, Locks.free⟩ invocations s') ∨
      MemberCrashes handlers m x w) ∧
    (∀ budget invocations s',
      (run budget handlers m x).Returns ⟨w, Locks.free⟩ invocations s' →
      invocations.length = handlers.length ∧ s'.locks = Locks.free ∧
        ∃ trace stage, Passes handlers m x w trace stage ∧
          stage.tasks = invocations.map .settled ∧ stage.shared = s') ∧
    ∀ budget text s', (run budget handlers m x).Crashes ⟨w, Locks.free⟩ text s' →
      MemberCrashes handlers m x w ∧ s'.locks = Locks.free := by
  refine ⟨?_, exists_run_returns_or_crashes handlers m x w, ?_, fun _ _ _ => run_crashes⟩
  · intro trace stage passed i
    have holder := fun k (holds : stage.Holds i k) => passed.holder_of_holds holds
    refine ⟨holder, ?_, ?_⟩
    · intro k l holdsFirst holdsSecond
      exact Option.some.inj ((holder k holdsFirst).symm.trans (holder l holdsSecond))
    · simpa [Function.comp_def] using passed.relay i
  · intro budget invocations s' returned
    exact ⟨length_of_run_returns returned, locks_of_run_returns returned, run_returns returned⟩

end Cohort

end Courier
