import Courier.Proofs.Cohort.Settling
import Courier.Proofs.Handler.Footprint
import Courier.Proofs.Handler.InTurn

/-!
# Cohorts in sequence

Let the members of a cohort go to their ends one after the other, in registration
order, from where they stand.  What comes out of that, as far as is seen, does not
change when a member is resumed, provided that its stretch may as well be run
before what the members in front of it still have to do.  So the cohort returns
what its handlers return in turn.
-/

namespace Courier

open Courier.Action

variable {σ ω κ : Type}

/-- Run what is left of the lifecycle of a member. -/
def Task.finish : Task σ ω → Action (World σ ω) Invocation
  | fresh p => p.run
  | queued p => p.run
  | active p => p.run
  | settled invocation => pure invocation

theorem Task.finish_eq_run {task : Task σ ω} {p : Program σ ω}
    (programEq : task.program? = some p) : task.finish = p.run := by
  cases task <;> cases programEq <;> rfl

@[simp]
theorem Task.finish_arrived (task : Task σ ω) : task.arrived.finish = task.finish := by
  cases task <;> rfl

theorem Task.finish_ofLeft (left : Program σ ω ⊕ Invocation) :
    (ofLeft left : Task σ ω).finish = Program.finish left := by
  cases left <;> rfl

namespace Cohort

/-- Run what is left of all lifecycles, one after the other. -/
def finish : List (Task σ ω) → Action (World σ ω) (List Invocation)
  | [] => pure []
  | task :: rest => do
      let invocation ← task.finish
      return invocation :: (← finish rest)

theorem finish_nil_returns_iff (w w' : World σ ω) (invocations : List Invocation) :
    (finish ([] : List (Task σ ω))).Returns w invocations w' ↔ invocations = [] ∧ w = w' := by
  rw [finish, returns_pure_iff]
  constructor
  · rintro ⟨rfl, rfl⟩
    exact ⟨rfl, rfl⟩
  · rintro ⟨rfl, rfl⟩
    exact ⟨rfl, rfl⟩

theorem finish_cons_returns_iff (task : Task σ ω) (rest : List (Task σ ω)) (w w' : World σ ω)
    (invocations : List Invocation) :
    (finish (task :: rest)).Returns w invocations w' ↔
      ∃ invocation others middle, task.finish.Returns w invocation middle ∧
        (finish rest).Returns middle others w' ∧ invocations = invocation :: others := by
  simp only [finish, returns_bind_iff, returns_pure_iff]
  constructor
  · rintro ⟨invocation, middle, first, others, _, second, rfl, rfl⟩
    exact ⟨invocation, others, middle, first, second, rfl⟩
  · rintro ⟨invocation, others, middle, first, second, rfl⟩
    exact ⟨invocation, middle, first, others, w', second, rfl, rfl⟩

theorem finish_append_returns_iff (front back : List (Task σ ω)) (w w' : World σ ω)
    (invocations : List Invocation) :
    (finish (front ++ back)).Returns w invocations w' ↔
      ∃ before behind middle, (finish front).Returns w before middle ∧
        (finish back).Returns middle behind w' ∧ invocations = before ++ behind := by
  induction front generalizing w invocations with
  | nil =>
      simp only [List.nil_append, finish_nil_returns_iff]
      constructor
      · intro returned
        exact ⟨[], invocations, w, ⟨rfl, rfl⟩, returned, rfl⟩
      · rintro ⟨_, _, _, ⟨rfl, rfl⟩, returned, rfl⟩
        exact returned
  | cons task front ih =>
      simp only [List.cons_append, finish_cons_returns_iff, ih]
      constructor
      · rintro ⟨invocation, _, first, ran, ⟨before, behind, middle, ranFront, ranBack, rfl⟩, rfl⟩
        exact ⟨_, behind, middle, ⟨invocation, before, first, ran, ranFront, rfl⟩, ranBack, rfl⟩
      · rintro ⟨_, behind, middle, ⟨invocation, before, first, ran, ranFront, rfl⟩, ranBack, rfl⟩
        exact ⟨invocation, _, first, ran, ⟨before, behind, middle, ranFront, ranBack, rfl⟩, rfl⟩

theorem finish_settled_returns_iff (settled invocations : List Invocation) (w w' : World σ ω) :
    (finish (settled.map (Task.settled (σ := σ) (ω := ω)))).Returns w invocations w' ↔
      invocations = settled ∧ w = w' := by
  induction settled generalizing w invocations with
  | nil => exact finish_nil_returns_iff w w' invocations
  | cons invocation settled ih =>
      simp only [List.map_cons, finish_cons_returns_iff, Task.finish, returns_pure_iff, ih]
      constructor
      · rintro ⟨_, _, _, ⟨rfl, rfl⟩, ⟨rfl, rfl⟩, rfl⟩
        exact ⟨rfl, rfl⟩
      · rintro ⟨rfl, rfl⟩
        exact ⟨_, _, _, ⟨rfl, rfl⟩, ⟨rfl, rfl⟩, rfl⟩

/-- The cohort in sequence is its handlers in turn. -/
theorem inTurn_iff_finish (x : Extra) (m : Message) (handlers : List (Handler σ ω))
    (w w' : World σ ω) (entries : List (String × Invocation)) :
    Handler.InTurn x m handlers w entries w' ↔
      ∃ invocations, (finish (handlers.map fun h => .fresh (h.program m x))).Returns w
          invocations w' ∧
        entries = (handlers.zip invocations).map fun entry => (entry.1.name, entry.2) := by
  induction handlers generalizing w entries with
  | nil =>
      simp only [Handler.inTurn_nil_iff, List.map_nil, finish_nil_returns_iff, List.zip_nil_left]
      constructor
      · rintro ⟨rfl, rfl⟩
        exact ⟨[], ⟨rfl, rfl⟩, rfl⟩
      · rintro ⟨_, ⟨_, rfl⟩, rfl⟩
        exact ⟨rfl, rfl⟩
  | cons h rest ih =>
      simp only [Handler.inTurn_cons_iff, h.invoke_returns_iff, ih, List.map_cons,
        finish_cons_returns_iff, Task.finish]
      constructor
      · rintro ⟨invocation, middle, _, ran, ⟨invocations, ranRest, rfl⟩, rfl⟩
        exact ⟨_, ⟨invocation, invocations, middle, ran, ranRest, rfl⟩, rfl⟩
      · rintro ⟨_, ⟨invocation, invocations, middle, ran, ranRest, rfl⟩, rfl⟩
        exact ⟨invocation, middle, _, ran, ⟨invocations, ranRest, rfl⟩, rfl⟩

/-- What is left needs to know no more of the outside than each member does. -/
theorem finish_respects {g : ω → κ} {tasks : List (Task σ ω)}
    (respects : ∀ task ∈ tasks, task.finish.Respects (World.seen g)) :
    (finish tasks).Respects (World.seen g) := by
  induction tasks with
  | nil => exact Respects.pure _ _
  | cons task rest ih =>
      rw [List.forall_mem_cons] at respects
      apply Respects.bind respects.1
      intro invocation
      apply Respects.bind (ih respects.2)
      intro others
      exact Respects.pure _ _

/-! ## Stretches out of turn -/

/-- A stretch of a program may as well be run before an action that is ahead of
it. -/
structure Swaps {α : Type} (g : ω → κ) (ahead : Action (World σ ω) α) (p : Program σ ω) :
    Prop where
  earlier : ∀ {w a middle left w'}, ahead.Returns w a middle → p.advance.Returns middle left w' →
    ∃ between final, p.advance.Returns w left between ∧ ahead.Returns between a final ∧
      final.seen g = w'.seen g
  later : ∀ {w left middle a w'}, p.advance.Returns w left middle → ahead.Returns middle a w' →
    ∃ between final, ahead.Returns w a between ∧ p.advance.Returns between left final ∧
      final.seen g = w'.seen g

theorem Swaps.pure {α : Type} (g : ω → κ) (a : α) (p : Program σ ω) :
    Swaps g (pure a : Action (World σ ω) α) p where
  earlier {w b middle left w'} returned advanced := by
    rcases (returns_pure_iff a b w middle).mp returned with ⟨rfl, rfl⟩
    exact ⟨w', w', advanced, (returns_pure_iff _ _ _ _).mpr ⟨rfl, rfl⟩, rfl⟩
  later {w left middle b w'} advanced returned := by
    rcases (returns_pure_iff a b middle w').mp returned with ⟨rfl, rfl⟩
    exact ⟨w, middle, (returns_pure_iff _ _ _ _).mpr ⟨rfl, rfl⟩, advanced, rfl⟩

/-- A stretch passes first what is nearer to it, and then what is ahead of that. -/
theorem Swaps.bind {α β : Type} {g : ω → κ} {ahead : Action (World σ ω) α}
    {next : α → Action (World σ ω) β} {p : Program σ ω} (far : Swaps g ahead p)
    (near : ∀ a, Swaps g (next a) p) (respects : ∀ a, (next a).Respects (World.seen g)) :
    Swaps g (ahead >>= next) p where
  earlier {w b middle left w'} returned advanced := by
    rcases (returns_bind_iff ahead next w middle b).mp returned with ⟨a, there, ran, ranNext⟩
    obtain ⟨_, final, advancedThere, ranNextThen, sameFinal⟩ := (near a).earlier ranNext advanced
    obtain ⟨first, second, advancedFirst, ranThen, sameSecond⟩ := far.earlier ran advancedThere
    obtain ⟨final', ranNextAlike, sameEnd⟩ := respects a sameSecond.symm ranNextThen
    refine ⟨first, final', advancedFirst, ?_, sameEnd.symm.trans sameFinal⟩
    exact (returns_bind_iff _ _ _ _ _).mpr ⟨a, second, ranThen, ranNextAlike⟩
  later {w left middle b w'} advanced returned := by
    rcases (returns_bind_iff ahead next middle w' b).mp returned with ⟨a, there, ran, ranNext⟩
    obtain ⟨first, second, ranFirst, advancedThen, sameSecond⟩ := far.later advanced ran
    obtain ⟨final, ranNextAlike, sameFinal⟩ := respects a sameSecond.symm ranNext
    obtain ⟨behind, final', ranNextThen, advancedLast, sameEnd⟩ :=
      (near a).later advancedThen ranNextAlike
    refine ⟨behind, final', ?_, advancedLast, sameEnd.trans sameFinal.symm⟩
    exact (returns_bind_iff _ _ _ _ _).mpr ⟨a, first, ranFirst, ranNextThen⟩

/-- Quiet programs of different instances are not in each other's way. -/
theorem swaps_run {g : ω → κ} {p q : Program σ ω} (quiet : p.Quiet g) (quietAhead : q.Quiet g)
    (apart : ∀ i, p.owner? = some i → q.owner? ≠ some i) : Swaps g q.run p where
  earlier ran advanced :=
    quietAhead.run_localTo.swap quiet.advance_localTo (fun i owned owned' => apart i owned' owned)
      ran advanced
  later advanced ran := quiet.advance_localTo.swap quietAhead.run_localTo apart advanced ran

/-- What is true of the members in front is true of all that they have to do. -/
theorem swaps_finish {g : ω → κ} {front : List (Task σ ω)} {p : Program σ ω}
    (swaps : ∀ task ∈ front, Swaps g task.finish p)
    (respects : ∀ task ∈ front, task.finish.Respects (World.seen g)) :
    Swaps g (finish front) p := by
  induction front with
  | nil => exact .pure g [] p
  | cons task rest ih =>
      rw [List.forall_mem_cons] at swaps respects
      apply Swaps.bind swaps.1
      · intro invocation
        apply Swaps.bind (ih swaps.2 respects.2)
        · exact fun others => .pure g _ p
        · exact fun others => Respects.pure _ _
      · intro invocation
        apply Respects.bind (finish_respects respects.2)
        exact fun others => Respects.pure _ _

/-- Members that have settled are not in the way. -/
theorem swaps_settled (g : ω → κ) (settled : List Invocation) (p : Program σ ω) :
    Swaps g (finish (settled.map .settled)) p := by
  apply swaps_finish
  · intro task mem
    rcases List.mem_map.mp mem with ⟨invocation, _, rfl⟩
    exact .pure g invocation p
  · intro task mem
    rcases List.mem_map.mp mem with ⟨invocation, _, rfl⟩
    exact Respects.pure _ invocation

/-- The cohort in sequence comes to these invocations, and this is seen of the world
then. -/
def ComesTo (g : ω → κ) (tasks : List (Task σ ω)) (w : World σ ω)
    (invocations : List Invocation) (seen : World σ κ) : Prop :=
  ∃ w', (finish tasks).Returns w invocations w' ∧ w'.seen g = seen

/-- Where a stretch may be run out of turn, the cohort in sequence goes on from
behind it as it would have gone on from before. -/
theorem comesTo_iff_of_advance {g : ω → κ} {front back : List (Task σ ω)} {task : Task σ ω}
    {p : Program σ ω} (swaps : Swaps g (finish front) p) (programEq : task.program? = some p)
    {left : Program σ ω ⊕ Invocation} {w middle : World σ ω}
    (advanced : p.advance.Returns w left middle)
    (respects : ∀ task ∈ Task.ofLeft left :: back, task.finish.Respects (World.seen g))
    (invocations : List Invocation) (seen : World σ κ) :
    ComesTo g (front ++ task :: back) w invocations seen ↔
      ComesTo g (front ++ .ofLeft left :: back) middle invocations seen := by
  have backRespects : (finish (Task.ofLeft left :: back)).Respects (World.seen g) :=
    finish_respects respects
  unfold ComesTo
  constructor
  · rintro ⟨w', finished, rfl⟩
    obtain ⟨before, _, between, ranFront, finishedBack, rfl⟩ :=
      (finish_append_returns_iff _ _ _ _ _).mp finished
    obtain ⟨invocation, behind, last, ran, ranBack, rfl⟩ :=
      (finish_cons_returns_iff _ _ _ _ _).mp finishedBack
    rw [Task.finish_eq_run programEq, p.run_returns_iff_advance] at ran
    rcases ran with ⟨left', there, advancedThere, finishedLeft⟩
    obtain ⟨first, second, advancedFirst, ranFrontThen, sameSecond⟩ :=
      swaps.earlier ranFront advancedThere
    obtain ⟨rfl, rfl⟩ := advanced.unique advancedFirst
    rw [← Task.finish_ofLeft] at finishedLeft
    obtain ⟨final, finishedAlike, sameEnd⟩ := backRespects sameSecond.symm
      ((finish_cons_returns_iff _ _ _ _ _).mpr
        ⟨invocation, behind, last, finishedLeft, ranBack, rfl⟩)
    refine ⟨final, ?_, sameEnd.symm⟩
    rw [finish_append_returns_iff]
    exact ⟨before, _, second, ranFrontThen, finishedAlike, rfl⟩
  · rintro ⟨w', finished, rfl⟩
    obtain ⟨before, _, between, ranFront, finishedBack, rfl⟩ :=
      (finish_append_returns_iff _ _ _ _ _).mp finished
    obtain ⟨first, second, ranFrontFirst, advancedThen, sameSecond⟩ :=
      swaps.later advanced ranFront
    obtain ⟨final, finishedAlike, sameEnd⟩ := backRespects sameSecond.symm finishedBack
    obtain ⟨invocation, behind, last, ran, ranBack, rfl⟩ :=
      (finish_cons_returns_iff _ _ _ _ _).mp finishedAlike
    refine ⟨final, ?_, sameEnd.symm⟩
    simp only [finish_append_returns_iff, finish_cons_returns_iff, Task.finish_eq_run programEq,
      p.run_returns_iff_advance]
    rw [Task.finish_ofLeft] at ran
    exact ⟨before, _, first, ranFrontFirst,
      ⟨invocation, behind, last, ⟨left, second, advancedThen, ran⟩, ranBack, rfl⟩, rfl⟩

/-- Whenever a member of the cohort goes on, it may do so out of turn; and no member
needs to know more of the outside than is seen. -/
structure Orderless (g : ω → κ) (programs : List (Program σ ω)) (w : World σ ω) : Prop where
  swaps : ∀ {trace resumed task pending s p},
    Reaches programs ⟨w, Locks.free⟩ trace ⟨resumed, task :: pending, s⟩ →
    Task.GoesOn resumed.length (task.arrive resumed.length s.locks) task.arrived p →
    Swaps g (finish resumed) p
  respects : ∀ {trace stage}, Reaches programs ⟨w, Locks.free⟩ trace stage →
    ∀ task ∈ stage.tasks, task.finish.Respects (World.seen g)

variable {g : ω → κ} {programs : List (Program σ ω)} {w : World σ ω}

/-- At every stage the cohort in sequence would come to what it comes to from the
start. -/
theorem Reaches.comesTo_iff (orderless : Orderless g programs w) {trace : List (Stretch σ ω)}
    {stage : Stage σ ω} (reached : Reaches programs ⟨w, Locks.free⟩ trace stage)
    (invocations : List Invocation) (seen : World σ κ) :
    ComesTo g (programs.map .fresh) w invocations seen ↔
      ComesTo g stage.tasks stage.shared.world invocations seen := by
  induction reached with
  | start => rfl
  | @resume trace resumed pending task task' s s' reached returned ih =>
      have respects := orderless.respects (reached.resume returned)
      rw [ih]
      simp only [Stage.tasks, List.append_assoc, List.singleton_append] at respects ⊢
      cases Task.resume_returns returned with
      | stays invocation => rfl
      | waits arrivedEq =>
          unfold ComesTo
          simp only [finish_append_returns_iff, finish_cons_returns_iff]
          rw [← task.finish_arrived, arrivedEq]
      | runs goesOn advanced =>
          exact comesTo_iff_of_advance (orderless.swaps reached goesOn)
            (task.program?_arrived.symm.trans goesOn.program?_eq) advanced
            (fun later mem => respects later (List.mem_append_right resumed mem)) invocations seen
  | round reached _ ih => simpa [Stage.tasks] using ih

/-- A cohort whose members may go on out of turn returns what its members return
in sequence. -/
theorem exists_run_returns_iff (handlers : List (Handler σ ω)) (m : Message) (x : Extra)
    (orderless : Orderless g (handlers.map fun h => h.program m x) w)
    (invocations : List Invocation) (seen : World σ κ) :
    (∃ budget s', (run budget handlers m x).Returns ⟨w, Locks.free⟩ invocations s' ∧
      s'.world.seen g = seen) ↔
      ComesTo g (handlers.map fun h => .fresh (h.program m x)) w invocations seen := by
  have startEq : (handlers.map fun h => .fresh (h.program m x)) =
      (handlers.map fun h => h.program m x).map Task.fresh := by
    simp
  have settles : ∀ {budget invocations s'},
      (run budget handlers m x).Returns ⟨w, Locks.free⟩ invocations s' →
      ComesTo g (handlers.map fun h => .fresh (h.program m x)) w invocations
        (s'.world.seen g) := by
    intro budget invocations s' returned
    obtain ⟨trace, stage, passed, tasksEq, rfl⟩ := run_returns returned
    rw [startEq, passed.comesTo_iff orderless, tasksEq]
    exact ⟨_, (finish_settled_returns_iff _ _ _ _).mpr ⟨rfl, rfl⟩, rfl⟩
  constructor
  · rintro ⟨budget, s', returned, rfl⟩
    exact settles returned
  · intro comesTo
    rcases exists_run_returns_or_crashes handlers m x w with
      ⟨budget, invocations', s', returned⟩ | ⟨text, s', crashed⟩
    · obtain ⟨w', finished, seenEq⟩ := settles returned
      rcases comesTo with ⟨w'', finished', rfl⟩
      obtain ⟨rfl, rfl⟩ := finished.unique finished'
      exact ⟨budget, s', returned, seenEq.symm⟩
    · -- Where a member crashes the sequence would crash as well.
      rcases crashed with ⟨trace, resumed, task, pending, s, reached, crashed⟩
      obtain ⟨p, _, goesOn, stretchCrashed, _⟩ := Task.resume_crashes crashed
      have programEq := task.program?_arrived.symm.trans goesOn.program?_eq
      rw [startEq, reached.comesTo_iff orderless] at comesTo
      rcases comesTo with ⟨_, finished, _⟩
      simp only [Stage.tasks, finish_append_returns_iff, finish_cons_returns_iff,
        Task.finish_eq_run programEq, p.run_returns_iff_advance] at finished
      rcases finished with ⟨_, _, _, ranFront, ⟨_, _, _, ⟨_, _, advancedThen, _⟩, _⟩, _⟩
      obtain ⟨_, _, advancedNow, _⟩ :=
        (orderless.swaps reached goesOn).earlier ranFront advancedThen
      exact absurd stretchCrashed advancedNow.not_crashes

end Cohort

end Courier
