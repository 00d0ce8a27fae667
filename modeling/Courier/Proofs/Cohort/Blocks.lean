import Courier.Proofs.Cohort.Settling
import Courier.Proofs.Cohort.Shadow
import Courier.Proofs.Handler.Writing

/-!
# What a cohort writes

The members of a cohort that share an instance write whole blocks into its diary, one after the
other in registration order, and at most the member that is in the middle of its lifecycle has
written a block that is not whole.  Where a member crashes this block stays as it is.
-/

namespace Courier

variable {σ ω : Type}

namespace Task

/-- A member that has run a stretch is in the middle of its lifecycle, or has settled; at the end
of the last stretch it has settled with its invocation. -/
inductive Since : Program σ ω ⊕ Invocation → Task σ ω → Prop
  | settled (invocation : Invocation) : Since (.inr invocation) (settled invocation)
  | active (rest p : Program σ ω) : Since (.inl rest) (active p)
  | settledLater (rest : Program σ ω) (invocation : Invocation) :
      Since (.inl rest) (settled invocation)

theorem since_ofLeft (left : Program σ ω ⊕ Invocation) : Since left (ofLeft left) := by
  cases left with
  | inl rest => exact .active rest rest
  | inr invocation => exact .settled invocation

/-- A member that has run a stretch before does not wait. -/
theorem Since.resume {left : Program σ ω ⊕ Invocation} {task task' : Task σ ω}
    (since : Since left task) {member : Nat} {s s' : SharedWorld σ ω}
    (resumption : Resumption member s task task' s') : Since left task' := by
  cases since with
  | settled invocation =>
      cases resumption with
      | stays => exact .settled invocation
      | waits arrivedEq => cases arrivedEq
      | runs goesOn => cases goesOn
  | active rest p =>
      cases resumption with
      | waits arrivedEq => cases arrivedEq
      | @runs _ _ left _ _ _ =>
          cases left with
          | inl rest' => exact .active rest rest'
          | inr invocation => exact .settledLater rest invocation
  | settledLater rest invocation =>
      cases resumption with
      | stays => exact .settledLater rest invocation
      | waits arrivedEq => cases arrivedEq
      | runs goesOn => cases goesOn

end Task

namespace Cohort

/-- Who has run a stretch stands where it has left off. -/
theorem Reaches.since {programs : List (Program σ ω)} {start : SharedWorld σ ω}
    {trace : List (Stretch σ ω)} {stage : Stage σ ω}
    (reached : Reaches programs start trace stage) :
    ∀ stretch ∈ trace, ∃ task, stage.tasks[stretch.member]? = some task ∧
      Task.Since stretch.left task := by
  induction reached with
  | start => exact fun stretch mem => absurd mem List.not_mem_nil
  | @resume trace resumed pending task task' s s' reached returned ih =>
      have resumption := Task.resume_returns returned
      simp only [Stage.tasks, List.append_assoc, List.singleton_append] at ih ⊢
      intro stretch mem
      rcases List.mem_append.mp mem with before | now
      · obtain ⟨earlier, earlierEq, since⟩ := ih stretch before
        by_cases same : stretch.member = resumed.length
        · rw [same, getElem?_at] at earlierEq
          cases earlierEq
          rw [same]
          exact ⟨task', getElem?_at _ _ _, since.resume resumption⟩
        · exact ⟨earlier, (getElem?_of_ne same task').trans earlierEq, since⟩
      · cases resumption with
        | stays invocation => simp [Task.stretch?, Task.program?] at now
        | waits arrivedEq => simp [Task.stretch?_queued] at now
        | @runs _ p left w goesOn advanced =>
            rw [Task.stretch?_ofLeft goesOn.program?_of_arrived, Option.toList_some,
              List.mem_singleton] at now
            subst now
            exact ⟨_, getElem?_at _ _ _, Task.since_ofLeft left⟩
  | round _ _ ih => simpa [Stage.tasks] using ih

/-- The members whose lifecycles have ended in a trace, in this order, with their invocations. -/
def endings (trace : List (Stretch σ ω)) : List (Nat × Invocation) :=
  trace.filterMap fun stretch => stretch.left.getRight?.map fun invocation =>
    (stretch.member, invocation)

/-- Who has ended in a trace has settled, with its invocation. -/
theorem Reaches.settled_of_mem_endings {programs : List (Program σ ω)} {start : SharedWorld σ ω}
    {trace : List (Stretch σ ω)} {stage : Stage σ ω}
    (reached : Reaches programs start trace stage) {ending : Nat × Invocation}
    (mem : ending ∈ endings trace) : stage.tasks[ending.1]? = some (.settled ending.2) := by
  obtain ⟨stretch, stretchMem, endingEq⟩ := List.mem_filterMap.mp mem
  obtain ⟨invocation, leftEq, rfl⟩ := Option.map_eq_some_iff.mp endingEq
  obtain ⟨task, taskEq, since⟩ := reached.since stretch stretchMem
  rw [Sum.getRight?_eq_some_iff] at leftEq
  rw [leftEq] at since
  cases since
  exact taskEq

variable {i : InstanceId} {line left others : List (Nat × Program (Diary σ) ω)}
  {trace : List (Stretch (Diary σ) ω)} {start own : Diary σ}

/-- Where a relay stands on an instance with a diary: so many members of the line are done, and
the next is in the middle of its lifecycle and has written so much of its block, or has not
started. -/
inductive Stands (i : InstanceId) (line : List (Nat × Program (Diary σ) ω))
    (trace : List (Stretch (Diary σ) ω)) (done : List (Nat × Program (Diary σ) ω)) :
    List (Nat × Program (Diary σ) ω) → List Mark → Prop
  | between {rest : List (Nat × Program (Diary σ) ω)} :
      line = done ++ rest → Stands i line trace done rest []
  | underway (stretch : Stretch (Diary σ) ω) {p first : Program (Diary σ) ω}
      {others : List (Nat × Program (Diary σ) ω)} {cut : List Mark} :
      line = done ++ (stretch.member, first) :: others → stretch ∈ trace → Cut cut →
      p.Writes i cut → Stands i line trace done ((stretch.member, p) :: others) cut

/-- Who runs next writes on. -/
theorem Stands.next {done : List (Nat × Program (Diary σ) ω)} {k : Nat}
    {p : Program (Diary σ) ω} {cut : List Mark}
    (stands : Stands i line trace done ((k, p) :: others) cut)
    (writes : ∀ entry ∈ line, entry.2.Writes i []) :
    p.Writes i cut ∧ ∃ first, line = done ++ (k, first) :: others := by
  cases stands with
  | between lineEq =>
      constructor
      · apply writes (k, p)
        rw [lineEq]
        exact List.mem_append_right _ List.mem_cons_self
      · exact ⟨p, lineEq⟩
  | underway _ lineEq _ _ writesOn => exact ⟨writesOn, _, lineEq⟩

/-- What a relay of recorded lifecycles has written: a block for each that has ended, in the order
of the line, and what the one in the middle has written so far. -/
structure Written (i : InstanceId) (line : List (Nat × Program (Diary σ) ω)) (start : List Mark)
    (trace : List (Stretch (Diary σ) ω)) (left : List (Nat × Program (Diary σ) ω))
    (marks : List Mark) (done : List (Nat × Program (Diary σ) ω)) (whole cut : List Mark) :
    Prop where
  marksEq : marks = start ++ (whole ++ cut)
  blocks : Blocks ((endings trace).map fun ending => .returned ending.2) whole
  members : done.map (·.1) = (endings trace).map (·.1)
  stands : Stands i line trace done left cut

/-- Who has written a part of a block is one more than those that are done. -/
theorem Stands.cut_or_nil {done : List (Nat × Program (Diary σ) ω)} {cut : List Mark}
    (stands : Stands i line trace done left cut) :
    cut = [] ∧ done.length ≤ line.length ∨ Cut cut ∧ done.length < line.length := by
  cases stands with
  | between lineEq =>
      rw [lineEq, List.length_append]
      exact .inl ⟨rfl, Nat.le_add_right _ _⟩
  | underway _ lineEq _ isCut _ =>
      rw [lineEq, List.length_append, List.length_cons]
      exact .inr ⟨isCut, by omega⟩

variable {startMarks whole cut : List Mark} {done : List (Nat × Program (Diary σ) ω)} {k : Nat}
  {p rest : Program (Diary σ) ω} {before after : World (Diary σ) ω}

/-- The member that has its turn writes on in the middle of its lifecycle. -/
theorem Written.suspends (writes : ∀ entry ∈ line, entry.2.Writes i [])
    (written : Written i line startMarks trace ((k, p) :: others) (before.marks i) done whole cut)
    (advanced : p.advance.Returns before (.inl rest) after) :
    ∃ cut', Written i line startMarks (trace ++ [⟨k, p, before, .inl rest, after⟩])
      ((k, rest) :: others) (after.marks i) done whole cut' := by
  obtain ⟨writesOn, first, lineEq⟩ := written.stands.next writes
  obtain ⟨more, marksEq, leaves⟩ := writesOn.advance before
  rw [advanced.1] at leaves
  rw [advanced.2, written.marksEq] at marksEq
  have endingsEq : endings (trace ++ [⟨k, p, before, .inl rest, after⟩]) = endings trace := by
    simp [endings]
  cases leaves with
  | suspended cutNow writesNow =>
      refine ⟨cut ++ more, ?_, ?_, ?_, ?_⟩
      · rw [marksEq]
        simp only [List.append_assoc]
      · rw [endingsEq]
        exact written.blocks
      · rw [endingsEq]
        exact written.members
      · have ran : (⟨k, p, before, .inl rest, after⟩ : Stretch (Diary σ) ω) ∈
            trace ++ [⟨k, p, before, .inl rest, after⟩] :=
          List.mem_append_right _ List.mem_cons_self
        exact .underway _ lineEq ran cutNow writesNow

/-- At the end of its lifecycle the member that has its turn has written a whole block. -/
theorem Written.ends (writes : ∀ entry ∈ line, entry.2.Writes i [])
    (written : Written i line startMarks trace ((k, p) :: others) (before.marks i) done whole cut)
    {invocation : Invocation} (advanced : p.advance.Returns before (.inr invocation) after) :
    ∃ done' whole', Written i line startMarks (trace ++ [⟨k, p, before, .inr invocation, after⟩])
      others (after.marks i) done' whole' [] := by
  obtain ⟨writesOn, first, lineEq⟩ := written.stands.next writes
  obtain ⟨more, marksEq, leaves⟩ := writesOn.advance before
  rw [advanced.1] at leaves
  rw [advanced.2, written.marksEq] at marksEq
  have endingsEq : endings (trace ++ [⟨k, p, before, .inr invocation, after⟩]) =
      endings trace ++ [(k, invocation)] := by
    simp [endings]
  cases leaves with
  | ended block =>
      refine ⟨done ++ [(k, first)], whole ++ (cut ++ more), ?_, ?_, ?_, ?_⟩
      · rw [marksEq]
        simp only [List.append_assoc, List.append_nil]
      · rw [endingsEq, List.map_append]
        exact written.blocks.snoc block
      · rw [endingsEq, List.map_append, List.map_append, written.members]
        rfl
      · apply Stands.between
        rw [lineEq, List.append_assoc]
        rfl

theorem Relay.exists_written (writes : ∀ entry ∈ line, entry.2.Writes i [])
    (relay : Relay i line start trace left own) :
    ∃ done whole cut, Written i line start.marks trace left own.marks done whole cut := by
  induction relay with
  | idle =>
      refine ⟨[], [], [], ?_, .nothing, rfl, .between rfl⟩
      simp
  | suspends _ advanced ih =>
      obtain ⟨done, whole, cut, written⟩ := ih
      obtain ⟨cut', writtenOn⟩ := written.suspends writes advanced
      exact ⟨done, whole, cut', writtenOn⟩
  | ends _ advanced ih =>
      obtain ⟨done, whole, cut, written⟩ := ih
      obtain ⟨done', whole', writtenOn⟩ := written.ends writes advanced
      exact ⟨done', whole', [], writtenOn⟩

/-! ## Cohorts of recorded handlers -/

/-- Who has not settled on an instance is a member that needs it. -/
theorem mem_unsettled {tasks : List (Task σ ω)} {member : Nat} {entry : Nat × Program σ ω}
    (mem : entry ∈ unsettled i member tasks) :
    ∃ n task, entry.1 = member + n ∧ tasks[n]? = some task ∧ task.program? = some entry.2 ∧
      entry.2.owner? = some i := by
  induction tasks generalizing member with
  | nil => exact absurd mem List.not_mem_nil
  | cons task rest ih =>
      rw [unsettled_cons] at mem
      rcases List.mem_append.mp mem with here | later
      · unfold Task.needs at here
        cases programEq : task.program? with
        | none =>
            rw [programEq] at here
            exact absurd here List.not_mem_nil
        | some p =>
            rw [programEq] at here
            by_cases owned : p.owner? = some i
            · simp only [owned, if_true, List.mem_singleton] at here
              subst here
              exact ⟨0, task, rfl, rfl, programEq, owned⟩
            · simp [owned] at here
      · obtain ⟨n, other, numberEq, taskEq, programEq, owned⟩ := ih later
        exact ⟨n + 1, other, by omega, taskEq, programEq, owned⟩

variable {handlers : List (Handler σ ω)} {m : Message} {x : Extra} {d : World (Diary σ) ω}

/-- The members of a cohort of handlers that need an instance, before anybody has been resumed. -/
def lineUp (i : InstanceId) (member : Nat) (handlers : List (Handler σ ω)) (m : Message)
    (x : Extra) : List (Nat × Program σ ω) :=
  unsettled i member (handlers.map fun h => .fresh (h.program m x))

theorem lineUp_cons (i : InstanceId) (member : Nat) (h : Handler σ ω)
    (handlers : List (Handler σ ω)) (m : Message) (x : Extra) :
    lineUp i member (h :: handlers) m x =
      (if h.engages m = some i then [(member, h.program m x)] else []) ++
        lineUp i (member + 1) handlers m x := by
  simp only [lineUp, List.map_cons, unsettled_cons, Task.needs, Task.program?,
    Handler.owner?_program]

theorem length_lineUp (i : InstanceId) (member : Nat) (handlers : List (Handler σ ω)) (m : Message)
    (x : Extra) :
    (lineUp i member handlers m x).length =
      (handlers.filter fun h => h.engages m = some i).length := by
  induction handlers generalizing member with
  | nil => rfl
  | cons h rest ih =>
      rw [lineUp_cons, List.length_append, ih]
      by_cases engaged : h.engages m = some i
      · simp [engaged, Nat.add_comm]
      · simp [engaged]

/-- Recorded lifecycles write whole blocks. -/
theorem writes_lineUp (handlers : List (Handler σ ω)) (member : Nat) :
    ∀ entry ∈ lineUp i member (handlers.map Handler.recorded) m x, entry.2.Writes i [] := by
  induction handlers generalizing member with
  | nil => exact fun entry mem => absurd mem List.not_mem_nil
  | cons h rest ih =>
      intro entry mem
      rw [List.map_cons, lineUp_cons] at mem
      rcases List.mem_append.mp mem with here | later
      · by_cases engaged : h.recorded.engages m = some i
        · rw [if_pos engaged, List.mem_singleton] at here
          subst here
          rw [Handler.engages_recorded] at engaged
          exact Handler.writes_program_recorded engaged x
        · rw [if_neg engaged] at here
          exact absurd here List.not_mem_nil
      · exact ih (member + 1) entry later

/-- At every stage of a cohort of recorded handlers the members have written into the diary of an
instance as a relay does. -/
theorem Reaches.exists_written {trace : List (Stretch (Diary σ) ω)} {stage : Stage (Diary σ) ω}
    (passed : Passes (handlers.map Handler.recorded) m x d trace stage) (i : InstanceId) :
    ∃ done whole cut, Written i (lineUp i 0 (handlers.map Handler.recorded) m x) (d.marks i)
      (onInstance i trace) (unsettled i 0 stage.tasks) (stage.shared.world.marks i) done whole
      cut := by
  have relay := passed.relay i
  rw [List.map_map] at relay
  exact relay.exists_written (writes_lineUp handlers 0)

/-- Who has written a part of a block is in the middle of its lifecycle. -/
theorem Stands.cut_cases {trace : List (Stretch (Diary σ) ω)} {stage : Stage (Diary σ) ω}
    (passed : Passes (handlers.map Handler.recorded) m x d trace stage)
    (stands : Stands i line (onInstance i trace) done (unsettled i 0 stage.tasks) cut) :
    cut = [] ∨ Cut cut ∧ ∃ k, stage.Holds i k := by
  generalize leftEq : unsettled i 0 stage.tasks = left at stands
  cases stands with
  | between => exact .inl rfl
  | @underway stretch p first others cut lineEq ran isCut writesOn =>
      obtain ⟨n, task, numberEq, taskEq, programEq, owned⟩ :=
        mem_unsettled
          (leftEq ▸ List.mem_cons_self : (stretch.member, p) ∈ unsettled i 0 stage.tasks)
      obtain rfl : n = stretch.member := by simpa using numberEq.symm
      obtain ⟨_, sameEq, since⟩ := passed.since stretch (List.mem_filter.mp ran).1
      rw [taskEq] at sameEq
      cases sameEq
      have active : task = .active p := by
        generalize stretch.left = ran at since
        cases since with
        | settled => contradiction
        | active =>
            cases programEq
            rfl
        | settledLater => contradiction
      exact .inr ⟨isCut, stretch.member, p, active ▸ taskEq, owned⟩

/-- The members of a cohort that have an instance engaged are done with it in registration order,
each with its invocation. -/
theorem endings_eq_engaged {member : Nat} {invocations : List Invocation}
    {ended : List (Nat × Invocation)} (lengthEq : invocations.length = handlers.length)
    (members : (lineUp i member handlers m x).map (·.1) = ended.map (·.1))
    (settled : ∀ ending ∈ ended, ∃ n, ending.1 = member + n ∧ invocations[n]? = some ending.2) :
    ended.map (·.2) =
      ((handlers.zip invocations).filter fun entry => entry.1.engages m = some i).map (·.2) := by
  induction handlers generalizing member invocations ended with
  | nil =>
      obtain rfl : ended = [] := List.map_eq_nil_iff.mp members.symm
      rfl
  | cons h rest ih =>
      obtain ⟨invocation, others, rfl⟩ := List.exists_cons_of_length_eq_add_one lengthEq
      rw [lineUp_cons, List.map_append] at members
      -- Whoever comes later has a greater number.
      have later : ∀ {ended : List (Nat × Invocation)},
          (lineUp i (member + 1) rest m x).map (·.1) = ended.map (·.1) →
          (∀ ending ∈ ended, ∃ n, ending.1 = member + n ∧
            (invocation :: others)[n]? = some ending.2) →
          ∀ ending ∈ ended, ∃ n, ending.1 = member + 1 + n ∧ others[n]? = some ending.2 := by
        intro ended members settled ending mem
        obtain ⟨n, numberEq, invocationEq⟩ := settled ending mem
        have numbered : ending.1 ∈ (lineUp i (member + 1) rest m x).map (·.1) := by
          rw [members]
          exact List.mem_map_of_mem mem
        obtain ⟨entry, entryMem, entryEq⟩ := List.mem_map.mp numbered
        obtain ⟨offset, _, offsetEq, _⟩ := mem_unsettled entryMem
        obtain ⟨n, rfl⟩ : ∃ n', n = n' + 1 := ⟨n - 1, by omega⟩
        exact ⟨n, by omega, invocationEq⟩
      rw [List.zip_cons_cons]
      by_cases engaged : h.engages m = some i
      · rw [if_pos engaged, List.map_singleton, List.singleton_append] at members
        cases ended with
        | nil => contradiction
        | cons first ended =>
            rw [List.map_cons, List.cons.injEq] at members
            rw [List.forall_mem_cons] at settled
            obtain ⟨n, numberEq, invocationEq⟩ := settled.1
            obtain rfl : n = 0 := by omega
            cases invocationEq
            rw [List.filter_cons_of_pos (by simpa using engaged), List.map_cons, List.map_cons,
              ih (Nat.succ.inj lengthEq) members.2 (later members.2 settled.2)]
      · rw [if_neg engaged, List.map_nil, List.nil_append] at members
        rw [List.filter_cons_of_neg (by simpa using engaged)]
        exact ih (Nat.succ.inj lengthEq) members (later members settled)

/-- A cohort of recorded handlers that returns has written one whole block for each member that
has the instance engaged, in registration order, and the invocation of the member is the one of
the block. -/
theorem blocks_of_run_returns {budget : Nat} {invocations : List Invocation}
    {s' : SharedWorld (Diary σ) ω}
    (returned : (run budget (handlers.map Handler.recorded) m x).Returns ⟨d, Locks.free⟩
      invocations s') (i : InstanceId) :
    ∃ whole, s'.world.marks i = d.marks i ++ whole ∧
      Blocks ((((handlers.zip invocations).filter fun entry => entry.1.engages m = some i).map
        (·.2)).map .returned) whole := by
  have lengthEq := length_of_run_returns returned
  obtain ⟨trace, stage, passed, tasksEq, rfl⟩ := run_returns returned
  obtain ⟨done, whole, cut, written⟩ := Reaches.exists_written passed i
  have stands := written.stands
  have allSettled : unsettled i 0 stage.tasks = [] := by
    apply unsettled_eq_nil
    intro task mem p programEq
    rw [tasksEq] at mem
    obtain ⟨invocation, _, rfl⟩ := List.mem_map.mp mem
    contradiction
  rw [allSettled] at stands
  generalize leftEq : ([] : List (Nat × Program (Diary σ) ω)) = left at stands
  cases stands with
  | underway => contradiction
  | between lineEq =>
      subst leftEq
      rw [List.append_nil] at lineEq
      have ended : (endings (onInstance i trace)).map (·.2) =
          (((handlers.map Handler.recorded).zip invocations).filter fun entry =>
            entry.1.engages m = some i).map (·.2) := by
        apply endings_eq_engaged lengthEq
        · rw [lineEq]
          exact written.members
        · intro ending mem
          have memTrace : ending ∈ endings trace :=
            (List.filter_sublist.filterMap _).subset mem
          have settled := passed.settled_of_mem_endings memTrace
          rw [tasksEq, List.getElem?_map] at settled
          obtain ⟨invocation, invocationEq, sameEq⟩ := Option.map_eq_some_iff.mp settled
          cases sameEq
          exact ⟨ending.1, (Nat.zero_add _).symm, invocationEq⟩
      have invocationsEq : (endings (onInstance i trace)).map (·.2) =
          ((handlers.zip invocations).filter fun entry => entry.1.engages m = some i).map
            (·.2) := by
        rw [ended, List.zip_map_left]
        simp [List.filter_map, Function.comp_def]
      refine ⟨whole, by simpa using written.marksEq, ?_⟩
      rw [← invocationsEq, List.map_map]
      exact written.blocks

/-- A cohort of recorded handlers that crashes has written whole blocks, and behind them perhaps
one that is cut, for no more members than have the instance engaged. -/
theorem cut_of_run_crashes {budget : Nat} {text : String} {s' : SharedWorld (Diary σ) ω}
    (crashed : (run budget (handlers.map Handler.recorded) m x).Crashes ⟨d, Locks.free⟩ text s')
    (i : InstanceId) :
    ∃ (invocations : List Invocation) (whole cut : List Mark),
      s'.world.marks i = d.marks i ++ (whole ++ cut) ∧ Blocks (invocations.map .returned) whole ∧
      (cut = [] ∧ invocations.length ≤ (handlers.filter fun h => h.engages m = some i).length ∨
        Cut cut ∧ invocations.length < (handlers.filter fun h => h.engages m = some i).length) := by
  obtain ⟨_, roundsCrashed, rfl⟩ := (Action.crashes_onCrash_iff _ _ _ _ _).mp crashed
  obtain ⟨trace, resumed, task, pending, s, passed, resumeCrashed⟩ :=
    Reaches.start.of_rounds_crashes roundsCrashed
  obtain ⟨p, w, goesOn, stretchCrashed, rfl⟩ := Task.resume_crashes resumeCrashed
  obtain ⟨done, whole, cut, written⟩ := Reaches.exists_written passed i
  have lengthEq : done.length = (endings (onInstance i trace)).length := by
    simpa using congrArg List.length written.members
  have lineLength : (lineUp i 0 (handlers.map Handler.recorded) m x).length =
      (handlers.filter fun h => h.engages m = some i).length := by
    rw [length_lineUp]
    simp [List.filter_map, Function.comp_def]
  have blocks : Blocks (((endings (onInstance i trace)).map (·.2)).map .returned) whole := by
    rw [List.map_map]
    exact written.blocks
  refine ⟨(endings (onInstance i trace)).map (·.2), whole, ?_⟩
  rw [List.length_map, ← lengthEq, ← lineLength]
  by_cases owned : p.owner? = some i
  · -- The member that crashes is the next of the relay, and its block is cut.
    have stands := written.stands
    obtain ⟨orderly, asked⟩ := passed.orderly
    have needsEq : task.needs i resumed.length = [(resumed.length, p)] := by
      simp [Task.needs, goesOn.program?_of_arrived, owned]
    rw [Stage.tasks, (Orderly.arrive orderly asked).unsettled_of_goesOn asked goesOn owned, needsEq,
      List.singleton_append] at stands
    obtain ⟨writesOn, first, lineEq⟩ := stands.next (writes_lineUp handlers 0)
    obtain ⟨more, marksEq, leaves⟩ := writesOn.advance s.world
    rw [stretchCrashed.1] at leaves
    rw [stretchCrashed.2, written.marksEq] at marksEq
    cases leaves with
    | crashed _ isCut =>
        refine ⟨cut ++ more, ?_, blocks, .inr ⟨isCut, ?_⟩⟩
        · show w.marks i = _
          rw [marksEq]
          simp only [List.append_assoc]
        · rw [lineEq, List.length_append]
          simp
  · have same : w.marks i = s.world.marks i := by
      rw [← stretchCrashed.2]
      exact p.marks_advance s.world owned
    exact ⟨cut, same.trans written.marksEq, blocks, written.stands.cut_or_nil⟩

/-- At every stage whole blocks have been written, and behind them at most the beginning of one:
that of the member that is in the middle of its lifecycle and has locked the instance. -/
theorem blocks_of_passes {trace : List (Stretch (Diary σ) ω)} {stage : Stage (Diary σ) ω}
    (passed : Passes (handlers.map Handler.recorded) m x d trace stage) (i : InstanceId) :
    ∃ (invocations : List Invocation) (whole cut : List Mark),
      stage.shared.world.marks i = d.marks i ++ (whole ++ cut) ∧
      Blocks (invocations.map .returned) whole ∧
      (cut = [] ∨ Cut cut ∧ ∃ k, stage.Holds i k ∧ (stage.shared.locks i).holder = some k) := by
  obtain ⟨done, whole, cut, written⟩ := Reaches.exists_written passed i
  refine ⟨(endings (onInstance i trace)).map (·.2), whole, cut, written.marksEq, ?_, ?_⟩
  · rw [List.map_map]
    exact written.blocks
  · rcases written.stands.cut_cases passed with nothing | ⟨isCut, k, holds⟩
    · exact .inl nothing
    · exact .inr ⟨isCut, k, holds, passed.holder_of_holds holds⟩

end Cohort

end Courier
