import Courier.Proofs.Cohort.Crowd

/-!
# The lines of a crowd

At any time the lock of an instance is the line of the members that have asked for it and have
neither settled nor been dropped, and who is in the middle of its lifecycle is the first of the
line.
-/

namespace Courier

variable {σ ω : Type}

namespace Crowd

variable {s : Crowd σ ω} {n : Nat} {member : Member σ ω}

/-- Who has not been resumed has not asked for anything. -/
theorem Numbered.standsIn_gather (numbered : Numbered s) (programs : List (Program σ ω))
    (i : InstanceId) (k : Nat) : (s.gather programs).StandsIn i k ↔ s.StandsIn i k := by
  constructor
  · rintro ⟨other, known, mem⟩
    rcases (numbered.members_gather programs).mp known with before | ⟨_, _, _, _, rfl⟩
    · exact ⟨other, before, mem⟩
    · exact absurd mem List.not_mem_nil
  · rintro ⟨other, known, mem⟩
    exact ⟨other, (numbered.members_gather programs).mpr (.inl known), mem⟩

theorem Numbered.isWithin_gather (numbered : Numbered s) (programs : List (Program σ ω))
    (i : InstanceId) (k : Nat) (p : Program σ ω) :
    (s.gather programs).IsWithin i k p ↔ s.IsWithin i k p := by
  constructor
  · rintro ⟨other, known, taskEq, owned⟩
    rcases (numbered.members_gather programs).mp known with before | ⟨_, _, _, _, rfl⟩
    · exact ⟨other, before, taskEq, owned⟩
    · contradiction
  · rintro ⟨other, known, within⟩
    exact ⟨other, (numbered.members_gather programs).mpr (.inl known), within⟩

/-- The lock of each instance is the line of those that have asked for it, and who is in the
middle of its lifecycle has locked its instance. -/
structure Lined (s : Crowd σ ω) : Prop where
  line : ∀ i, ∃ line, s.shared.locks i = Lock.ofLine line ∧ line.Nodup ∧
    ∀ n, n ∈ line ↔ s.StandsIn i n
  held : ∀ i n p, s.IsWithin i n p → (s.shared.locks i).holder = some n

namespace Lined

theorem idle (w : World σ ω) : Lined (idle w) where
  line i := ⟨[], rfl, List.nodup_nil, fun n => ⟨fun mem => absurd mem List.not_mem_nil,
    fun ⟨_, known, _⟩ => by contradiction⟩⟩
  held i n p := fun ⟨_, known, _⟩ => by contradiction

/-- At most one member is in the middle of its lifecycle on an instance. -/
theorem unique (lined : Lined s) {i : InstanceId} {k : Nat} {p q : Program σ ω}
    (first : s.IsWithin i n p) (second : s.IsWithin i k q) : n = k :=
  Option.some.inj ((lined.held i n p first).symm.trans (lined.held i k q second))

/-- Where nobody has changed the locks, those that stand in a line are the same, and nobody has
begun. -/
theorem of_same (lined : Lined s) {s' : Crowd σ ω} (locksEq : s'.shared.locks = s.shared.locks)
    (stands : ∀ i k, s'.StandsIn i k ↔ s.StandsIn i k)
    (within : ∀ i k p, s'.IsWithin i k p → s.IsWithin i k p) : Lined s' := by
  constructor
  · intro i
    obtain ⟨line, lineEq, nodup, mem⟩ := lined.line i
    rw [locksEq]
    exact ⟨line, lineEq, nodup, fun k => (mem k).trans (stands i k).symm⟩
  · intro i k p isWithin
    rw [locksEq]
    exact lined.held i k p (within i k p isWithin)

theorem gather (lined : Lined s) (numbered : Numbered s) (programs : List (Program σ ω)) :
    Lined (s.gather programs) := by
  have sameLocks : (s.gather programs).shared.locks = s.shared.locks := rfl
  exact lined.of_same sameLocks (numbered.standsIn_gather programs) fun i k p =>
    (numbered.isWithin_gather programs i k p).mp

/-- One member changes its place in the lines. -/
theorem of_put {shared : SharedWorld σ ω}
    (lines : ∀ i, ∃ line, shared.locks i = Lock.ofLine line ∧ line.Nodup ∧
      (n ∈ line ↔ n ∈ member.task.place i n) ∧ ∀ k, k ≠ n → (k ∈ line ↔ s.StandsIn i k))
    (here : ∀ i p, member.task = .active p → p.owner? = some i →
      (shared.locks i).holder = some n)
    (there : ∀ i k p, k ≠ n → s.IsWithin i k p → (shared.locks i).holder = some k) :
    Lined (s.put n member shared) := by
  constructor
  · intro i
    obtain ⟨line, lineEq, nodup, memHere, memThere⟩ := lines i
    refine ⟨line, lineEq, nodup, fun k => ?_⟩
    by_cases same : k = n
    · subst same
      exact memHere.trans (standsIn_iff (members_put_self shared) i).symm
    · exact (memThere k same).trans (standsIn_put_of_ne same shared i).symm
  · intro i k p within
    by_cases same : k = n
    · subst same
      obtain ⟨taskEq, owned⟩ := (isWithin_iff (members_put_self shared) i p).mp within
      exact here i p taskEq owned
    · exact there i k p same ((isWithin_put_of_ne same shared i p).mp within)

/-- Who asks for its lock joins the line at its end. -/
theorem arrive (lined : Lined s) (known : s.members n = some member) :
    Lined (s.put n { member with task := member.task.arrived }
      ⟨s.shared.world, member.task.arrive n s.shared.locks⟩) := by
  rcases member with ⟨first, programs, task⟩
  cases task with
  | queued p => exact (put_self known).symm ▸ lined
  | active p => exact (put_self known).symm ▸ lined
  | settled invocation => exact (put_self known).symm ▸ lined
  | fresh p =>
      apply of_put
      · intro i
        obtain ⟨line, lineEq, nodup, mem⟩ := lined.line i
        have notIn : n ∉ line := by
          rw [mem n, standsIn_iff known]
          exact List.not_mem_nil
        show ∃ line, (Task.fresh p).arrive n s.shared.locks i = Lock.ofLine line ∧ _
        rw [Task.arrive_fresh, lineEq]
        by_cases owned : p.owner? = some i
        · rw [if_pos owned, Lock.request_ofLine]
          refine ⟨line ++ [n], rfl, ?_, ?_, ?_⟩
          · rw [List.nodup_append_comm]
            exact List.nodup_cons.mpr ⟨notIn, nodup⟩
          · simp [Task.arrived, Task.place, owned]
          · intro k other
            simp [other, mem k]
        · rw [if_neg owned]
          refine ⟨line, rfl, nodup, ?_, fun k _ => mem k⟩
          simp [Task.arrived, Task.place, owned, notIn]
      · intro i q taskEq
        contradiction
      · intro i k q other within
        have held := lined.held i k q within
        show ((Task.fresh p).arrive n s.shared.locks i).holder = some k
        rw [Task.arrive_fresh]
        split
        · obtain ⟨line, lineEq, _⟩ := lined.line i
          rw [lineEq, Lock.holder_ofLine] at held
          rw [lineEq, Lock.request_ofLine, Lock.holder_ofLine, List.head?_append, held]
          rfl
        · exact held

/-- Who goes on has locked its instance. -/
theorem held_of_goesOn (lined : Lined s) (known : s.members n = some member) {p : Program σ ω}
    (goesOn : Task.GoesOn n s.shared.locks member.task p) {i : InstanceId}
    (owned : p.owner? = some i) : (s.shared.locks i).holder = some n := by
  rcases member with ⟨first, programs, task⟩
  cases goesOn with
  | held held => exact held i owned
  | running => exact lined.held i n p ⟨_, known, rfl, owned⟩

/-- Who runs a stretch keeps the lock until the end. -/
theorem depart (lined : Lined s) (known : s.members n = some member) {p : Program σ ω}
    (goesOn : Task.GoesOn n s.shared.locks member.task p) {left : Program σ ω ⊕ Invocation}
    (ownerKept : ∀ rest, left = .inl rest → rest.owner? = p.owner?) (w : World σ ω) :
    Lined (s.put n { member with task := .ofLeft left } ⟨w, p.depart left s.shared.locks⟩) := by
  apply of_put
  · intro i
    obtain ⟨line, lineEq, nodup, mem⟩ := lined.line i
    have memHere := (mem n).trans (standsIn_iff known i)
    by_cases owned : p.owner? = some i
    · have held := lined.held_of_goesOn known goesOn owned
      rw [lineEq, Lock.holder_ofLine] at held
      obtain ⟨rest, rfl⟩ := List.head?_eq_some_iff.mp held
      cases left with
      | inl rest =>
          refine ⟨_, lineEq, nodup, ?_, fun k _ => mem k⟩
          simp [Task.ofLeft, Task.place, ownerKept rest rfl, owned]
      | inr invocation =>
          obtain ⟨notIn, nodupRest⟩ := List.nodup_cons.mp nodup
          refine ⟨rest, ?_, nodupRest, ?_, ?_⟩
          · simp [Program.depart, owned, lineEq, Lock.release_ofLine]
          · simp [Task.ofLeft, Task.place, notIn]
          · intro k other
            rw [← mem k, List.mem_cons]
            simp [other]
    · refine ⟨line, (Program.depart_of_ne owned left _).trans lineEq, nodup, ?_, fun k _ => mem k⟩
      rw [memHere, Task.place_eq_nil goesOn.program?_eq owned]
      cases left with
      | inl rest =>
          have programEq : (Task.ofLeft (.inl rest)).program? = some rest := rfl
          rw [Task.place_eq_nil programEq (ownerKept rest rfl ▸ owned)]
      | inr invocation => rfl
  · intro i q taskEq owned
    cases left with
    | inr invocation => contradiction
    | inl rest =>
        cases taskEq
        rw [ownerKept q rfl] at owned
        exact lined.held_of_goesOn known goesOn owned
  · intro i k q other within
    have held := lined.held i k q within
    by_cases owned : p.owner? = some i
    · rw [lined.held_of_goesOn known goesOn owned] at held
      exact absurd (Option.some.inj held).symm other
    · show (p.depart left s.shared.locks i).holder = some k
      rw [Program.depart_of_ne owned, held]

/-- Who is resumed joins a line, keeps its place, or leaves. -/
theorem resumed (lined : Lined s) (known : s.members n = some member) {task : Task σ ω}
    {shared : SharedWorld σ ω} (resumption : Task.Resumption n s.shared member.task task shared) :
    Lined (s.put n { member with task } shared) := by
  have arrived := lined.arrive known
  rcases member with ⟨first, programs, before⟩
  cases resumption with
  | stays invocation => exact (put_self known).symm ▸ lined
  | waits arrivedEq =>
      rw [arrivedEq] at arrived
      exact arrived
  | @runs _ p left w goesOn advanced =>
      have ownerKept : ∀ rest, left = .inl rest → rest.owner? = p.owner? :=
        fun rest leftEq => Program.owner?_of_advance (leftEq ▸ advanced)
      have departed := arrived.depart (members_put_self _) goesOn ownerKept w
      rw [put_put] at departed
      exact departed

end Lined

/-- Who is dropped leaves the line, wherever it stands. -/
theorem drop_eq_ofLine {first : Nat} {programs : List (Program σ ω)} {locks : Locks}
    {i : InstanceId} {line : List Nat} (lineEq : locks i = Lock.ofLine line) :
    Cohort.drop first programs locks i = Lock.ofLine (line.filter fun n =>
      n < first ∨ (programs[n - first]?.bind Program.owner?) ≠ some i) := by
  induction programs generalizing first locks line with
  | nil =>
      rw [Cohort.drop, lineEq]
      simp
  | cons p rest ih =>
      have firstEq : Cohort.drop first [p] locks i =
          Lock.ofLine (line.filter fun n => n ≠ first ∨ p.owner? ≠ some i) := by
        cases owned : p.owner? with
        | none => simp [Cohort.drop, owned, lineEq]
        | some owner =>
            by_cases same : owner = i
            · subst same
              simp [Cohort.drop, owned, lineEq, Lock.forget_ofLine]
            · have other : i ≠ owner := fun eq => same eq.symm
              simp [Cohort.drop, owned, Locks.update_of_ne _ other, lineEq, same]
      have dropEq : Cohort.drop first (p :: rest) locks =
          Cohort.drop (first + 1) rest (Cohort.drop first [p] locks) := rfl
      rw [dropEq, ih firstEq, List.filter_filter]
      congr 1
      apply List.filter_congr
      intro n _
      rcases Nat.lt_trichotomy n first with earlier | rfl | later
      · simp [earlier, Nat.lt_succ_of_lt earlier, Nat.ne_of_lt earlier]
      · simp
      · obtain ⟨k, rfl⟩ := Nat.exists_eq_add_of_lt later
        have numberEq : first + k + 1 - first = k + 1 := by omega
        have restEq : first + k + 1 - (first + 1) = k := by omega
        have notFirst : first + k + 1 ≠ first := by omega
        have notEarlier : ¬ first + k + 1 < first := by omega
        simp [numberEq, restEq, notFirst, notEarlier]

/-- Who is not of the cohort that is dropped keeps its place. -/
theorem Lined.dismiss (lined : Lined s) (numbered : Numbered s)
    (known : s.members n = some member) (w : World σ ω) :
    Lined (s.dismiss member ⟨w, s.shared.locks⟩) := by
  -- Those that leave the line are those of the cohort.
  have leaves : ∀ {i k}, s.StandsIn i k →
      (k < member.first ∨ (member.programs[k - member.first]?.bind Program.owner?) ≠ some i ↔
        ¬ member.Counts k) := by
    rintro i k ⟨other, knownOther, mem⟩
    obtain ⟨_, q, taskEq, owned⟩ := Task.mem_place mem
    obtain ⟨j, p, numberEq, programEq, owners⟩ := numbered.place k other knownOther
    constructor
    · rintro keeps counts
      obtain ⟨firstEq, programsEq⟩ := numbered.together n member k other known knownOther counts
      rw [← firstEq, ← programsEq, numberEq, Nat.add_sub_cancel_left, programEq] at keeps
      rcases keeps with earlier | notOwned
      · omega
      · exact notOwned ((owners q taskEq).symm.trans owned)
    · intro notCounted
      by_cases earlier : k < member.first
      · exact .inl earlier
      · have later : member.programs[k - member.first]? = none := by
          apply List.getElem?_eq_none
          simp only [Member.Counts] at notCounted
          omega
        rw [later]
        exact .inr (by rintro ⟨⟩)
  constructor
  · intro i
    obtain ⟨line, lineEq, nodup, mem⟩ := lined.line i
    refine ⟨_, drop_eq_ofLine lineEq, nodup.filter _, fun k => ?_⟩
    rw [List.mem_filter, mem k, decide_eq_true_iff]
    constructor
    · rintro ⟨stands, keeps⟩
      have notCounted := (leaves stands).mp keeps
      obtain ⟨other, knownOther, place⟩ := stands
      exact ⟨other, (members_dismiss _).mpr ⟨knownOther, notCounted⟩, place⟩
    · rintro ⟨other, knownOther, place⟩
      obtain ⟨knownBefore, notCounted⟩ := (members_dismiss _).mp knownOther
      have stands : s.StandsIn i k := ⟨other, knownBefore, place⟩
      exact ⟨stands, (leaves stands).mpr notCounted⟩
  · rintro i k p ⟨other, knownOther, taskEq, owned⟩
    obtain ⟨knownBefore, notCounted⟩ := (members_dismiss _).mp knownOther
    have held := lined.held i k p ⟨other, knownBefore, taskEq, owned⟩
    have stands : s.StandsIn i k := ⟨other, knownBefore, by simp [taskEq, Task.place, owned]⟩
    obtain ⟨line, lineEq, _⟩ := lined.line i
    show (Cohort.drop member.first member.programs s.shared.locks i).holder = some k
    rw [lineEq, Lock.holder_ofLine] at held
    rw [drop_eq_ofLine lineEq, Lock.holder_ofLine]
    obtain ⟨rest, rfl⟩ := List.head?_eq_some_iff.mp held
    rw [List.filter_cons_of_pos (by simpa using (leaves stands).mpr notCounted)]
    rfl

/-! ## Moves -/

/-- The numbers and the locks of a crowd are in order. -/
structure Sound (s : Crowd σ ω) : Prop where
  numbered : Numbered s
  lined : Lined s

theorem sound_idle (w : World σ ω) : Sound (idle w) :=
  ⟨.idle w, .idle w⟩

/-- Who has asked for its lock stands in order. -/
theorem Sound.arrive (sound : Sound s) (known : s.members n = some member) :
    Sound (s.put n { member with task := member.task.arrived }
      ⟨s.shared.world, member.task.arrive n s.shared.locks⟩) where
  numbered := by
    apply sound.numbered.put known
    intro q programEq
    rw [Task.program?_arrived] at programEq
    exact ⟨q, programEq, rfl⟩
  lined := sound.lined.arrive known

theorem Sound.resume (sound : Sound s) (n : Nat) : Sound (s.resume n).1 := by
  have resumes := resumes_resume s n
  generalize s.resume n = after at resumes
  cases resumes with
  | nobody unknown => exact sound
  | @goesOn member task shared known resumption =>
      refine ⟨sound.numbered.put known ?_ shared, sound.lined.resumed known resumption⟩
      rcases member with ⟨first, programs, before⟩
      intro q programEq
      cases resumption with
      | stays invocation => contradiction
      | waits arrivedEq =>
          cases programEq
          exact ⟨q, Task.program?_of_arrived arrivedEq, rfl⟩
      | @runs _ p left w goesOn advanced =>
          refine ⟨p, goesOn.program?_of_arrived, ?_⟩
          cases left with
          | inr invocation => contradiction
          | inl rest =>
              cases programEq
              exact Program.owner?_of_advance advanced
  | @crashes member p text w known goesOn crashed =>
      have arrived := sound.arrive known
      have lined := arrived.lined.dismiss arrived.numbered (members_put_self _) w
      have counts := sound.numbered.counts known
      -- Whether the member that crashes has asked for its lock before makes no difference.
      have same : (s.put n { member with task := member.task.arrived }
          ⟨s.shared.world, member.task.arrive n s.shared.locks⟩).dismiss
            { member with task := member.task.arrived }
            ⟨w, member.task.arrive n s.shared.locks⟩ =
          s.dismiss member ⟨w, member.task.arrive n s.shared.locks⟩ := by
        simp only [dismiss, put, mk.injEq, true_and, and_true]
        funext k
        by_cases here : k = n
        · subst here
          exact (if_pos counts).trans (if_pos counts).symm
        · rw [Function.update_of_ne here]
          rfl
      exact ⟨sound.numbered.dismiss _ _, same ▸ lined⟩

theorem Sound.move (sound : Sound s) (t : Move σ ω) : Sound (s.move t).1 := by
  cases t with
  | gather handlers m x =>
      exact ⟨sound.numbered.gather _, sound.lined.gather sound.numbered _⟩
  | resume n => exact sound.resume n
  | elsewhere f =>
      constructor
      · exact ⟨sound.numbered.bound, sound.numbered.place, sound.numbered.together⟩
      · exact sound.lined.of_same rfl (fun i k => Iff.rfl) fun i k p within => within

theorem Sound.run (sound : Sound s) (moves : List (Move σ ω)) : Sound (s.run moves).1 := by
  induction moves generalizing s with
  | nil => exact sound
  | cons t rest ih => exact ih (sound.move t)

/-! ## A cohort that is alone -/

theorem run_append (moves more : List (Move σ ω)) (s : Crowd σ ω) :
    (s.run (moves ++ more)).1 = ((s.run moves).1.run more).1 := by
  induction moves generalizing s with
  | nil => rfl
  | cons t rest ih => exact ih (s.move t).1

/-- A crowd of which all members are of one cohort. -/
def alone (programs : List (Program σ ω)) (stage : Cohort.Stage σ ω) : Crowd σ ω where
  shared := stage.shared
  members n := stage.tasks[n]?.map fun task => ⟨0, programs, task⟩
  next := programs.length

theorem members_alone (programs : List (Program σ ω)) (resumed pending : List (Task σ ω))
    (task : Task σ ω) (shared : SharedWorld σ ω) :
    (alone programs ⟨resumed, task :: pending, shared⟩).members resumed.length =
      some ⟨0, programs, task⟩ := by
  simp [alone, Cohort.Stage.tasks]

variable {handlers : List (Handler σ ω)} {m : Message} {x : Extra} {w : World σ ω}

/-- Every stage of a cohort is got to in moves. -/
theorem exists_moves_of_passes {trace : List (Stretch σ ω)} {stage : Cohort.Stage σ ω}
    (passed : Cohort.Passes handlers m x w trace stage) :
    ∃ numbers : List Nat, ((idle w).run (.gather handlers m x :: numbers.map .resume)).1 =
      alone (handlers.map fun h => h.program m x) stage := by
  induction passed with
  | start =>
      refine ⟨[], ?_⟩
      simp [run, move, gather, idle, alone, Cohort.Stage.tasks, Function.comp_def]
  | @resume trace resumed pending task task' s s' _ returned ih =>
      obtain ⟨numbers, runEq⟩ := ih
      refine ⟨numbers ++ [resumed.length], ?_⟩
      rw [List.map_append, ← List.cons_append, run_append, runEq]
      show ((alone _ _).resume resumed.length).1 = _
      rw [resume_of_returns (members_alone _ _ _ _ _) returned]
      simp only [put, alone, Cohort.Stage.tasks, mk.injEq, true_and, and_true]
      funext n
      by_cases here : n = resumed.length
      · subst here
        simp
      · rw [Function.update_of_ne here, List.append_assoc, List.singleton_append,
          Cohort.getElem?_of_ne here]
  | round _ _ ih => simpa [alone, Cohort.Stage.tasks] using ih

/-- What a cohort that is alone leaves is left after some moves. -/
theorem exists_moves_of_run {budget : Nat}
    (ended : (Cohort.run budget handlers m x ⟨w, Locks.free⟩).outcome ≠ .unfinished) :
    ∃ numbers : List Nat, ((idle w).run (.gather handlers m x :: numbers.map .resume)).1.shared =
      (Cohort.run budget handlers m x ⟨w, Locks.free⟩).state := by
  rcases Action.returns_or_crashes ended with ⟨invocations, s', returned⟩ | ⟨text, s', crashed⟩
  · obtain ⟨trace, stage, passed, _, sharedEq⟩ := Cohort.run_returns returned
    obtain ⟨numbers, runEq⟩ := exists_moves_of_passes passed
    exact ⟨numbers, by rw [runEq, returned.2, ← sharedEq]; rfl⟩
  · obtain ⟨_, roundsCrashed, rfl⟩ := (Action.crashes_onCrash_iff _ _ _ _ _).mp crashed
    obtain ⟨trace, resumed, task, pending, s, passed, resumeCrashed⟩ :=
      Cohort.Reaches.start.of_rounds_crashes roundsCrashed
    obtain ⟨numbers, runEq⟩ := exists_moves_of_passes passed
    refine ⟨numbers ++ [resumed.length], ?_⟩
    rw [List.map_append, ← List.cons_append, run_append, runEq, crashed.2]
    show ((alone _ _).resume resumed.length).1.shared = _
    rw [resume_of_crashes (members_alone _ _ _ _ _) resumeCrashed]
    rfl

end Crowd

end Courier
