import Courier.Proofs.Cohort.Queueing
import Courier.Proofs.Cohort.Shadow
import Courier.Proofs.Handler.Writing

/-!
# Diaries of cohorts at the same time

However the members of several cohorts are resumed, the diary of an instance consists of whole
blocks and of blocks that a crash has cut, in the order in which these lifecycles have ended, and
of the beginning of one more if a member is in the middle of its lifecycle.
-/

namespace Courier

variable {σ ω : Type}

/-- The same move, with recorded handlers. -/
def Crowd.Move.recorded : Crowd.Move σ ω → Crowd.Move (Diary σ) ω
  | .gather handlers m x => .gather (handlers.map Handler.recorded) m x
  | .resume n => .resume n
  | .elsewhere f => .elsewhere f

/-- What a lifecycle leaves in the diary of its instance, by the way it ends. -/
inductive Spell : Outcome Invocation → List Mark → Prop
  | whole {invocation : Invocation} {marks : List Mark} :
      Block (.returned invocation) marks → Spell (.returned invocation) marks
  | cut (text : String) {marks : List Mark} : Cut marks → Spell (.crashed text) marks

/-! ## Recorded moves -/

/-- The first member does on the current world what the second does. -/
structure Member.Shadows (recorded : Member (Diary σ) ω) (member : Member σ ω) : Prop where
  first : recorded.first = member.first
  programs : List.Forall₂ Program.Shadows recorded.programs member.programs
  task : recorded.task.Shadows member.task

namespace Task

variable {recorded recorded' : Task (Diary σ) ω} {task task' : Task σ ω}

theorem Shadows.program? (shadows : recorded.Shadows task) :
    Option.Rel Program.Shadows recorded.program? task.program? := by
  cases shadows with
  | fresh shadows => exact .some shadows
  | queued shadows => exact .some shadows
  | active shadows => exact .some shadows
  | settled invocation => exact .none

theorem Shadows.isWithin_eq (shadows : recorded.Shadows task) (i : InstanceId) :
    recorded.isWithin i = task.isWithin i := by
  cases shadows with
  | active shadows => simp only [isWithin, shadows.owner?_eq]
  | _ => rfl

theorem Shadows.endings_eq (shadows : recorded.Shadows task) (later : recorded'.Shadows task') :
    recorded.endings recorded' = task.endings task' := by
  funext i
  have programs := shadows.program?
  unfold endings
  generalize recorded.program? = p at programs
  generalize task.program? = q at programs
  cases programs with
  | none => rfl
  | some programs =>
      cases later with
      | settled invocation => simp only [programs.owner?_eq]
      | _ => rfl

end Task

namespace Crowd

/-- The first crowd is the second but for the diaries. -/
structure Shadows (recorded : Crowd (Diary σ) ω) (s : Crowd σ ω) : Prop where
  shared : recorded.shared.current = s.shared
  members : ∀ n, Option.Rel Member.Shadows (recorded.members n) (s.members n)
  next : recorded.next = s.next

variable {recorded : Crowd (Diary σ) ω} {s : Crowd σ ω}

theorem shadows_idle (d : World (Diary σ) ω) : (idle d).Shadows (idle d.current) :=
  ⟨rfl, fun _ => .none, rfl⟩

theorem Shadows.breaksOff_eq (shadows : recorded.Shadows s) {member : Member (Diary σ) ω}
    {member' : Member σ ω} (same : member.Shadows member') (i : InstanceId) :
    recorded.breaksOff member i = s.breaksOff member' i := by
  have ofOthers : ∀ n, ((recorded.members n).any fun other => other.task.isWithin i) =
      (s.members n).any fun other => other.task.isWithin i := by
    intro n
    have members := shadows.members n
    generalize recorded.members n = other at members
    generalize s.members n = other' at members
    cases members with
    | none => rfl
    | some members => exact members.task.isWithin_eq i
  have ofIts : (member.task.program?.any fun p => p.owner? = some i) =
      member'.task.program?.any fun p => p.owner? = some i := by
    have programs := same.task.program?
    generalize member.task.program? = p at programs
    generalize member'.task.program? = q at programs
    cases programs with
    | none => rfl
    | some programs => simp only [Option.any_some, programs.owner?_eq]
  simp only [breaksOff, ofOthers, ofIts, same.first, same.programs.length_eq]

theorem Shadows.gather (shadows : recorded.Shadows s) (handlers : List (Handler σ ω)) (m : Message)
    (x : Extra) :
    (recorded.gather ((handlers.map Handler.recorded).map fun h => h.program m x)).Shadows
      (s.gather (handlers.map fun h => h.program m x)) := by
  have programs := Cohort.shadows_programs_recorded handlers m x
  constructor
  · exact shadows.shared
  · intro n
    simp only [Crowd.gather, shadows.next, List.getElem?_map]
    split
    · cases handlers[n - s.next]? with
      | none => exact .none
      | some h => exact .some ⟨rfl, programs, .fresh (h.shadows_program_recorded m x)⟩
    · exact shadows.members n
  · simp only [Crowd.gather, shadows.next, List.length_map]

theorem Shadows.resume (shadows : recorded.Shadows s) (n : Nat) :
    (recorded.resume n).1.Shadows (s.resume n).1 ∧ (recorded.resume n).2 = (s.resume n).2 := by
  have members := shadows.members n
  unfold Crowd.resume
  generalize recorded.members n = first at members
  generalize s.members n = second at members
  cases members with
  | none => exact ⟨shadows, rfl⟩
  | @some member member' same =>
      obtain ⟨outcomes, states⟩ := same.task.resume n shadows.shared
      dsimp only
      generalize (member.task.resume n recorded.shared) = r at outcomes states
      generalize (member'.task.resume n s.shared) = r' at outcomes states
      rcases r with ⟨outcome, shared, log⟩
      rcases r' with ⟨outcome', shared', log'⟩
      cases outcomes with
      | @returned task task' resumed =>
          refine ⟨⟨states, fun k => ?_, shadows.next⟩, same.task.endings_eq resumed⟩
          by_cases here : k = n
          · subst here
            rw [members_put_self, members_put_self]
            exact .some ⟨same.first, same.programs, resumed⟩
          · rw [members_put_of_ne here, members_put_of_ne here]
            exact shadows.members k
      | crashed text =>
          refine ⟨⟨?_, fun k => ?_, shadows.next⟩, ?_⟩
          · have locksEq : shared.locks = shared'.locks := congrArg SharedWorld.locks states
            have worldEq : shared.world.current = shared'.world := congrArg SharedWorld.world states
            simp only [dismiss, SharedWorld.mapLocks, SharedWorld.current, same.first, locksEq,
              worldEq, Cohort.drop_eq_of_shadows _ same.programs]
          · have counts : member.Counts k ↔ member'.Counts k := by
              simp only [Member.Counts, same.first, same.programs.length_eq]
            simp only [dismiss, counts]
            split
            · exact .none
            · exact shadows.members k
          · funext i
            simp only [shadows.breaksOff_eq same]
      | unfinished => exact ⟨shadows, rfl⟩

theorem Shadows.move (shadows : recorded.Shadows s) (t : Move σ ω) :
    (recorded.move t.recorded).1.Shadows (s.move t).1 ∧
      (recorded.move t.recorded).2 = (s.move t).2 := by
  cases t with
  | gather handlers m x => exact ⟨shadows.gather handlers m x, rfl⟩
  | resume n => exact shadows.resume n
  | elsewhere f =>
      refine ⟨⟨?_, shadows.members, shadows.next⟩, rfl⟩
      show (recorded.change f).shared.current = (s.change f).shared
      rw [Crowd.change, Crowd.change, ← shadows.shared]
      rfl

/-- The diaries make no difference. -/
theorem Shadows.run (shadows : recorded.Shadows s) (moves : List (Move σ ω)) :
    (recorded.run (moves.map Move.recorded)).1.Shadows (s.run moves).1 ∧
      (recorded.run (moves.map Move.recorded)).2 = (s.run moves).2 := by
  induction moves generalizing recorded s with
  | nil => exact ⟨shadows, rfl⟩
  | cons t rest ih =>
      obtain ⟨now, nowEq⟩ := shadows.move t
      obtain ⟨later, laterEq⟩ := ih now
      refine ⟨later, ?_⟩
      simp only [List.map_cons, Crowd.run, nowEq, laterEq]

/-! ## Chronicles -/

variable {i : InstanceId} {start : List Mark} {endings : List (Outcome Invocation)} {n : Nat}
  {s s' : Crowd (Diary σ) ω} {member : Member (Diary σ) ω}

/-- The diary of an instance holds what the lifecycles that have ended have left, and the beginning
of a block if a member is in the middle of its lifecycle, which writes on. -/
inductive Chronicle (s : Crowd (Diary σ) ω) (i : InstanceId) (start : List Mark)
    (endings : List (Outcome Invocation)) : Prop
  | between {spells : List (List Mark)} (spelled : List.Forall₂ Spell endings spells)
      (marksEq : s.shared.world.marks i = start ++ spells.flatten)
      (nobody : ∀ n p, ¬ s.IsWithin i n p)
  | within {spells : List (List Mark)} {cut : List Mark} {n : Nat} {p : Program (Diary σ) ω}
      (spelled : List.Forall₂ Spell endings spells) (isCut : Cut cut)
      (marksEq : s.shared.world.marks i = start ++ (spells.flatten ++ cut))
      (middle : s.IsWithin i n p) (writes : p.Writes i cut)

/-- Who has not begun writes a block from the first mark on. -/
def Awaits (s : Crowd (Diary σ) ω) : Prop :=
  ∀ n member p i, s.members n = some member → member.task.arrived = .queued p →
    p.owner? = some i → p.Writes i []

/-- Where nothing happens on an instance, nothing is written into its diary. -/
theorem Chronicle.of_same (chronicle : Chronicle s i start endings)
    (marksEq : s'.shared.world.marks i = s.shared.world.marks i)
    (within : ∀ n p, s'.IsWithin i n p ↔ s.IsWithin i n p) : Chronicle s' i start endings := by
  cases chronicle with
  | between spelled before nobody =>
      exact .between spelled (marksEq.trans before) fun n p middle =>
        nobody n p ((within n p).mp middle)
  | within spelled isCut before middle writes =>
      exact .within spelled isCut (marksEq.trans before) ((within _ _).mpr middle) writes

/-- Who goes on, goes on to write the block that it has begun, or one from the first mark on, and
nobody else is in the middle of a lifecycle on its instance. -/
theorem Chronicle.goesOn (chronicle : Chronicle s i start endings) (lined : Lined s)
    (awaits : Awaits s) (known : s.members n = some member) {p : Program (Diary σ) ω}
    (goesOn : Task.GoesOn n (member.task.arrive n s.shared.locks) member.task.arrived p)
    (owned : p.owner? = some i) :
    (∀ k q, s.IsWithin i k q → k = n) ∧ ∃ spells cut, List.Forall₂ Spell endings spells ∧
      s.shared.world.marks i = start ++ (spells.flatten ++ cut) ∧ p.Writes i cut := by
  have held := (lined.arrive known).held_of_goesOn (members_put_self _) goesOn owned
  have alone : ∀ k q, s.IsWithin i k q → k = n := by
    intro k q middle
    by_contra other
    have heldToo := (lined.arrive known).held i k q ((isWithin_put_of_ne other _ i q).mpr middle)
    exact other (Option.some.inj (heldToo.symm.trans held))
  refine ⟨alone, ?_⟩
  cases chronicle with
  | @between spells spelled marksEq nobody =>
      refine ⟨spells, [], spelled, by rw [marksEq, List.append_nil], ?_⟩
      generalize arrivedEq : member.task.arrived = task at goesOn
      cases goesOn with
      | held => exact awaits n member p i known arrivedEq owned
      | running =>
          have active : member.task = .active p := by
            revert arrivedEq
            cases member.task <;> simp [Task.arrived]
          exact absurd ⟨member, known, active, owned⟩ (nobody n p)
  | @within spells cut k q spelled isCut marksEq middle writes =>
      refine ⟨spells, cut, spelled, marksEq, ?_⟩
      obtain rfl := alone k q middle
      obtain ⟨active, _⟩ := (isWithin_iff known i q).mp middle
      rw [active] at goesOn
      cases goesOn
      exact writes

/-- Who waits for its lock has not begun. -/
theorem Chronicle.waits (chronicle : Chronicle s i start endings)
    (known : s.members n = some member) {p : Program (Diary σ) ω}
    (arrivedEq : member.task.arrived = .queued p) (locks : Locks) :
    Chronicle (s.put n { member with task := .queued p } ⟨s.shared.world, locks⟩) i start
      (endings ++ member.task.endings (.queued p) i) := by
  have nothing : member.task.endings (.queued p) i = [] := by
    cases member.task <;> rfl
  have same : (s.put n { member with task := .queued p }
      ⟨s.shared.world, locks⟩).shared.world = s.shared.world := rfl
  rw [nothing, List.append_nil]
  apply chronicle.of_same (by rw [same])
  intro k q
  by_cases here : k = n
  · subst here
    rw [isWithin_iff (members_put_self _), isWithin_iff known]
    constructor
    · rintro ⟨active, _⟩
      contradiction
    · rintro ⟨active, _⟩
      rw [active] at arrivedEq
      contradiction
  · exact isWithin_put_of_ne here _ i q

/-- What a stretch writes, and whether the lifecycle has ended with it. -/
theorem Chronicle.ran (chronicle : Chronicle s i start endings) (lined : Lined s)
    (awaits : Awaits s) (known : s.members n = some member) {p : Program (Diary σ) ω}
    (goesOn : Task.GoesOn n (member.task.arrive n s.shared.locks) member.task.arrived p)
    {left : Program (Diary σ) ω ⊕ Invocation} {w : World (Diary σ) ω}
    (advanced : p.advance.Returns s.shared.world left w) (locks : Locks) :
    Chronicle (s.put n { member with task := .ofLeft left } ⟨w, locks⟩) i start
      (endings ++ member.task.endings (.ofLeft left) i) := by
  have programEq := goesOn.program?_of_arrived
  by_cases owned : p.owner? = some i
  · obtain ⟨alone, spells, cut, spelled, marksEq, writes⟩ :=
      chronicle.goesOn lined awaits known goesOn owned
    obtain ⟨more, written, leaves⟩ := writes.advance s.shared.world
    rw [advanced.1] at leaves
    rw [advanced.2, marksEq, List.append_assoc, List.append_assoc] at written
    cases leaves with
    | @suspended rest _ isCut writesOn =>
        have nothing : member.task.endings (.ofLeft (.inl rest)) i = [] := by
          simp [Task.endings, programEq, Task.ofLeft]
        rw [nothing, List.append_nil]
        exact .within spelled isCut written
          ((isWithin_iff (members_put_self _) i _).mpr ⟨rfl, writesOn.owner?_eq⟩) writesOn
    | @ended invocation _ block =>
        have ending : member.task.endings (.ofLeft (.inr invocation)) i =
            [.returned invocation] := by
          simp [Task.endings, programEq, Task.ofLeft, owned]
        rw [ending]
        apply Chronicle.between (List.rel_append spelled (.cons (.whole block) .nil))
        · show w.marks i = _
          simpa using written
        · intro k q middle
          by_cases here : k = n
          · subst here
            obtain ⟨active, _⟩ := (isWithin_iff (members_put_self _) i q).mp middle
            contradiction
          · exact here (alone k q ((isWithin_put_of_ne here _ i q).mp middle))
  · have nothing : member.task.endings (.ofLeft left) i = [] := by
      cases left <;> simp [Task.endings, programEq, Task.ofLeft, owned]
    rw [nothing, List.append_nil]
    apply chronicle.of_same
    · show w.marks i = s.shared.world.marks i
      rw [← advanced.2]
      exact p.marks_advance _ owned
    · intro k q
      by_cases here : k = n
      · subst here
        rw [isWithin_iff (members_put_self _), isWithin_iff known]
        constructor
        · rintro ⟨active, ownedAfter⟩
          cases left with
          | inr invocation => contradiction
          | inl rest =>
              cases active
              exact absurd ((Program.owner?_of_advance advanced).symm.trans ownedAfter) owned
        · rintro ⟨active, ownedBefore⟩
          rw [active] at programEq
          cases programEq
          contradiction
      · exact isWithin_put_of_ne here _ i q

/-- What a crash leaves: each lifecycle that it breaks off has begun a block. -/
theorem Chronicle.crashed (chronicle : Chronicle s i start endings) (sound : Sound s)
    (awaits : Awaits s) (known : s.members n = some member) {p : Program (Diary σ) ω}
    (goesOn : Task.GoesOn n (member.task.arrive n s.shared.locks) member.task.arrived p)
    {text : String} {w : World (Diary σ) ω} (crashed : p.advance.Crashes s.shared.world text w)
    (locks : Locks) :
    Chronicle (s.dismiss member ⟨w, locks⟩) i start
      (endings ++ if s.breaksOff member i then [.crashed text] else []) := by
  have programEq := goesOn.program?_of_arrived
  by_cases owned : p.owner? = some i
  · obtain ⟨alone, spells, cut, spelled, marksEq, writes⟩ :=
      chronicle.goesOn sound.lined awaits known goesOn owned
    obtain ⟨more, written, leaves⟩ := writes.advance s.shared.world
    rw [crashed.1] at leaves
    rw [crashed.2, marksEq, List.append_assoc, List.append_assoc] at written
    rw [if_pos ((breaksOff_iff _ _ _).mpr (.inl ⟨p, programEq, owned⟩))]
    cases leaves with
    | crashed _ isCut =>
        apply Chronicle.between (List.rel_append spelled (.cons (.cut text isCut) .nil))
        · show w.marks i = _
          simpa using written
        · intro k q middle
          obtain ⟨middleBefore, notCounted⟩ := (isWithin_dismiss _ i k q).mp middle
          obtain rfl := alone k q middleBefore
          exact notCounted (sound.numbered.counts known)
  · have marksEq : w.marks i = s.shared.world.marks i := by
      rw [← crashed.2]
      exact p.marks_advance _ owned
    by_cases broken : s.breaksOff member i = true
    · rw [if_pos broken]
      have notItsOwn : ¬ ∃ q, member.task.program? = some q ∧ q.owner? = some i := by
        rintro ⟨q, sameEq, ownedToo⟩
        rw [programEq] at sameEq
        cases sameEq
        exact owned ownedToo
      obtain ⟨k, q, counts, middle⟩ := ((breaksOff_iff _ _ _).mp broken).resolve_left notItsOwn
      cases chronicle with
      | between _ _ nobody => exact absurd middle (nobody k q)
      | @within spells cut k' q' spelled isCut before middle' writes =>
          apply Chronicle.between (List.rel_append spelled (.cons (.cut text isCut) .nil))
          · show w.marks i = _
            simpa using marksEq.trans before
          · intro j q'' middleAfter
            obtain ⟨middleBefore, notCounted⟩ := (isWithin_dismiss _ i j q'').mp middleAfter
            obtain rfl := sound.lined.unique middleBefore middle
            exact notCounted counts
    · rw [if_neg broken, List.append_nil]
      apply chronicle.of_same marksEq
      intro k q
      rw [isWithin_dismiss]
      exact and_iff_left_of_imp fun middle counts =>
        broken ((breaksOff_iff _ _ _).mpr (.inr ⟨k, q, counts, middle⟩))

/-- Those that are gathered have not begun, and whoever waits has not begun either. -/
theorem Awaits.move (awaits : Awaits s) (numbered : Numbered s) (t : Move σ ω) :
    Awaits (s.move t.recorded).1 := by
  cases t with
  | gather handlers m x =>
      intro n member p i known arrivedEq owned
      rcases (numbered.members_gather _).mp known with before | ⟨k, q, _, programEq, rfl⟩
      · exact awaits n member p i before arrivedEq owned
      · cases arrivedEq
        rw [List.map_map, List.getElem?_map] at programEq
        obtain ⟨h, _, rfl⟩ := Option.map_eq_some_iff.mp programEq
        have engaged : h.engages m = some i := by
          rw [← Handler.engages_recorded, ← Handler.owner?_program]
          exact owned
        exact Handler.writes_program_recorded engaged x
  | resume n =>
      show Awaits (s.resume n).1
      have resumes := resumes_resume s n
      generalize s.resume n = after at resumes
      cases resumes with
      | nobody unknown => exact awaits
      | @goesOn member task shared known resumption =>
          intro k other p i knownAfter arrivedEq owned
          by_cases here : k = n
          · subst here
            rw [members_put_self] at knownAfter
            cases knownAfter
            rcases member with ⟨first, programs, before⟩
            cases resumption with
            | stays invocation => contradiction
            | waits arrivedBefore =>
                cases arrivedEq
                exact awaits k _ p i known arrivedBefore owned
            | @runs _ q left w goesOn advanced => cases left <;> contradiction
          · rw [members_put_of_ne here] at knownAfter
            exact awaits k other p i knownAfter arrivedEq owned
      | @crashes member p text w known goesOn crashed =>
          intro k other q i knownAfter arrivedEq owned
          exact awaits k other q i ((members_dismiss _).mp knownAfter).1 arrivedEq owned
  | elsewhere f => exact awaits

theorem Chronicle.move (chronicle : Chronicle s i start endings) (sound : Sound s)
    (awaits : Awaits s) (t : Move σ ω) :
    Chronicle (s.move t.recorded).1 i start (endings ++ (s.move t.recorded).2 i) := by
  cases t with
  | gather handlers m x =>
      show Chronicle _ i start (endings ++ [])
      rw [List.append_nil]
      exact chronicle.of_same rfl (sound.numbered.isWithin_gather _ i)
  | resume n =>
      show Chronicle (s.resume n).1 i start (endings ++ (s.resume n).2 i)
      have resumes := resumes_resume s n
      generalize s.resume n = after at resumes
      cases resumes with
      | nobody unknown => simpa using chronicle
      | @goesOn member task shared known resumption =>
          rcases member with ⟨first, programs, before⟩
          cases resumption with
          | stays invocation => simpa [Task.endings, Task.program?, put_self known] using chronicle
          | waits arrivedEq => exact chronicle.waits known arrivedEq _
          | runs goesOn advanced =>
              exact chronicle.ran sound.lined awaits known goesOn advanced _
      | crashes known goesOn crashed => exact chronicle.crashed sound awaits known goesOn crashed _
  | elsewhere f =>
      show Chronicle _ i start (endings ++ [])
      rw [List.append_nil]
      exact chronicle.of_same rfl fun n p => Iff.rfl

theorem Chronicle.run (chronicle : Chronicle s i start endings) (sound : Sound s)
    (awaits : Awaits s) (moves : List (Move σ ω)) :
    Chronicle (s.run (moves.map Move.recorded)).1 i start
      (endings ++ (s.run (moves.map Move.recorded)).2 i) := by
  induction moves generalizing s endings with
  | nil => simpa [Crowd.run] using chronicle
  | cons t rest ih =>
      have later := ih (chronicle.move sound awaits t) (sound.move _)
        (awaits.move sound.numbered t)
      rw [List.append_assoc] at later
      exact later

/-- The discipline of cohorts at the same time.  The diaries make no difference, and that of an
instance holds what the lifecycles have left that have ended on the instance: whole blocks, but
for those that a crash has broken off.  Whoever is in the middle of its lifecycle has locked its
instance; and an instance is locked for nobody but those that have asked for it and have neither
settled nor been dropped. -/
structure Disciplined (moves : List (Move σ ω)) (d : World (Diary σ) ω) : Prop where
  current : ((idle d).run (moves.map Move.recorded)).1.shared.current =
    ((idle d.current).run moves).1.shared
  endings : ((idle d).run (moves.map Move.recorded)).2 = ((idle d.current).run moves).2
  chronicle : ∀ i, Chronicle ((idle d).run (moves.map Move.recorded)).1 i (d.marks i)
    (((idle d.current).run moves).2 i)
  held : ∀ i n p, ((idle d).run (moves.map Move.recorded)).1.IsWithin i n p →
    (((idle d).run (moves.map Move.recorded)).1.shared.locks i).holder = some n
  unlocked : ∀ i n,
    (((idle d).run (moves.map Move.recorded)).1.shared.locks i).holder = some n →
    ((idle d).run (moves.map Move.recorded)).1.StandsIn i n

theorem disciplined (moves : List (Move σ ω)) (d : World (Diary σ) ω) : Disciplined moves d := by
  have sound := (sound_idle d).run (moves.map Move.recorded)
  obtain ⟨shadows, endingsEq⟩ := (shadows_idle d).run moves
  constructor
  · exact shadows.shared
  · exact endingsEq
  · intro i
    have nothing : Chronicle (idle d) i (d.marks i) [] :=
      .between .nil (List.append_nil _).symm fun n p ⟨_, known, _⟩ => by contradiction
    have awaits : Awaits (idle d) := fun n member p i known => by contradiction
    rw [← endingsEq]
    exact nothing.run (sound_idle d) awaits moves
  · exact sound.lined.held
  · intro i n held
    obtain ⟨line, lineEq, _, mem⟩ := sound.lined.line i
    rw [lineEq, Lock.holder_ofLine] at held
    exact (mem n).mp (List.mem_of_mem_head? held)

end Crowd

end Courier
