import Courier.Proofs.Cohort.Settling
import Mathlib.Logic.Function.Basic

/-!
# Cohorts at the same time

Calls that may suspend can be made at the same time.  Each of them gathers one cohort after the
other, and the members of all cohorts share the world and the locks; which of them is resumed next
is decided elsewhere.  A crash drops the cohort of the member that crashes, and the others go on.
-/

namespace Courier

variable {σ ω : Type}

/-- A member of one of the cohorts.  All members are numbered, and the numbers of a cohort follow
each other. -/
structure Member (σ ω : Type) where
  /-- The number of the first member of the cohort. -/
  first : Nat
  /-- The invocations that the cohort has been gathered for. -/
  programs : List (Program σ ω)
  task : Task σ ω

/-- A number is one of the cohort of a member. -/
def Member.Counts (member : Member σ ω) (n : Nat) : Prop :=
  member.first ≤ n ∧ n < member.first + member.programs.length

instance (member : Member σ ω) (n : Nat) : Decidable (member.Counts n) :=
  inferInstanceAs (Decidable (_ ∧ _))

/-- The members of all cohorts by their numbers, and what they share. -/
structure Crowd (σ ω : Type) where
  shared : SharedWorld σ ω
  members : Nat → Option (Member σ ω)
  /-- The number that the next member is going to have. -/
  next : Nat

namespace Task

/-- Whether a member is in the middle of its lifecycle on an instance. -/
def isWithin (i : InstanceId) : Task σ ω → Bool
  | active p => p.owner? = some i
  | _ => false

/-- How the lifecycle on an instance has ended, if a member has come to its end. -/
def endings (task task' : Task σ ω) (i : InstanceId) : List (Outcome Invocation) :=
  match task.program?, task' with
  | some p, settled invocation => if p.owner? = some i then [.returned invocation] else []
  | _, _ => []

/-- Who has not been resumed asks for the lock of its instance alone. -/
theorem arrive_fresh (n : Nat) (p : Program σ ω) (locks : Locks) (i : InstanceId) :
    (fresh p).arrive n locks i = if p.owner? = some i then (locks i).request n else locks i := by
  cases owned : p.owner? with
  | none => simp [arrive, owned]
  | some owner =>
      by_cases same : owner = i
      · subst same
        simp [arrive, owned]
      · have other : i ≠ owner := fun eq => same eq.symm
        simp [arrive, owned, Locks.update_of_ne _ other, same]

end Task

namespace Crowd

/-- What is done next. -/
inductive Move (σ ω : Type) where
  /-- A call gathers the handlers of a message. -/
  | gather (handlers : List (Handler σ ω)) (m : Message) (x : Extra)
  | resume (number : Nat)
  /-- Somebody else changes the context, or what lies outside the bus. -/
  | elsewhere (change : Context × ω → Context × ω)

/-- No cohort has been gathered. -/
def idle (w : World σ ω) : Crowd σ ω :=
  ⟨⟨w, Locks.free⟩, fun _ => none, 0⟩

/-- Gather a cohort. -/
def gather (programs : List (Program σ ω)) (s : Crowd σ ω) : Crowd σ ω :=
  { s with
    members := fun n =>
      if s.next ≤ n then programs[n - s.next]?.map fun p => ⟨s.next, programs, .fresh p⟩
      else s.members n
    next := s.next + programs.length }

/-- The member with a number stands somewhere else, and has changed what is shared. -/
def put (n : Nat) (member : Member σ ω) (shared : SharedWorld σ ω) (s : Crowd σ ω) : Crowd σ ω :=
  { s with shared, members := Function.update s.members n (some member) }

/-- Drop the cohort of a member. -/
def dismiss (member : Member σ ω) (shared : SharedWorld σ ω) (s : Crowd σ ω) : Crowd σ ω :=
  { s with
    shared := shared.mapLocks (Cohort.drop member.first member.programs)
    members := fun n => if member.Counts n then none else s.members n }

/-- Whether a crash of the member breaks a lifecycle on an instance off: its own, or that of
another of its cohort. -/
def breaksOff (member : Member σ ω) (s : Crowd σ ω) (i : InstanceId) : Bool :=
  (member.task.program?.any fun p => p.owner? = some i) ||
    (List.range member.programs.length).any fun k =>
      (s.members (member.first + k)).any fun other => other.task.isWithin i

/-- Resume the member with a number; beside what becomes of the crowd stands which lifecycles have
ended then on each instance, and how. -/
def resume (n : Nat) (s : Crowd σ ω) : Crowd σ ω × (InstanceId → List (Outcome Invocation)) :=
  match s.members n with
  | none => (s, fun _ => [])
  | some member =>
      let r := member.task.resume n s.shared
      match r.outcome with
      | .returned task => (s.put n { member with task } r.state, member.task.endings task)
      | .crashed text =>
          (s.dismiss member r.state, fun i => if s.breaksOff member i then [.crashed text] else [])
      | .unfinished => (s, fun _ => [])

/-- Let somebody else change the context, or what lies outside. -/
def change (f : Context × ω → Context × ω) (s : Crowd σ ω) : Crowd σ ω :=
  let changed := f (s.shared.world.context, s.shared.world.outside)
  let world := { s.shared.world with context := changed.1, outside := changed.2 }
  { s with shared := s.shared.putWorld world }

/-- Do what is to be done next. -/
def move : Move σ ω → Crowd σ ω → Crowd σ ω × (InstanceId → List (Outcome Invocation))
  | .gather handlers m x, s => (s.gather (handlers.map fun h => h.program m x), fun _ => [])
  | .resume n, s => s.resume n
  | .elsewhere f, s => (s.change f, fun _ => [])

/-- Do one thing after the other; the lifecycles on each instance that have ended come in the order
in which they have. -/
def run : List (Move σ ω) → Crowd σ ω → Crowd σ ω × (InstanceId → List (Outcome Invocation))
  | [], s => (s, fun _ => [])
  | t :: rest, s =>
      let now := s.move t
      let later := run rest now.1
      (later.1, fun i => now.2 i ++ later.2 i)

/-- A member is in the middle of its lifecycle on an instance, and this is left of it. -/
def IsWithin (s : Crowd σ ω) (i : InstanceId) (n : Nat) (p : Program σ ω) : Prop :=
  ∃ member, s.members n = some member ∧ member.task = .active p ∧ p.owner? = some i

/-- A member has asked for an instance, and has not settled. -/
def StandsIn (s : Crowd σ ω) (i : InstanceId) (n : Nat) : Prop :=
  ∃ member, s.members n = some member ∧ n ∈ member.task.place i n

variable {s : Crowd σ ω} {n : Nat} {member : Member σ ω}

theorem members_put_self (shared : SharedWorld σ ω) :
    (s.put n member shared).members n = some member :=
  Function.update_self _ _ _

theorem members_put_of_ne {k : Nat} (other : k ≠ n) (shared : SharedWorld σ ω) :
    (s.put n member shared).members k = s.members k :=
  Function.update_of_ne other _ _

theorem put_put (earlier : Member σ ω) (shared before : SharedWorld σ ω) :
    (s.put n earlier before).put n member shared = s.put n member shared := by
  simp [put]

theorem put_self (known : s.members n = some member) : s.put n member s.shared = s := by
  rw [put, ← known, Function.update_eq_self]

theorem members_dismiss (shared : SharedWorld σ ω) {k : Nat} {other : Member σ ω} :
    (s.dismiss member shared).members k = some other ↔
      s.members k = some other ∧ ¬ member.Counts k := by
  simp only [dismiss]
  split <;> simp [*]

theorem standsIn_iff (known : s.members n = some member) (i : InstanceId) :
    s.StandsIn i n ↔ n ∈ member.task.place i n := by
  simp [StandsIn, known]

theorem isWithin_iff (known : s.members n = some member) (i : InstanceId) (p : Program σ ω) :
    s.IsWithin i n p ↔ member.task = .active p ∧ p.owner? = some i := by
  simp [IsWithin, known]

theorem standsIn_put_of_ne {k : Nat} (other : k ≠ n) (shared : SharedWorld σ ω) (i : InstanceId) :
    (s.put n member shared).StandsIn i k ↔ s.StandsIn i k := by
  simp only [StandsIn, members_put_of_ne other]

theorem isWithin_put_of_ne {k : Nat} (other : k ≠ n) (shared : SharedWorld σ ω) (i : InstanceId)
    (p : Program σ ω) : (s.put n member shared).IsWithin i k p ↔ s.IsWithin i k p := by
  simp only [IsWithin, members_put_of_ne other]

theorem isWithin_dismiss (shared : SharedWorld σ ω) (i : InstanceId) (k : Nat) (p : Program σ ω) :
    (s.dismiss member shared).IsWithin i k p ↔ s.IsWithin i k p ∧ ¬ member.Counts k := by
  simp only [IsWithin, members_dismiss]
  constructor
  · rintro ⟨other, ⟨known, notCounted⟩, within⟩
    exact ⟨⟨other, known, within⟩, notCounted⟩
  · rintro ⟨⟨other, known, within⟩, notCounted⟩
    exact ⟨other, ⟨known, notCounted⟩, within⟩

/-- What is resumed has settled, waits, or has run a stretch. -/
theorem resume_of_returns (known : s.members n = some member) {task : Task σ ω}
    {shared : SharedWorld σ ω} (returned : (member.task.resume n).Returns s.shared task shared) :
    s.resume n = (s.put n { member with task } shared, member.task.endings task) := by
  simp only [resume, known, returned.1, returned.2]

theorem resume_of_crashes (known : s.members n = some member) {text : String}
    {shared : SharedWorld σ ω} (crashed : (member.task.resume n).Crashes s.shared text shared) :
    s.resume n = (s.dismiss member shared,
      fun i => if s.breaksOff member i then [.crashed text] else []) := by
  simp only [resume, known, crashed.1, crashed.2]

/-- A crash breaks off the lifecycle of the member itself, and those in whose middle others of its
cohort are. -/
theorem breaksOff_iff (member : Member σ ω) (s : Crowd σ ω) (i : InstanceId) :
    s.breaksOff member i = true ↔
      (∃ p, member.task.program? = some p ∧ p.owner? = some i) ∨
        ∃ k p, member.Counts k ∧ s.IsWithin i k p := by
  have within : ∀ task : Task σ ω,
      task.isWithin i = true ↔ ∃ p, task = .active p ∧ p.owner? = some i := by
    intro task
    cases task <;> simp [Task.isWithin]
  simp only [breaksOff, Bool.or_eq_true, Option.any_eq_true, decide_eq_true_iff, List.any_eq_true,
    List.mem_range, within]
  apply or_congr_right
  constructor
  · rintro ⟨k, bound, other, known, p, within⟩
    exact ⟨member.first + k, p, ⟨Nat.le_add_right _ _, Nat.add_lt_add_left bound _⟩, other, known,
      within⟩
  · rintro ⟨k, p, ⟨later, bound⟩, other, known, within⟩
    obtain ⟨j, rfl⟩ := Nat.exists_eq_add_of_le later
    exact ⟨j, Nat.lt_of_add_lt_add_left bound, other, known, p, within⟩

/-- What becomes of a crowd when the member with a number is resumed. -/
inductive Resumes (s : Crowd σ ω) (n : Nat) :
    Crowd σ ω × (InstanceId → List (Outcome Invocation)) → Prop
  | nobody (unknown : s.members n = none) : Resumes s n (s, fun _ => [])
  | goesOn {member : Member σ ω} {task : Task σ ω} {shared : SharedWorld σ ω}
      (known : s.members n = some member)
      (resumption : Task.Resumption n s.shared member.task task shared) :
      Resumes s n (s.put n { member with task } shared, member.task.endings task)
  | crashes {member : Member σ ω} {p : Program σ ω} {text : String} {w : World σ ω}
      (known : s.members n = some member)
      (goesOn : Task.GoesOn n (member.task.arrive n s.shared.locks) member.task.arrived p)
      (crashed : p.advance.Crashes s.shared.world text w) :
      Resumes s n (s.dismiss member ⟨w, member.task.arrive n s.shared.locks⟩,
        fun i => if s.breaksOff member i then [.crashed text] else [])

theorem resumes_resume (s : Crowd σ ω) (n : Nat) : Resumes s n (s.resume n) := by
  cases known : s.members n with
  | none =>
      have nothing : s.resume n = (s, fun _ => []) := by simp only [resume, known]
      rw [nothing]
      exact .nobody known
  | some member =>
      rcases Action.returns_or_crashes (member.task.resume_ne_unfinished n s.shared) with
        ⟨task, shared, returned⟩ | ⟨text, shared, crashed⟩
      · rw [resume_of_returns known returned]
        exact .goesOn known (Task.resume_returns returned)
      · rw [resume_of_crashes known crashed]
        obtain ⟨p, w, goesOn, stretchCrashed, rfl⟩ := Task.resume_crashes crashed
        exact .crashes known goesOn stretchCrashed

/-! ## Numbers -/

/-- The numbers of a cohort are its own, and its members keep the instances that they have been
gathered for. -/
structure Numbered (s : Crowd σ ω) : Prop where
  bound : ∀ n member, s.members n = some member → member.first + member.programs.length ≤ s.next
  place : ∀ n member, s.members n = some member → ∃ k p, n = member.first + k ∧
    member.programs[k]? = some p ∧
    ∀ q, member.task.program? = some q → q.owner? = p.owner?
  together : ∀ n member n' member', s.members n = some member → s.members n' = some member' →
    member.Counts n' → member'.first = member.first ∧ member'.programs = member.programs

namespace Numbered

theorem idle (w : World σ ω) : Numbered (idle w) where
  bound _ _ known := by contradiction
  place _ _ known := by contradiction
  together _ _ _ _ known := by contradiction

theorem counts (numbered : Numbered s) (known : s.members n = some member) : member.Counts n := by
  obtain ⟨k, p, rfl, programEq, _⟩ := numbered.place n member known
  obtain ⟨bound, _⟩ := List.getElem?_eq_some_iff.mp programEq
  exact ⟨Nat.le_add_right _ _, Nat.add_lt_add_left bound _⟩

theorem lt_next (numbered : Numbered s) (known : s.members n = some member) : n < s.next :=
  Nat.lt_of_lt_of_le (numbered.counts known).2 (numbered.bound n member known)

/-- After a cohort has been gathered a member is one that has been there before, or one of this
cohort, which has not been resumed. -/
theorem members_gather (numbered : Numbered s) (programs : List (Program σ ω)) :
    (s.gather programs).members n = some member ↔ s.members n = some member ∨
      ∃ k p, n = s.next + k ∧ programs[k]? = some p ∧ member = ⟨s.next, programs, .fresh p⟩ := by
  constructor
  · intro known
    simp only [Crowd.gather] at known
    split at known
    · rename_i later
      obtain ⟨p, programEq, rfl⟩ := Option.map_eq_some_iff.mp known
      exact .inr ⟨n - s.next, p, by omega, programEq, rfl⟩
    · exact .inl known
  · rintro (before | ⟨k, p, rfl, programEq, rfl⟩)
    · simp only [Crowd.gather]
      rw [if_neg (Nat.not_le.mpr (numbered.lt_next before))]
      exact before
    · simp [Crowd.gather, programEq]

/-- A cohort that is gathered gets numbers that nobody has had. -/
theorem gather (numbered : Numbered s) (programs : List (Program σ ω)) :
    Numbered (s.gather programs) := by
  constructor
  · intro n member known
    rcases (numbered.members_gather programs).mp known with before | ⟨k, p, _, _, rfl⟩
    · exact Nat.le_add_right_of_le (numbered.bound n member before)
    · exact Nat.le_refl _
  · intro n member known
    rcases (numbered.members_gather programs).mp known with
      before | ⟨k, p, numberEq, programEq, rfl⟩
    · exact numbered.place n member before
    · refine ⟨k, p, numberEq, programEq, ?_⟩
      rintro q ⟨rfl⟩
      rfl
  · intro n member n' member' known known' counts
    rcases (numbered.members_gather programs).mp known with before | ⟨k, p, _, _, rfl⟩
    · have bound := numbered.bound n member before
      rcases (numbered.members_gather programs).mp known' with before' | ⟨k', p', rfl, _, _⟩
      · exact numbered.together n member n' member' before before' counts
      · have := counts.2
        omega
    · rcases (numbered.members_gather programs).mp known' with before' | ⟨_, _, _, _, rfl⟩
      · have earlier := numbered.lt_next before'
        have : s.next ≤ n' := counts.1
        omega
      · exact ⟨rfl, rfl⟩

/-- A member that is resumed keeps its number and its instance. -/
theorem put (numbered : Numbered s) (known : s.members n = some member) {task : Task σ ω}
    (kept : ∀ q, task.program? = some q → ∃ p, member.task.program? = some p ∧ q.owner? = p.owner?)
    (shared : SharedWorld σ ω) : Numbered (s.put n { member with task } shared) := by
  have cases : ∀ {k other}, (s.put n { member with task } shared).members k = some other →
      ∃ before, s.members k = some before ∧ other.first = before.first ∧
        other.programs = before.programs ∧ ∀ q, other.task.program? = some q →
          ∃ p, before.task.program? = some p ∧ q.owner? = p.owner? := by
    intro k other knownAfter
    by_cases same : k = n
    · subst same
      rw [members_put_self] at knownAfter
      cases knownAfter
      exact ⟨member, known, rfl, rfl, kept⟩
    · rw [members_put_of_ne same] at knownAfter
      exact ⟨other, knownAfter, rfl, rfl, fun q programEq => ⟨q, programEq, rfl⟩⟩
  constructor
  · intro k other knownAfter
    obtain ⟨before, knownBefore, firstEq, programsEq, _⟩ := cases knownAfter
    rw [firstEq, programsEq]
    exact numbered.bound k before knownBefore
  · intro k other knownAfter
    obtain ⟨before, knownBefore, firstEq, programsEq, owners⟩ := cases knownAfter
    obtain ⟨j, p, numberEq, programEq, owner⟩ := numbered.place k before knownBefore
    rw [firstEq, programsEq]
    refine ⟨j, p, numberEq, programEq, ?_⟩
    intro q leftEq
    obtain ⟨q', leftBefore, ownerEq⟩ := owners q leftEq
    exact ownerEq.trans (owner q' leftBefore)
  · intro k other k' other' knownAfter knownAfter' counts
    obtain ⟨before, knownBefore, firstEq, programsEq, _⟩ := cases knownAfter
    obtain ⟨before', knownBefore', firstEq', programsEq', _⟩ := cases knownAfter'
    rw [Member.Counts, firstEq, programsEq] at counts
    rw [firstEq, programsEq, firstEq', programsEq']
    exact numbered.together k before k' before' knownBefore knownBefore' counts

/-- Who is not dropped keeps its number. -/
theorem dismiss (numbered : Numbered s) (member : Member σ ω) (shared : SharedWorld σ ω) :
    Numbered (s.dismiss member shared) := by
  constructor
  · exact fun k other known => numbered.bound k other ((members_dismiss _).mp known).1
  · exact fun k other known => numbered.place k other ((members_dismiss _).mp known).1
  · intro k other k' other' known known'
    exact numbered.together k other k' other' ((members_dismiss _).mp known).1
      ((members_dismiss _).mp known').1

end Numbered

end Crowd

end Courier
