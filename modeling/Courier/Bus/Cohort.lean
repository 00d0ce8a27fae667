import Courier.Handler.Basic

/-!
# Cohorts

The handlers of one event run as a cohort: round after round each of them, in
registration order, is resumed until it suspends again or ends.  A stateful
instance is locked for the whole of an invocation, hooks included; whoever finds
it locked joins the waiting line and gets the lock when all before it are done.

A crash of one member drops the whole cohort where it stands.
-/

namespace Courier

/-- The lock of an instance: the member that holds it, and those that wait for
it, first come first. -/
structure Lock where
  holder : Option Nat := none
  waiting : List Nat := []
deriving DecidableEq, Repr, Inhabited

namespace Lock

/-- Whether nobody holds the lock or waits for it. -/
def isFree (l : Lock) : Bool :=
  l.holder.isNone && l.waiting.isEmpty

/-- Take the lock if it is free, and join the line otherwise. -/
def request (l : Lock) (member : Nat) : Lock :=
  if l.isFree then ⟨some member, []⟩ else ⟨l.holder, l.waiting ++ [member]⟩

/-- Hand the lock to the first in the line. -/
def release (l : Lock) : Lock :=
  match l.waiting with
  | [] => ⟨none, []⟩
  | member :: rest => ⟨some member, rest⟩

/-- Take a member out of the line, or the lock out of its hands. -/
def forget (l : Lock) (member : Nat) : Lock :=
  let l := { l with waiting := l.waiting.filter fun other => other ≠ member }
  if l.holder = some member then l.release else l

end Lock

/-- The locks of all instances. -/
abbrev Locks : Type :=
  InstanceId → Lock

/-- No instance is locked. -/
def Locks.free : Locks := fun _ => {}

/-- Change the lock of one instance. -/
def Locks.update (locks : Locks) (i : InstanceId) (change : Lock → Lock) : Locks :=
  fun j => if j = i then change (locks j) else locks j

/-- The world and the locks of its instances. -/
structure SharedWorld (σ ω : Type) where
  world : World σ ω
  locks : Locks

namespace SharedWorld

variable {σ ω : Type}

/-- The same world with changed locks. -/
def mapLocks (w : SharedWorld σ ω) (change : Locks → Locks) : SharedWorld σ ω :=
  { w with locks := change w.locks }

/-- The same locks around another world. -/
def putWorld (world : World σ ω) (w : SharedWorld σ ω) : SharedWorld σ ω :=
  { w with world := world }

end SharedWorld

/-- What is left of an invocation. -/
inductive Program (σ ω : Type) where
  /-- An invocation of a stateful instance. -/
  | owned (owner : InstanceId) (rest : Proc (View σ ω) Invocation)
  /-- An invocation of a plain handler. -/
  | free (rest : Proc (View Unit ω) Invocation)

namespace Program

variable {σ ω : Type}

/-- The instance that has to be locked. -/
def owner? : Program σ ω → Option InstanceId
  | owned owner _ => some owner
  | free _ => none

/-- Run up to the next suspension or the end. -/
def advance : Program σ ω → Action (World σ ω) (Program σ ω ⊕ Invocation)
  | owned owner rest =>
      (do
        match ← rest.advance with
        | .inl rest => return .inl (owned owner rest)
        | .inr invocation => return .inr invocation :
        Action (View σ ω) (Program σ ω ⊕ Invocation)).within
        (World.view owner) (World.putView owner)
  | free rest =>
      (do
        match ← rest.advance with
        | .inl rest => return .inl (free rest)
        | .inr invocation => return .inr invocation :
        Action (View Unit ω) (Program σ ω ⊕ Invocation)).within
        World.plainView World.putPlainView

end Program

/-- One invocation that may suspend. -/
def Handler.program {σ ω : Type} (h : Handler σ ω) (m : Message) (x : Extra) : Program σ ω :=
  if m.type ≠ h.accepts then .free (.done (.mismatch h.accepts m))
  else
    match h.behavior with
    | .stateful owner lifecycle => .owned owner (lifecycle.procedure m x)
    | .plain routine => .free (do return ⟨← routine m x, []⟩)

/-- Where a member of a cohort stands. -/
inductive Task (σ ω : Type) where
  /-- It has not been resumed yet. -/
  | fresh (program : Program σ ω)
  /-- It waits for the lock of its instance. -/
  | queued (program : Program σ ω)
  /-- It has suspended, and holds the lock of its instance. -/
  | active (program : Program σ ω)
  /-- It has ended. -/
  | settled (invocation : Invocation)

namespace Task

variable {σ ω : Type}

/-- Run a member that holds its lock; at its end the lock is released. -/
def proceed (program : Program σ ω) : Action (SharedWorld σ ω) (Task σ ω) := do
  match ← program.advance.within SharedWorld.world SharedWorld.putWorld with
  | .inl rest => return active rest
  | .inr invocation =>
      match program.owner? with
      | some owner => Action.modify fun w => w.mapLocks fun locks => locks.update owner Lock.release
      | none => pure ()
      return settled invocation

/-- Resume a member if it holds its lock. -/
def proceedIfHeld (member : Nat) (program : Program σ ω) :
    Action (SharedWorld σ ω) (Task σ ω) := do
  match program.owner? with
  | none => proceed program
  | some owner =>
      if ((← Action.get).locks owner).holder = some member then proceed program
      else return queued program

/-- Resume a member. -/
def resume (member : Nat) : Task σ ω → Action (SharedWorld σ ω) (Task σ ω)
  | fresh program => do
      match program.owner? with
      | some owner =>
          Action.modify fun w =>
            w.mapLocks fun locks => locks.update owner fun l => l.request member
      | none => pure ()
      proceedIfHeld member program
  | queued program => proceedIfHeld member program
  | active program => proceed program
  | settled invocation => return settled invocation

/-- The invocation of a member that has ended. -/
def invocation? : Task σ ω → Option Invocation
  | settled invocation => some invocation
  | _ => none

end Task

namespace Cohort

variable {σ ω : Type}

/-- Resume each member once, in order; `member` is the number of the first. -/
def round : (member : Nat) → List (Task σ ω) → Action (SharedWorld σ ω) (List (Task σ ω))
  | _, [] => pure []
  | member, task :: rest => do
      let task ← task.resume member
      return task :: (← round (member + 1) rest)

/-- The invocations of all members, if all have ended. -/
def invocations? (tasks : List (Task σ ω)) : Option (List Invocation) :=
  tasks.mapM Task.invocation?

/-- Run round after round until all members have ended; `budget` bounds the
number of rounds. -/
def rounds : (budget : Nat) → List (Task σ ω) → Action (SharedWorld σ ω) (List Invocation)
  | 0, tasks =>
      match invocations? tasks with
      | some invocations => pure invocations
      | none => Action.cutOff
  | budget + 1, tasks =>
      match invocations? tasks with
      | some invocations => pure invocations
      | none => do rounds budget (← round 0 tasks)

/-- The locks after the members of a cohort are dropped; `member` is the number
of the first. -/
def drop : (member : Nat) → List (Program σ ω) → Locks → Locks
  | _, [], locks => locks
  | member, program :: rest, locks =>
      let locks :=
        match program.owner? with
        | some owner => locks.update owner fun l => l.forget member
        | none => locks
      drop (member + 1) rest locks

/-- Run a cohort to its end; the invocations come in registration order. -/
def run (budget : Nat) (handlers : List (Handler σ ω)) (m : Message) (x : Extra) :
    Action (SharedWorld σ ω) (List Invocation) :=
  let programs := handlers.map fun h => h.program m x
  (rounds budget (programs.map .fresh)).onCrash fun w => w.mapLocks (drop 0 programs)

end Cohort

end Courier
