import Courier.Proofs.Holdings.Cohort
import Courier.Script.Surroundings

/-!
# What handlers hold between calls

Loggers and notifiers take what they need out of the context anew in every invocation.  From one
call to the next, and from one invocation to the next, their instances are empty-handed, whatever
calls have been made before, however these have ended, and whatever has been changed in the
meantime; so each invocation is a session with what the context holds when it starts
(`empty_handed_between_calls`).
-/

namespace Courier

open Courier.Action

variable {σ τ ω : Type}

/-- Some instances are reserved: of all handlers only such ones engage them. -/
def Handlers.Reserve (who : InstanceId → Handler σ ω → Prop) (R : Set InstanceId)
    (handlers : Handlers σ ω) : Prop :=
  ∀ m, ∀ h ∈ handlers.registered m, ∀ i ∈ R, h.engages m = some i → who i h

/-- An invocation leaves the instances alone that it does not engage. -/
theorem Handler.instances_invoke {h : Handler σ ω} {m : Message} {i : InstanceId}
    (other : h.engages m ≠ some i) (x : Extra) (w : World σ ω) :
    (h.invoke m x w).state.instances i = w.instances i := by
  cases engaged : h.engages m with
  | none => exact congrFun (instances_of_not_engages engaged x w) i
  | some owner =>
      obtain ⟨accepted, lifecycle, behaviorEq⟩ := behavior_of_engages engaged
      rw [invoke_of_stateful x accepted behaviorEq]
      exact if_neg fun same => other (engaged.trans (congrArg some same.symm))

variable [AuditStores ω] [Mailers ω] {R : Set InstanceId}

/-! ## The blocking bus -/

/-- An invocation leaves reserved instances empty-handed, however it ends. -/
theorem Handler.invoke_leads {h : Handler (Holdings τ) ω} {m : Message}
    (reserved : ∀ i ∈ R, h.engages m = some i → h.Borrows i) (x : Extra) :
    (h.invoke m x).Leads (World.EmptyHanded R) (World.EmptyHanded R) := by
  intro w empty i mem
  by_cases engaged : h.engages m = some i
  · have accepted := (behavior_of_engages engaged).1
    exact ((reserved i mem engaged).session accepted x (empty i mem)).emptyHanded empty i mem
  · rw [instances_invoke engaged]
    exact empty i mem

namespace SyncBus.Request

/-- What becomes of reserved instances in a request.  They are empty-handed before and after every
invocation, and in the end; and an invocation that engages one of them is a session, however it
ends. -/
structure KeepsEmptyHanded (R : Set InstanceId) (r : Request (Holdings τ) ω)
    (w : World (Holdings τ) ω) : Prop where
  invocations : ∀ h m v, r.Invokes w h m v →
    v.EmptyHanded R ∧ (h.invoke m r.extra v).state.EmptyHanded R ∧
      ∀ i ∈ R, h.engages m = some i →
        v.Uses (Handler.Session i m v h (h.invoke m r.extra v).outcome)
          (h.invoke m r.extra v).state
  after : (r.after w).EmptyHanded R

theorem keepsEmptyHanded {r : Request (Holdings τ) ω}
    (reserved : r.handlers.Reserve Handler.Borrows R) {w : World (Holdings τ) ω}
    (empty : w.EmptyHanded R) : r.KeepsEmptyHanded R w := by
  have invoked : ∀ m, ∀ h ∈ r.handlers.registered m,
      (h.invoke m r.extra).Leads (World.EmptyHanded R) (World.EmptyHanded R) :=
    fun m h mem => Handler.invoke_leads (reserved m h mem) r.extra
  constructor
  · intro h m v invokes
    obtain ⟨before, after⟩ := invokes.upheld invoked empty
    refine ⟨before, after, ?_⟩
    intro i mem engaged
    have accepted := (Handler.behavior_of_engages engaged).1
    exact (reserved m h invokes.registered i mem engaged).session accepted r.extra (before i mem)
  · exact after_upholds invoked empty

end SyncBus.Request

/-! ## The suspending bus -/

namespace AsyncBus.Request

/-- What becomes of reserved instances in a request.  They are empty-handed in every cohort, and in
the end. -/
structure KeepsEmptyHanded (R : Set InstanceId) (r : Request (Holdings τ) ω)
    (w : World (Holdings τ) ω) : Prop where
  cohorts : ∀ m u, r.TurnBegins w m u →
    Cohort.KeepsEmptyHanded R (r.handlers.registered m) m r.extra u
  after : (r.after w).EmptyHanded R

theorem keepsEmptyHanded (prompt : PromptStores ω) {r : Request (Holdings τ) ω}
    (reserved : r.handlers.Reserve Handler.IsLogger R) {w : World (Holdings τ) ω}
    (empty : w.EmptyHanded R) : r.KeepsEmptyHanded R w := by
  have upholds : BusKind.suspending.Upholds (World.EmptyHanded R) r.handlers r.extra := by
    apply BusKind.upholds_suspending
    · intro budget m w empty
      exact (Cohort.upkeep prompt (reserved m)).run empty budget
    · intro w e empty
      exact empty
  constructor
  · intro m u begins
    exact Cohort.keepsEmptyHanded prompt (reserved m) (turn_upholds upholds begins empty)
  · exact after_upholds upholds empty

end AsyncBus.Request

/-! ## Histories -/

/-- Loggers and notifiers keep nothing between invocations.  Instances that are reserved for them,
and are empty-handed at first, are so after every history of requests and of changes of the context
and of what lies outside, however each request has ended; and in a further request each of their
invocations is a session with what the context holds at its own start.  On the suspending bus this
is so for loggers, if their stores answer at once, whatever other members of a cohort do.  In a
world that keeps a ledger the uses that a session makes are the very ones that are noted. -/
theorem empty_handed_between_calls (R : Set InstanceId) {w : World (Holdings τ) ω}
    (empty : w.EmptyHanded R) :
    (∀ history : List (Episode (SyncBus.Request (Holdings τ) ω) ω),
      (∀ r, .request r ∈ history → r.handlers.Reserve Handler.Borrows R) →
      (Episode.afterAll SyncBus.Request.after history w).EmptyHanded R ∧
        ∀ r : SyncBus.Request (Holdings τ) ω, r.handlers.Reserve Handler.Borrows R →
          r.KeepsEmptyHanded R (Episode.afterAll SyncBus.Request.after history w)) ∧
      (PromptStores ω → ∀ history : List (Episode (AsyncBus.Request (Holdings τ) ω) ω),
        (∀ r, .request r ∈ history → r.handlers.Reserve Handler.IsLogger R) →
        (Episode.afterAll AsyncBus.Request.after history w).EmptyHanded R ∧
          ∀ r : AsyncBus.Request (Holdings τ) ω, r.handlers.Reserve Handler.IsLogger R →
            r.KeepsEmptyHanded R (Episode.afterAll AsyncBus.Request.after history w)) ∧
      (∀ (uses : List Use) (l : Ledger ω),
        Use.afterAll uses l = ⟨Use.afterAll uses l.world, l.uses ++ uses⟩) ∧
      (PromptStores ω → PromptStores (Ledger ω)) := by
  have changed : ∀ (w : World (Holdings τ) ω) (context : Context) (outside : ω),
      w.EmptyHanded R → World.EmptyHanded R { w with context, outside } :=
    fun _ _ _ empty => empty
  refine ⟨?_, ?_, Use.afterAll_ledger, PromptStores.ledger⟩
  · intro history reserved
    have now := Episode.afterAll_upholds
      (fun r mem _ empty => (SyncBus.Request.keepsEmptyHanded (reserved r mem) empty).after)
      changed empty
    exact ⟨now, fun r reserved => SyncBus.Request.keepsEmptyHanded reserved now⟩
  · intro prompt history reserved
    have now := Episode.afterAll_upholds
      (fun r mem _ empty => (AsyncBus.Request.keepsEmptyHanded prompt (reserved r mem) empty).after)
      changed empty
    exact ⟨now, fun r reserved => AsyncBus.Request.keepsEmptyHanded prompt reserved now⟩

end Courier

/-! ## A reception

Who has forgotten a password gets a mail, and a row.  On the blocking bus there is no post, and the
second store crashes; on the suspending bus a porter crashes after the row has been written. -/

namespace Courier.Shop

/-- Two stores, of which the second crashes when it gets a row, and no post. -/
structure Desk

instance : AuditStores Desk where
  stamp := .done ⟨⟨0⟩, ⟨0, 0⟩⟩
  add id _ := if id = 1 then .crash "stuck" else .done (.ok ())
  commit _ := .done (.ok ())
  close _ := .done ()

instance : Mailers Desk where
  send _ _ := .done (.error (.rejected "no post"))

def forgotten : Event :=
  (Fact.passwordChangeRequestCreated "u" "i" "t" "u@localhost").toEvent

variable {ω : Type}

/-- What is registered for those who have forgotten a password. -/
def reception (handlers : List (Handler (Holdings Unit) ω)) : Handlers (Holdings Unit) ω :=
  Registry.empty.setEventHandlers forgotten.type handlers

theorem mem_of_reception {handlers : List (Handler (Holdings Unit) ω)} {m : Message}
    {h : Handler (Holdings Unit) ω} (mem : h ∈ (reception handlers).registered m) :
    h ∈ handlers := by
  cases m with
  | event e =>
      simp only [reception, Registry.registered, Registry.eventHandlers?_setEventHandlers] at mem
      split at mem
      · exact mem
      · exact absurd mem List.not_mem_nil
  | command c => exact absurd mem List.not_mem_nil

/-- A notifier and a logger. -/
def receptionists : List (Handler (Holdings Unit) (Ledger Desk)) :=
  [(Notifier.passwordChangeRequest 1 { emailEnabled := true }).named "notifier",
    AuditLogger.handler "logger" TypeName.store 0 ["token"] forgotten.type]

theorem receptionists_reserve : (reception receptionists).Reserve Handler.Borrows Set.univ := by
  intro m h mem i _ engaged
  have registered := mem_of_reception mem
  simp only [receptionists, List.mem_cons, List.not_mem_nil, or_false] at registered
  obtain ⟨_, lifecycle, behaviorEq⟩ := Handler.behavior_of_engages engaged
  rcases registered with rfl | rfl
  · cases behaviorEq
    exact .passwordChangeRequest _ _
  · cases behaviorEq
    exact .logger _ _ _ _

/-- A logger, and a porter that suspends and crashes. -/
def porterAndLogger : List (Handler (Holdings Unit) (Ledger Surroundings)) :=
  [⟨"porter", forgotten.type, .plain fun _ _ => .pause (.crash "broken")⟩,
    AuditLogger.handler "logger" TypeName.asyncStore 0 ["token"] forgotten.type]

theorem porterAndLogger_reserve :
    (reception porterAndLogger).Reserve Handler.IsLogger Set.univ := by
  intro m h mem i _ engaged
  have registered := mem_of_reception mem
  simp only [porterAndLogger, List.mem_cons, List.not_mem_nil, or_false] at registered
  obtain ⟨_, lifecycle, behaviorEq⟩ := Handler.behavior_of_engages engaged
  rcases registered with rfl | rfl
  · cases behaviorEq
  · cases behaviorEq
    exact ⟨_, _, _, _, rfl⟩

theorem promptStores : PromptStores Surroundings where
  stamp _ := ⟨_, _, rfl, rfl⟩
  add _ _ _ := ⟨_, _, rfl, rfl⟩
  commit _ _ := ⟨_, _, rfl, rfl⟩
  close _ _ := ⟨_, _, rfl, rfl⟩

/-- Provide a store, and a mailer. -/
def provide {ρ : Type} (type : TypeName) (id : StoreId) : Episode ρ ω :=
  .change (fun c => (c.put AuditLogger.storeKey ⟨type, .store id⟩ false).put Notifier.mailerKey
    ⟨TypeName.mailer, .mailer 0⟩ false) fun outside => outside

/-- Take the store away. -/
def withdraw {ρ : Type} : Episode ρ ω :=
  .change (·.remove AuditLogger.storeKey) fun outside => outside

def blockingCall : SyncBus.Request (Holdings Unit) (Ledger Desk) :=
  .message (reception receptionists) 3 (.event forgotten) ∅

def suspendingCall : AsyncBus.Request (Holdings Unit) (Ledger Surroundings) :=
  .message (reception porterAndLogger) 3 (.event forgotten) ∅

/-- A world with empty hands and an empty ledger. -/
def receptionOpening (outside : ω) : World (Holdings Unit) (Ledger ω) where
  context := Context.empty
  instances := fun _ => { memory := () }
  outside := { world := outside }

theorem receptionOpening_emptyHanded (outside : ω) :
    (receptionOpening outside).EmptyHanded Set.univ :=
  fun _ _ => ⟨rfl, rfl⟩

/-- A call with the first store, and one with the second; then there is no store. -/
def blockingDay : List (Episode (SyncBus.Request (Holdings Unit) (Ledger Desk)) (Ledger Desk)) :=
  [provide TypeName.store 0, .request blockingCall, provide TypeName.store 1,
    .request blockingCall, withdraw]

theorem blockingDay_reserve (r : SyncBus.Request (Holdings Unit) (Ledger Desk))
    (mem : .request r ∈ blockingDay) : r.handlers.Reserve Handler.Borrows Set.univ := by
  obtain rfl : r = blockingCall := by simpa [blockingDay, provide, withdraw] using mem
  exact receptionists_reserve

/-- A call with the first store; then there is no store. -/
def suspendingDay :
    List (Episode (AsyncBus.Request (Holdings Unit) (Ledger Surroundings)) (Ledger Surroundings)) :=
  [provide TypeName.asyncStore 0, .request suspendingCall, withdraw]

theorem suspendingDay_reserve (r : AsyncBus.Request (Holdings Unit) (Ledger Surroundings))
    (mem : .request r ∈ suspendingDay) : r.handlers.Reserve Handler.IsLogger Set.univ := by
  obtain rfl : r = suspendingCall := by simpa [suspendingDay, provide, withdraw] using mem
  exact porterAndLogger_reserve

/-- The world at the end of a day. -/
def blockingClosing : World (Holdings Unit) (Ledger Desk) :=
  Episode.afterAll SyncBus.Request.after blockingDay (receptionOpening ⟨⟩)

def suspendingClosing : World (Holdings Unit) (Ledger Surroundings) :=
  Episode.afterAll AsyncBus.Request.after suspendingDay (receptionOpening {})

end Courier.Shop

namespace Courier

open Courier.Shop

/-- Both stores have been closed, the second one in the call that crashed at it; and so has the
store of the logger beside the porter, who crashes in every call. -/
theorem empty_handed_between_calls_reception :
    (receptionOpening ⟨⟩ : World (Holdings Unit) (Ledger Desk)).EmptyHanded Set.univ ∧
      blockingClosing.EmptyHanded Set.univ ∧
      (blockingClosing.outside.uses.filter fun use =>
          use ∈ [.commit 0, .close 0, .commit 1, .close 1]) = [.commit 0, .close 0, .close 1] ∧
      blockingCall.KeepsEmptyHanded Set.univ blockingClosing ∧
      (∃ h v, blockingCall.Invokes blockingClosing h (.event forgotten) v ∧
        h.engages (.event forgotten) = some 0) ∧
      PromptStores (Ledger Surroundings) ∧
      suspendingClosing.EmptyHanded Set.univ ∧
      (suspendingClosing.outside.uses.filter fun use => use = .close 0) = [.close 0] ∧
      (suspendingCall.serve ⟨suspendingClosing, Locks.free⟩).outcome = .crashed "broken" ∧
      suspendingCall.KeepsEmptyHanded Set.univ suspendingClosing := by
  have opening := receptionOpening_emptyHanded (⟨⟩ : Desk)
  have prompt := promptStores.ledger
  obtain ⟨blocking, _⟩ := empty_handed_between_calls Set.univ opening
  obtain ⟨_, suspending, _⟩ :=
    empty_handed_between_calls Set.univ (receptionOpening_emptyHanded ({} : Surroundings))
  obtain ⟨blockingEmpty, blockingKeeps⟩ := blocking blockingDay blockingDay_reserve
  obtain ⟨suspendingEmpty, suspendingKeeps⟩ :=
    suspending prompt suspendingDay suspendingDay_reserve
  refine ⟨opening, blockingEmpty, rfl, blockingKeeps blockingCall receptionists_reserve, ?_, prompt,
    suspendingEmpty, rfl, rfl, suspendingKeeps suspendingCall porterAndLogger_reserve⟩
  -- The notifier has been refused by the mailer when it is the logger's turn.
  have served : Handler.InTurn ∅ (.event forgotten) (receptionists.take 1) blockingClosing _ _ :=
    .next ⟨rfl, rfl⟩ .nobody
  exact ⟨_, _, ⟨blockingClosing, _, [], _, ⟨[], [], .nothing⟩, rfl, served⟩, rfl⟩

end Courier
