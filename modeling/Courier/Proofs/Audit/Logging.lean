import Courier.Proofs.Audit.Writing
import Courier.Proofs.Bus.Sync
import Courier.Script.Surroundings
import Mathlib.Data.List.Forall2

/-!
# The audit log of a call

The handlers of a bus are audit loggers and others, which leave the store and its entry
in the context alone.  A call on such a bus leaves behind, in the order of its turns and
within a turn in registration order, one row for each logger that has had an event with a
serialized form, and nothing else.

This holds of every call that returns, with results or with an error: what one handler
does to the log (`Registration.exists_records`) goes over to turns, and from turns to calls.
-/

namespace Courier

open Courier.Action Courier.Progress

variable {τ ω : Type}

/-- What is registered for events of a type. -/
inductive Registration (τ ω : Type) where
  | logger (name : String) (owner : InstanceId) (redacted : List String)
  | other (h : Handler (Holdings τ) ω)

namespace Registration

/-- The handler that is registered. -/
def handler [AuditStores ω] (type : MessageType) : Registration τ ω → Handler (Holdings τ) ω
  | logger name owner redacted => AuditLogger.handler name TypeName.store owner redacted type
  | other h => h

def isLogger : Registration τ ω → Bool
  | logger _ _ _ => true
  | other _ => false

/-- The rows that the loggers of an event write when it has its turn. -/
inductive Records (x : Extra) (e : Event) :
    List (Registration τ ω) → List (String × Invocation) → List Row → Prop
  | nobody : Records x e [] [] []
  | logger {name : String} {owner : InstanceId} {redacted : List String}
      {rest : List (Registration τ ω)} {invocation : Invocation}
      {invocations : List (String × Invocation)} {written rows : List Row} :
      AuditLogger.Writes redacted e x invocation written → Records x e rest invocations rows →
      Records x e (.logger name owner redacted :: rest) ((name, invocation) :: invocations)
        (written ++ rows)
  | other {h : Handler (Holdings τ) ω} {rest : List (Registration τ ω)} {invocation : Invocation}
      {invocations : List (String × Invocation)} {rows : List Row} :
      Records x e rest invocations rows →
      Records x e (.other h :: rest) ((h.name, invocation) :: invocations) rows

end Registration

/-- The handler leaves the store and its entry in the context alone. -/
def Handler.Spares {σ : Type} (log? : ω → Option RowStore) (h : Handler σ ω) : Prop :=
  ∀ m x w invocation w', (h.invoke m x).Returns w invocation w' →
    w'.context.at? AuditLogger.storeKey = w.context.at? AuditLogger.storeKey ∧
      log? w'.outside = log? w.outside

/-- The context has the store under its key, and the store has committed these rows, has
nothing staged, and has been closed so often. -/
structure World.Logged {σ : Type} (id : StoreId) (log? : ω → Option RowStore) (rows : List Row)
    (closes : Nat) (w : World σ ω) : Prop where
  entry : ∃ callScoped, w.context.at? AuditLogger.storeKey =
    some ⟨⟨TypeName.store, .store id⟩, callScoped⟩
  shown : log? w.outside = some ⟨[], rows, closes⟩

theorem Handler.Spares.logged {σ : Type} {id : StoreId} {log? : ω → Option RowStore}
    {h : Handler σ ω} (spares : h.Spares log?) {rows : List Row} {closes : Nat} {w w' : World σ ω}
    (logged : w.Logged id log? rows closes) {m : Message} {x : Extra} {invocation : Invocation}
    (invoked : (h.invoke m x).Returns w invocation w') : w'.Logged id log? rows closes := by
  obtain ⟨entryEq, shownEq⟩ := spares m x w invocation w' invoked
  exact ⟨entryEq ▸ logged.entry, shownEq.trans logged.shown⟩

variable [AuditStores ω]

/-- The registrations of a bus, with loggers and others told apart. -/
structure Listing (handlers : Handlers (Holdings τ) ω) (log? : ω → Option RowStore) where
  registrations : MessageType → List (Registration τ ω)
  registered : ∀ e, handlers.registered (.event e) = (registrations e.type).map (·.handler e.type)
  eventsSpare : ∀ type h, .other h ∈ registrations type → h.Spares log?
  commandsSpare : ∀ c, ∀ h ∈ handlers.registered (.command c), h.Spares log?

variable {id : StoreId} {log? : ω → Option RowStore} {rows : List Row} {closes : Nat}
  {w w' : World (Holdings τ) ω} {x : Extra}

/-! ## Handler by handler -/

/-- In the turn of an event every logger writes its rows behind those of the loggers
before it. -/
theorem Registration.exists_records (inMemory : InMemory id log?) {e : Event}
    {registrations : List (Registration τ ω)} {invocations : List (String × Invocation)}
    (spare : ∀ h, .other h ∈ registrations → h.Spares log?) (logged : w.Logged id log? rows closes)
    (served : Handler.InTurn x (.event e) (registrations.map (·.handler e.type)) w invocations w') :
    ∃ written, Records x e registrations invocations written ∧
      w'.Logged id log? (rows ++ written)
        (closes + (registrations.filter (·.isLogger)).length) := by
  induction registrations generalizing rows closes w invocations with
  | nil =>
      rcases (Handler.inTurn_nil_iff x _ w w' invocations).mp served with ⟨rfl, rfl⟩
      exact ⟨[], .nobody, by simpa using logged⟩
  | cons r rest ih =>
      rw [List.map_cons, Handler.inTurn_cons_iff] at served
      obtain ⟨invocation, middle, others, invoked, servedRest, rfl⟩ := served
      have spareRest : ∀ h, .other h ∈ rest → h.Spares log? :=
        fun h mem => spare h (List.mem_cons_of_mem _ mem)
      cases r with
      | other h =>
          have loggedMiddle := (spare h List.mem_cons_self).logged logged invoked
          obtain ⟨written, records, loggedAfter⟩ := ih spareRest loggedMiddle servedRest
          exact ⟨written, .other records, by simpa [isLogger] using loggedAfter⟩
      | logger name owner redacted =>
          obtain ⟨callScoped, entry⟩ := logged.entry
          obtain ⟨expected, first, after, writes, returned, contextEq, shownAfter⟩ :=
            AuditLogger.handler_invoke_returns (x := x) inMemory name owner entry logged.shown rfl
          obtain ⟨rfl, rfl⟩ := invoked.unique returned
          have loggedMiddle : middle.Logged id log? (rows ++ first) (closes + 1) :=
            ⟨⟨callScoped, contextEq ▸ entry⟩, shownAfter⟩
          obtain ⟨written, records, loggedAfter⟩ := ih spareRest loggedMiddle servedRest
          refine ⟨first ++ written, .logger writes records, ?_⟩
          simpa [isLogger, Nat.add_assoc, Nat.add_comm 1] using loggedAfter

namespace Listing

variable {handlers : Handlers (Holdings τ) ω}

/-- The rows that a turn writes. -/
inductive Logs (listing : Listing handlers log?) (x : Extra) : Turn → List Row → Prop
  | event {e : Event} {invocations : List (String × Invocation)} {rows : List Row} :
      Registration.Records x e (listing.registrations e.type) invocations rows →
      Logs listing x ⟨.event e, invocations⟩ rows
  | command {c : Command} {invocations : List (String × Invocation)} :
      Logs listing x ⟨.command c, invocations⟩ []

/-- The loggers that a message has. -/
def loggers (listing : Listing handlers log?) : Message → List (Registration τ ω)
  | .event e => (listing.registrations e.type).filter (·.isLogger)
  | .command _ => []

/-- The handler of a command writes no rows. -/
theorem logged_command (listing : Listing handlers log?) {c : Command}
    {invocations : List (String × Invocation)} (logged : w.Logged id log? rows closes)
    (served : Handler.InTurn x (.command c) (handlers.registered (.command c)) w invocations w') :
    w'.Logged id log? rows closes := by
  have spare := listing.commandsSpare c
  generalize handlers.registered (.command c) = registered at served spare
  induction served with
  | nobody => exact logged
  | next invoked _ ih =>
      exact ih ((spare _ List.mem_cons_self).logged logged invoked)
        (fun h mem => spare h (List.mem_cons_of_mem _ mem))

theorem exists_logs (listing : Listing handlers log?) (inMemory : InMemory id log?) {m : Message}
    {invocations : List (String × Invocation)} (logged : w.Logged id log? rows closes)
    (served : Handler.InTurn x m (handlers.registered m) w invocations w') :
    ∃ written, listing.Logs x ⟨m, invocations⟩ written ∧
      w'.Logged id log? (rows ++ written) (closes + (listing.loggers m).length) := by
  cases m with
  | event e =>
      rw [listing.registered e] at served
      obtain ⟨written, records, loggedAfter⟩ :=
        Registration.exists_records inMemory (listing.eventsSpare e.type) logged served
      exact ⟨written, .event records, loggedAfter⟩
  | command c =>
      have loggedAfter := listing.logged_command logged served
      exact ⟨[], .command, by simpa [loggers] using loggedAfter⟩

/-! ## Turn by turn -/

/-- Turns that follow each other write their rows one behind the other. -/
theorem exists_logs_of_performs (listing : Listing handlers log?) (inMemory : InMemory id log?)
    {turns : List Turn} (logged : w.Logged id log? rows closes)
    (performed : Performs (fun m => Handler.InTurn x m (handlers.registered m)) w turns w') :
    ∃ written : List (List Row), List.Forall₂ (listing.Logs x) turns written ∧
      w'.Logged id log? (rows ++ written.flatten)
        (closes + (turns.flatMap fun turn => listing.loggers turn.message).length) := by
  induction performed generalizing rows closes with
  | nothing => exact ⟨[], .nil, by simpa using logged⟩
  | turn served _ ih =>
      obtain ⟨first, logs, loggedMiddle⟩ := listing.exists_logs inMemory logged served
      obtain ⟨written, logsRest, loggedAfter⟩ := ih loggedMiddle
      exact ⟨first :: written, .cons logs logsRest, by simpa [Nat.add_assoc] using loggedAfter⟩

/-- A call that returns, with results or with an error, has written the rows of its turns
in their order, and nothing else.  It leaves nothing staged, and has closed the store once
for each invocation of a logger. -/
theorem handle_logs (listing : Listing handlers log?) (inMemory : InMemory id log?) (budget : Nat)
    (m : Message) (x : Extra) (rows : List Row) (closes : Nat) (w w' : World (Holdings τ) ω)
    (r : CallResult) (logged : w.Logged id log? rows closes)
    (returned : (SyncBus.handle handlers budget m x).Returns w r w') :
    ∃ (turns : List Turn) (written : List (List Row)),
      SyncBus.Call handlers m x w (turns.map (·.message)) r w' ∧
        Performs (fun m => Handler.InTurn x m (handlers.registered m)) w turns w' ∧
        List.Forall₂ (listing.Logs x) turns written ∧
        w'.Logged id log? (rows ++ written.flatten)
          (closes + (turns.flatMap fun turn => listing.loggers turn.message).length) := by
  obtain ⟨taken, _, drained⟩ := (SyncBus.handle_returns_iff handlers budget m x w w' r).mp returned
  obtain ⟨turns, rfl, performed, _⟩ :=
    drained.fifo fun dispatched => (SyncBus.dispatch_returns_iff handlers x _ _ _ _ _).mp dispatched
  obtain ⟨written, logs, loggedAfter⟩ := listing.exists_logs_of_performs inMemory logged performed
  exact ⟨turns, written, ⟨budget, returned, drained⟩, performed, logs, loggedAfter⟩

end Listing

end Courier

/-! ## Stores that refuse nothing -/

namespace Courier.Surroundings

/-- What a store holds, if it refuses nothing. -/
def log? (id : StoreId) (s : Surroundings) : Option RowStore :=
  (s.stores[id]?.filter fun store => store.refusedAdds.isEmpty && store.refusedCommits.isEmpty).map
    (·.rows)

theorem log?_eq_some_iff (id : StoreId) (s : Surroundings) (log : RowStore) :
    s.log? id = some log ↔ ∃ store, s.stores[id]? = some store ∧ store.refusedAdds = [] ∧
      store.refusedCommits = [] ∧ store.rows = log := by
  simp [log?, Option.map_eq_some_iff, Option.filter_eq_some_iff, and_assoc]

theorem store_eq {id : StoreId} {s : Surroundings} {store : PlannedStore}
    (found : s.stores[id]? = some store) : s.store id = store := by
  rw [Surroundings.store, found, Option.getD_some]

/-- A store that refuses nothing may be put in the place of another. -/
theorem log?_putStore {id : StoreId} {s : Surroundings} {store : PlannedStore}
    (found : s.stores[id]?.isSome) (noAdds : store.refusedAdds = [])
    (noCommits : store.refusedCommits = []) : (s.putStore id store).log? id = some store.rows := by
  rw [log?_eq_some_iff]
  have there : id < s.stores.length := by simpa using found
  exact ⟨store, List.getElem?_set_self there, noAdds, noCommits, rfl⟩

/-- Such a store keeps its rows in memory. -/
theorem inMemory (id : StoreId) : InMemory id (log? id) where
  stamp {s log} shown := ⟨s.nextStamp, { s with stamps := s.stamps + 1 }, ⟨rfl, rfl⟩, shown⟩
  add {s log} row shown := by
    obtain ⟨store, found, noAdds, noCommits, rfl⟩ := (log?_eq_some_iff id s log).mp shown
    have added : (s.store id).add row =
        (.ok (), { store with adds := store.adds + 1, rows := store.rows.add row }) := by
      rw [store_eq found]
      simp [PlannedStore.add, noAdds]
    refine ⟨s.putStore id ((s.store id).add row).2, ⟨?_, rfl⟩, ?_⟩
    · show Outcome.returned ((s.store id).add row).1 = _
      rw [added]
    · rw [added]
      exact log?_putStore (by simp [found]) noAdds noCommits
  commit {s log} shown := by
    obtain ⟨store, found, noAdds, noCommits, rfl⟩ := (log?_eq_some_iff id s log).mp shown
    have committed : (s.store id).commit =
        (.ok (), { store with commits := store.commits + 1, rows := store.rows.commit }) := by
      rw [store_eq found]
      simp [PlannedStore.commit, noCommits]
    refine ⟨s.putStore id (s.store id).commit.2, ⟨?_, rfl⟩, ?_⟩
    · show Outcome.returned (s.store id).commit.1 = _
      rw [committed]
    · rw [committed]
      exact log?_putStore (by simp [found]) noAdds noCommits
  close {s log} shown := by
    obtain ⟨store, found, noAdds, noCommits, rfl⟩ := (log?_eq_some_iff id s log).mp shown
    refine ⟨s.putStore id (s.store id).close, ⟨rfl, rfl⟩, ?_⟩
    rw [store_eq found]
    exact log?_putStore (by simp [found]) noAdds noCommits

end Courier.Surroundings

/-! ## A counter

Who enrolls is greeted.  Both events have a logger, but the greeting has no serialized
form. -/

namespace Courier.Shop

def enrolled : Event :=
  ⟨⟨"shop::Enrolled", "Enrolled"⟩, .ok (.object [("token", .string "t"), ("user_id", .string "u")])⟩

def greeted : Event := ⟨⟨"shop::Greeted", "Greeted"⟩, .error "spoken"⟩

def greeter : Handler (Holdings Unit) Surroundings where
  name := "greeter"
  accepts := enrolled.type
  behavior := .stateful 1
    { before := .done (.ok ())
      core := fun _ _ => .done ⟨.ok .unit, [.event greeted]⟩
      after := .done () }

theorem greeter_spares (id : StoreId) : greeter.Spares (Surroundings.log? id) := by
  intro m x w invocation w' returned
  unfold Handler.invoke at returned
  split at returned
  · rcases returned with ⟨_, rfl⟩
    exact ⟨rfl, rfl⟩
  · rcases returned with ⟨_, rfl⟩
    exact ⟨rfl, rfl⟩

/-- What is registered for events of a type. -/
def counterRegistrations (type : MessageType) : List (Registration Unit Surroundings) :=
  if type = greeted.type then [.logger "EventsLogger" 2 []]
  else if type = enrolled.type then [.logger "EventsLogger" 0 ["token"], .other greeter]
  else []

def counter : Handlers (Holdings Unit) Surroundings :=
  (Registry.empty.setEventHandlers enrolled.type
      ((counterRegistrations enrolled.type).map (·.handler enrolled.type))).setEventHandlers
    greeted.type ((counterRegistrations greeted.type).map (·.handler greeted.type))

def counterListing : Listing counter (Surroundings.log? 0) where
  registrations := counterRegistrations
  registered := by
    intro e
    simp only [counter, Registry.registered, Registry.eventHandlers?, Registry.setEventHandlers,
      Table.get?_insert]
    by_cases isGreeted : e.type = greeted.type
    · rw [if_pos isGreeted, isGreeted, Option.getD_some]
    · rw [if_neg isGreeted]
      by_cases isEnrolled : e.type = enrolled.type
      · rw [if_pos isEnrolled, isEnrolled, Option.getD_some]
      · rw [if_neg isEnrolled, counterRegistrations, if_neg isGreeted, if_neg isEnrolled]
        rfl
  eventsSpare := by
    intro type h mem
    unfold counterRegistrations at mem
    split at mem
    · simp at mem
    · split at mem
      · obtain rfl : h = greeter := by simpa using mem
        exact greeter_spares 0
      · simp at mem
  commandsSpare := by
    intro c h registered
    exact absurd registered List.not_mem_nil

/-- The counter before anybody enrolls. -/
def counterOpening : World (Holdings Unit) Surroundings where
  context := Context.empty.put AuditLogger.storeKey ⟨TypeName.store, .store 0⟩ false
  instances := fun _ => { memory := () }
  outside := {}

end Courier.Shop

namespace Courier.Listing

open Courier.Progress

/-- Who enrolls leaves one row, with the token masked. -/
theorem handle_logs_enrolled :
    ∃ r w', (SyncBus.handle Shop.counter 2 (.event Shop.enrolled) ∅).Returns Shop.counterOpening r
        w' ∧
      (w'.outside.log? 0).map (·.committed.map (·.event)) =
        some [.object [("token", Redaction.mask), ("user_id", .string "u")]] ∧
      ∃ (turns : List Turn) (written : List (List Row)),
        SyncBus.Call Shop.counter (.event Shop.enrolled) ∅ Shop.counterOpening
          (turns.map (·.message)) r w' ∧
        Performs (fun m => Handler.InTurn ∅ m (Shop.counter.registered m)) Shop.counterOpening
          turns w' ∧
        List.Forall₂ (Shop.counterListing.Logs ∅) turns written ∧
        w'.Logged 0 (Surroundings.log? 0) ([] ++ written.flatten)
          (0 + (turns.flatMap fun turn => Shop.counterListing.loggers turn.message).length) := by
  have logged : Shop.counterOpening.Logged 0 (Surroundings.log? 0) [] 0 := ⟨⟨false, rfl⟩, rfl⟩
  have returned : (SyncBus.handle Shop.counter 2 (.event Shop.enrolled) ∅).Returns
      Shop.counterOpening (.ok _) _ := ⟨rfl, rfl⟩
  exact ⟨_, _, returned, rfl, handle_logs Shop.counterListing (Surroundings.inMemory 0) 2
    (.event Shop.enrolled) ∅ [] 0 Shop.counterOpening _ _ logged returned⟩

end Courier.Listing
