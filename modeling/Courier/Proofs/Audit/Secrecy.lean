import Courier.Proofs.Audit.Logging
import Courier.Proofs.Audit.Masking
import Courier.Proofs.Bus.Prompt

/-!
# Two audit logs

Two buses have nothing but loggers for their events, with the same masked fields, and get
events that differ in these fields only.  What they leave in their stores is the same row
by row, but for numbers and times.

The two runs are not compared step by step.  What one run leaves is determined, row by
row, by the masked events (`LoggerBus.exists_calls`), and this is the same for both.
-/

namespace Courier

open Courier.Action Courier.Progress

/-- Lists of which corresponding parts are of one length, and of which all members of
corresponding parts are related, are related member by member. -/
theorem forall₂_flatten_of_forall_mem {α β : Type} {R : α → β → Prop} {parts : List (List α)}
    {parts' : List (List β)}
    (related : List.Forall₂ (fun part part' => ∀ a ∈ part, ∀ b ∈ part', R a b) parts parts')
    (sameLengths : parts.map List.length = parts'.map List.length) :
    List.Forall₂ R parts.flatten parts'.flatten := by
  induction related with
  | nil => exact .nil
  | @cons part part' _ _ partRelated _ ih =>
      rw [List.map_cons, List.map_cons, List.cons.injEq] at sameLengths
      apply List.rel_append _ (ih sameLengths.2)
      apply List.forall₂_iff_get.mpr
      refine ⟨sameLengths.1, ?_⟩
      intro i bound bound'
      exact partRelated _ (List.get_mem part ⟨i, bound⟩) _ (List.get_mem part' ⟨i, bound'⟩)

/-- Which store a logger gets out of the context, if it gets one. -/
def Context.storeFor? (c : Context) (type : TypeName) : Option StoreId :=
  match c.require AuditLogger.storeKey type with
  | .ok ⟨_, .store id⟩ => some id
  | _ => none

namespace RowStore

/-- What one invocation of a logger makes of a store. -/
def enter (s : RowStore) (row : Row) : RowStore :=
  ((s.add row).commit).close

/-- Two stores hold the same rows, but for numbers and times. -/
structure Alike (s s' : RowStore) : Prop where
  staged : List.Forall₂ Row.Alike s.staged s'.staged
  committed : List.Forall₂ Row.Alike s.committed s'.committed

theorem Alike.enter {s s' : RowStore} (alike : s.Alike s') {row row' : Row}
    (rowsAlike : row.Alike row') : (s.enter row).Alike (s'.enter row') where
  staged := .nil
  committed := List.rel_append alike.committed (List.rel_append alike.staged (.cons rowsAlike .nil))

theorem Alike.foldl_enter {s s' : RowStore} (alike : s.Alike s') {rows rows' : List Row}
    (rowsAlike : List.Forall₂ Row.Alike rows rows') :
    (rows.foldl RowStore.enter s).Alike (rows'.foldl RowStore.enter s') := by
  induction rowsAlike generalizing s s' with
  | nil => exact alike
  | cons first _ ih => exact ih (alike.enter first)

end RowStore

variable {τ ω : Type}

/-- What is asked of a store it does without suspending. -/
structure PromptStore (ω : Type) [AuditStores ω] (id : StoreId) : Prop where
  stamp : (AuditStores.stamp : Proc ω Stamp).unpaused = AuditStores.stamp
  add : ∀ row, (AuditStores.add id row : Proc ω _).unpaused = AuditStores.add id row
  commit : (AuditStores.commit id : Proc ω _).unpaused = AuditStores.commit id
  close : (AuditStores.close id : Proc ω _).unpaused = AuditStores.close id

/-- A handler that does not suspend does on the world outside what it can do there. -/
theorem View.outer_advances {σ α : Type} {p : Proc ω α} (unpaused : p.unpaused = p) {v : View σ ω}
    {a : α} {outside' : ω} (returned : p.run.Returns v.outside a outside') :
    (outer p).advance.Returns v (.inr a) (v.putOutside outside') :=
  Proc.advance_within isPart_outside (Proc.advance_of_run unpaused returned)

namespace AuditLogger

/-! ## One logger -/

variable {id : StoreId} {v : View (Holdings τ) ω}

theorem acquire_advances {type : TypeName} (found : v.context.storeFor? type = some id) :
    (acquire type).advance.Returns v (.inr (.ok ())) (v.holdStore (some id)) := by
  refine Proc.advance_bind ⟨rfl, rfl⟩ ?_
  unfold Context.storeFor? at found
  split at found
  case h_1 stored requireEq =>
    obtain rfl := Option.some.inj found
    rw [requireEq]
    exact ⟨rfl, rfl⟩
  case h_2 => contradiction

theorem acquire_fails {type : TypeName} (missing : v.context.storeFor? type = none) :
    ∃ error, (acquire type).advance.Returns v (.inr (.error error)) v := by
  cases requireEq : v.context.require storeKey type with
  | error e =>
      refine ⟨.context e, Proc.advance_bind ⟨rfl, rfl⟩ ?_⟩
      rw [requireEq]
      exact ⟨rfl, rfl⟩
  | ok value =>
      refine ⟨.context (.missing storeKey), Proc.advance_bind ⟨rfl, rfl⟩ ?_⟩
      rcases value with ⟨valueType, content⟩
      cases content with
      | store id => simp [Context.storeFor?, requireEq] at missing
      | _ =>
          rw [requireEq]
          exact ⟨rfl, rfl⟩

variable [AuditStores ω] {log? : ω → Option RowStore} {log : RowStore} {e : Event}
  {payload : Json} (redacted : List String) (x : Extra)

theorem store_advances (inMemory : InMemory id log?) (prompt : PromptStore ω id)
    (shown : log? v.outside = some log) (row : Row) :
    ∃ outside', (store id row).advance.Returns v (.inr (.ok (written row)))
        (v.putOutside outside') ∧
      log? outside' = some (log.add row).commit := by
  obtain ⟨between, added, shownBetween⟩ := inMemory.add row shown
  obtain ⟨outside', committed, shownAfter⟩ := inMemory.commit shownBetween
  refine ⟨outside', ?_, shownAfter⟩
  apply Proc.advance_bind (View.outer_advances (prompt.add row) added)
  apply Proc.advance_bind
    (View.outer_advances (v := v.putOutside between) prompt.commit committed)
  exact ⟨rfl, rfl⟩

/-- The row of an event that has a serialized form comes to the store. -/
theorem write_advances (inMemory : InMemory id log?) (prompt : PromptStore ω id)
    (shown : log? v.outside = some log) (held : v.own.store = some id)
    (serialized : e.payload = .ok payload) :
    ∃ row outside', row.Reports redacted e payload x ∧
      (write redacted e x).advance.Returns v (.inr (.ok (written row))) (v.putOutside outside') ∧
      log? outside' = some (log.add row).commit := by
  obtain ⟨stamp, between, stamped, shownBetween⟩ := inMemory.stamp shown
  obtain ⟨row, recorded, reports⟩ := Row.record_eq_ok stamp serialized redacted x
  obtain ⟨outside', stored, shownAfter⟩ :=
    store_advances (v := v.putOutside between) inMemory prompt shownBetween (row.withExtra x)
  refine ⟨row.withExtra x, outside', reports, ?_, shownAfter⟩
  refine Proc.advance_bind ⟨rfl, rfl⟩ ?_
  rw [held]
  apply Proc.advance_bind (View.outer_advances prompt.stamp stamped)
  rw [recorded]
  exact stored

theorem letGo_advances (inMemory : InMemory id log?) (prompt : PromptStore ω id)
    (shown : log? v.outside = some log) (held : v.own.store = some id) :
    ∃ outside', letGo.advance.Returns v (.inr ()) ((v.holdStore none).putOutside outside') ∧
      log? outside' = some log.close := by
  obtain ⟨outside', closed, shownAfter⟩ := inMemory.close shown
  refine ⟨outside', ?_, shownAfter⟩
  refine Proc.advance_bind ⟨rfl, rfl⟩ (Proc.advance_bind ⟨rfl, rfl⟩ ?_)
  rw [held]
  exact View.outer_advances (v := v.holdStore none) prompt.close closed

/-- From hook to hook a logger that gets the store enters its row, and leaves the context as
it is. -/
theorem procedure_advances (inMemory : InMemory id log?) (prompt : PromptStore ω id)
    {type : TypeName} (found : v.context.storeFor? type = some id)
    (shown : log? v.outside = some log) (serialized : e.payload = .ok payload) :
    ∃ row v', row.Reports redacted e payload x ∧
      ((lifecycle type redacted).procedure (.event e) x).advance.Returns v
        (.inr ⟨.ok (written row), []⟩) v' ∧
      v'.context = v.context ∧ log? v'.outside = some (log.enter row) := by
  obtain ⟨row, between, reports, wrote, shownBetween⟩ :=
    write_advances (v := v.holdStore (some id)) redacted x inMemory prompt shown rfl serialized
  let middle := (v.holdStore (some id)).putOutside between
  obtain ⟨outside', closed, shownAfter⟩ := letGo_advances (v := middle) inMemory prompt shownBetween
    rfl
  refine ⟨row, (middle.holdStore none).putOutside outside', reports, ?_, rfl, shownAfter⟩
  apply Proc.advance_bind (acquire_advances found)
  apply Proc.advance_bind (Proc.advance_bind wrote ⟨rfl, rfl⟩)
  exact Proc.advance_bind closed ⟨rfl, rfl⟩

/-- The same of the handler, for the type of events that it accepts. -/
theorem handler_advances (inMemory : InMemory id log?) (prompt : PromptStore ω id) (name : String)
    {type : TypeName} (owner : InstanceId) {accepts : MessageType} (accepted : accepts = e.type)
    {w : World (Holdings τ) ω} (found : w.context.storeFor? type = some id)
    (shown : log? w.outside = some log) (serialized : e.payload = .ok payload) :
    ∃ row w', row.Reports redacted e payload x ∧
      ((handler name type owner redacted accepts).program (.event e) x).advance.Returns w
        (.inr ⟨.ok (written row), []⟩) w' ∧
      w'.context = w.context ∧ log? w'.outside = some (log.enter row) := by
  obtain ⟨row, v', reports, advanced, contextEq, shownAfter⟩ :=
    procedure_advances (v := w.view owner) redacted x inMemory prompt found shown serialized
  refine ⟨row, w.putView owner v', reports, ?_, contextEq, shownAfter⟩
  subst accepted
  rw [Handler.program_of_stateful x (fun other => other rfl) rfl,
    Program.owned_advance_returns_iff]
  exact ⟨.inr _, (returns_within_iff _ _ _ _ _ _).mpr ⟨v', advanced, rfl⟩, rfl⟩

/-- A logger that gets no store, or an event of another type, does nothing. -/
theorem handler_idles (name : String) {type : TypeName} (owner : InstanceId)
    {accepts : MessageType} {w : World (Holdings τ) ω}
    (idle : accepts ≠ e.type ∨ w.context.storeFor? type = none) :
    ∃ error, ((handler name type owner redacted accepts).program (.event e) x).advance.Returns w
      (.inr ⟨.error error, []⟩) w := by
  by_cases accepted : accepts = e.type
  · obtain missing := idle.resolve_left (not_not_intro accepted)
    obtain ⟨error, failed⟩ := acquire_fails (v := w.view owner) missing
    refine ⟨error, ?_⟩
    subst accepted
    rw [Handler.program_of_stateful x (fun other => other rfl) rfl,
      Program.owned_advance_returns_iff]
    refine ⟨.inr _, (returns_within_iff _ _ _ _ _ _).mpr ⟨w.view owner, ?_, ?_⟩, rfl⟩
    · exact Proc.advance_bind failed ⟨rfl, rfl⟩
    · exact (World.isPart_view owner).put_look w
  · refine ⟨.messageTypeMismatch accepts.path e.name, ?_⟩
    rw [Handler.program_of_mismatch x (Ne.symm accepted), Program.free_advance_returns_iff]
    exact ⟨.inr _, ⟨rfl, rfl⟩, rfl⟩

/-! ## The loggers of an event -/

/-- All loggers of an event have it in turn, and emit nothing.  Those that accept the event
enter one row each, if they get the store. -/
theorem exists_promptly (inMemory : InMemory id log?) (prompt : PromptStore ω id)
    {type : TypeName} {handlers : List (Handler (Holdings τ) ω)}
    (loggers : ∀ h ∈ handlers, ∃ name owner accepts, h = handler name type owner redacted accepts)
    {found : Bool} {w : World (Holdings τ) ω}
    (finds : w.context.storeFor? type = if found then some id else none)
    (shown : log? w.outside = some log) (serialized : e.payload = .ok payload) :
    ∃ invocations, ∃ rows : List Row, ∃ w',
      Handler.Promptly x (.event e) handlers w invocations w' ∧
      Turn.emitted ⟨.event e, invocations⟩ = [] ∧
      (∀ row ∈ rows, row.Reports redacted e payload x) ∧
      rows.length = (if found then handlers.countP fun h => h.accepts = e.type else 0) ∧
      w'.context = w.context ∧ log? w'.outside = some (rows.foldl RowStore.enter log) := by
  induction handlers generalizing w log with
  | nil => exact ⟨[], [], w, .nobody, rfl, by simp, by simp, rfl, shown⟩
  | cons h rest ih =>
      rw [List.forall_mem_cons] at loggers
      obtain ⟨⟨name, owner, accepts, rfl⟩, loggersRest⟩ := loggers
      by_cases active : found = true ∧ accepts = e.type
      · rcases active with ⟨rfl, accepted⟩
        obtain ⟨row, middle, reports, advanced, contextEq, shownMiddle⟩ :=
          handler_advances redacted x inMemory prompt name owner accepted finds shown serialized
        obtain ⟨invocations, rows, w', promptly, silent, reportsRest, lengthEq, contextEq',
            shownAfter⟩ :=
          ih loggersRest (contextEq ▸ finds) shownMiddle
        refine ⟨_, row :: rows, w', .next advanced promptly, ?_, ?_, ?_, ?_, shownAfter⟩
        · simpa [Turn.emitted, Invocation.accepted] using silent
        · exact List.forall_mem_cons.mpr ⟨reports, reportsRest⟩
        · simp [lengthEq, handler, accepted]
        · rw [contextEq', contextEq]
      · have idle : accepts ≠ e.type ∨ w.context.storeFor? type = none := by
          by_cases accepted : accepts = e.type
          · have absent : found ≠ true := fun there => active ⟨there, accepted⟩
            rw [if_neg absent] at finds
            exact .inr finds
          · exact .inl accepted
        obtain ⟨error, advanced⟩ := handler_idles redacted x name owner idle
        obtain ⟨invocations, rows, w', promptly, silent, reports, lengthEq, contextEq,
            shownAfter⟩ :=
          ih loggersRest finds shown
        refine ⟨_, rows, w', .next advanced promptly, ?_, reports, ?_, contextEq, shownAfter⟩
        · simpa [Turn.emitted, Invocation.accepted] using silent
        · rw [lengthEq]
          by_cases there : found = true
          · have other : accepts ≠ e.type := fun accepted => active ⟨there, accepted⟩
            simp [there, handler, other]
          · simp [there]

end AuditLogger

/-! ## Buses with nothing but loggers -/

variable [AuditStores ω]

/-- The store that the loggers of a bus ask for. -/
def BusKind.storeType : BusKind → TypeName
  | blocking => TypeName.store
  | suspending => TypeName.asyncStore

/-- A bus on which all handlers of events are loggers that mask the same fields. -/
structure LoggerBus (τ ω : Type) [AuditStores ω] (redacted : List String) where
  kind : BusKind
  handlers : Handlers (Holdings τ) ω
  loggers : ∀ e, ∀ h ∈ handlers.registered (.event e), ∃ name owner accepts,
    h = AuditLogger.handler name kind.storeType owner redacted accepts

namespace LoggerBus

variable {redacted : List String} {id : StoreId} {log? : ω → Option RowStore} {log : RowStore}
  {w : World (Holdings τ) ω}

/-- How many loggers accept an event. -/
def writers (bus : LoggerBus τ ω redacted) (e : Event) : Nat :=
  (bus.handlers.registered (.event e)).countP fun h => h.accepts = e.type

/-- How many rows each of a list of calls writes; `now` and `later` tell whether the loggers
get the store in the first call, and in those after it. -/
def rowCounts (bus : LoggerBus τ ω redacted) (now later : Bool) : List (Event × Extra) → List Nat
  | [] => []
  | call :: rest => (if now then bus.writers call.1 else 0) :: bus.rowCounts later later rest

/-- The loggers of the bus get the store in the next call, or do not, and likewise in those
after it, and the store holds this. -/
structure Finds (bus : LoggerBus τ ω redacted) (id : StoreId) (log? : ω → Option RowStore)
    (now later : Bool) (log : RowStore) (w : World (Holdings τ) ω) : Prop where
  now : w.context.storeFor? bus.kind.storeType = if now then some id else none
  later : (bus.kind.release w.context).storeFor? bus.kind.storeType =
    if later then some id else none
  shown : log? w.outside = some log

/-- A call enters the rows of its event. -/
theorem exists_call (bus : LoggerBus τ ω redacted) (inMemory : InMemory id log?)
    (prompt : PromptStore ω id) {now later : Bool} (finds : bus.Finds id log? now later log w)
    {e : Event} {payload : Json} (serialized : e.payload = .ok payload) (x : Extra) :
    ∃ results, ∃ rows : List Row, ∃ w',
      bus.kind.Call bus.handlers (.event e) x w [.event e] (.ok results) w' ∧
      (∀ row ∈ rows, row.Reports redacted e payload x) ∧
      rows.length = (if now then bus.writers e else 0) ∧
      bus.Finds id log? later later (rows.foldl RowStore.enter log) w' := by
  obtain ⟨invocations, rows, served, promptly, silent, reports, lengthEq, contextEq, shownAfter⟩ :=
    AuditLogger.exists_promptly redacted x inMemory prompt (bus.loggers e) finds.now finds.shown
      serialized
  have takes : Takes (bus.kind.Serves bus.handlers x) [.event e] w [⟨.event e, invocations⟩] []
      (bus.kind.afterTurn (.event e) served) := by
    apply Takes.turn (promptly.serves bus.kind) (.event e invocations)
    rw [silent]
    exact .nothing
  have contextAfter : (bus.kind.afterTurn (.event e) served).context =
      bus.kind.release w.context := by
    rw [BusKind.context_afterTurn, contextEq]
  refine ⟨[⟨.event e, invocations⟩].flatMap Turn.results, rows,
    bus.kind.afterTurn (.event e) served, ?_, reports, lengthEq, ?_⟩
  · rw [BusKind.call_iff_course]
    exact .results takes
  · constructor
    · rw [contextAfter]
      exact finds.later
    · rw [contextAfter, BusKind.release_release]
      exact finds.later
    · rw [BusKind.outside_afterTurn]
      exact shownAfter

/-- The rows of a list of calls report its events, call by call. -/
def Reported (redacted : List String) : List (Event × Extra) → List (List Row) → Prop :=
  List.Forall₂ fun call rows => ∀ payload, call.1.payload = .ok payload →
    ∀ row ∈ rows, row.Reports redacted call.1 payload call.2

/-- Calls on events that have a serialized form return, and enter the rows of their events
one behind the other. -/
theorem exists_calls (bus : LoggerBus τ ω redacted) (inMemory : InMemory id log?)
    (prompt : PromptStore ω id) {calls : List (Event × Extra)}
    (serialized : ∀ call ∈ calls, ∃ payload, call.1.payload = .ok payload) {now later : Bool}
    (finds : bus.Finds id log? now later log w) :
    ∃ rows w', bus.kind.Calls bus.handlers w calls w' ∧ Reported redacted calls rows ∧
      rows.map List.length = bus.rowCounts now later calls ∧
      log? w'.outside = some (rows.flatten.foldl RowStore.enter log) := by
  induction calls generalizing now later log w with
  | nil => exact ⟨[], w, .nothing, .nil, rfl, finds.shown⟩
  | cons call rest ih =>
      rw [List.forall_mem_cons] at serialized
      obtain ⟨⟨payload, payloadEq⟩, serializedRest⟩ := serialized
      obtain ⟨results, first, middle, called, reports, lengthEq, findsNext⟩ :=
        bus.exists_call inMemory prompt finds payloadEq call.2
      obtain ⟨rows, w', calledRest, reported, lengthsEq, shownAfter⟩ := ih serializedRest findsNext
      refine ⟨first :: rows, w', .call called calledRest, .cons ?_ reported, ?_, ?_⟩
      · intro other otherEq
        obtain rfl := Except.ok.inj (payloadEq.symm.trans otherEq)
        exact reports
      · rw [List.map_cons, lengthEq, lengthsEq, rowCounts]
      · simpa using shownAfter

/-! ## Two runs -/

/-- Two lists of calls are the same but for masked fields. -/
def CallsAlike (redacted : List String) : List (Event × Extra) → List (Event × Extra) → Prop :=
  List.Forall₂ fun call call' => call.1.Alike redacted call'.1 ∧ call.2 = call'.2

theorem CallsAlike.serialized {calls calls' : List (Event × Extra)}
    (alike : CallsAlike redacted calls calls') :
    (∀ call ∈ calls, ∃ payload, call.1.payload = .ok payload) ∧
      ∀ call ∈ calls', ∃ payload, call.1.payload = .ok payload := by
  induction alike with
  | nil => simp
  | cons first _ ih =>
      obtain ⟨payload, payload', payloadEq, payloadEq', _⟩ := first.1.masked
      rw [List.forall_mem_cons, List.forall_mem_cons]
      exact ⟨⟨⟨payload, payloadEq⟩, ih.1⟩, ⟨⟨payload', payloadEq'⟩, ih.2⟩⟩

/-- Rows of corresponding calls are alike. -/
theorem CallsAlike.rows {calls calls' : List (Event × Extra)}
    (alike : CallsAlike redacted calls calls') {rows rows' : List (List Row)}
    (reported : Reported redacted calls rows) (reported' : Reported redacted calls' rows') :
    List.Forall₂ (fun first second => ∀ row ∈ first, ∀ row' ∈ second, row.Alike row') rows
      rows' := by
  induction alike generalizing rows rows' with
  | nil =>
      cases reported
      cases reported'
      exact .nil
  | cons first _ ih =>
      cases reported with
      | cons reports reportedRest =>
          cases reported' with
          | cons reports' reportedRest' =>
              refine .cons ?_ (ih reportedRest reportedRest')
              intro row mem row' mem'
              obtain ⟨payload, payload', payloadEq, payloadEq', _⟩ := first.1.masked
              have reportsRow' := reports' payload' payloadEq' row' mem'
              rw [← first.2] at reportsRow'
              exact (reports payload payloadEq row mem).alike first.1 payloadEq payloadEq'
                reportsRow'

/-- Where as many loggers accept the one event as the other, as many rows are written. -/
theorem rowCounts_eq {τ' ω' : Type} [AuditStores ω'] {first : LoggerBus τ ω redacted}
    {second : LoggerBus τ' ω' redacted} {calls calls' : List (Event × Extra)}
    (asMany : List.Forall₂ (fun call call' => first.writers call.1 = second.writers call'.1) calls
      calls') (now later : Bool) :
    first.rowCounts now later calls = second.rowCounts now later calls' := by
  induction asMany generalizing now with
  | nil => rfl
  | cons writersEq _ ih => rw [rowCounts, rowCounts, writersEq, ih]

/-- The loggers of the bus find a store that keeps its rows in memory, or find none. -/
structure Ready (bus : LoggerBus τ ω redacted) (id : StoreId) (log? : ω → Option RowStore)
    (now later : Bool) (log : RowStore) (w : World (Holdings τ) ω) : Prop where
  inMemory : InMemory id log?
  prompt : PromptStore ω id
  finds : bus.Finds id log? now later log w

/-- What a logger does for an event, and all of its row but number and time, does not depend
on masked fields.  So two buses with nothing but loggers that mask these fields, each blocking
or suspending, answer calls that differ in them only, and the rows of corresponding calls are
alike.  If as many loggers accept the one event as the other, and the stores have held the
same, they do so in the end. -/
theorem committed_alike (τ τ' ω ω' : Type) [AuditStores ω] [AuditStores ω']
    (redacted : List String) :
    (∀ (e e' : Event) (x : Extra), e.Alike redacted e' →
      (∀ type, (AuditLogger.lifecycle type redacted : Lifecycle (Holdings τ) ω).core (.event e) x =
        (AuditLogger.lifecycle type redacted).core (.event e') x) ∧
      ∀ stamp stamp', ∃ row row', Row.record stamp e redacted = .ok row ∧
        Row.record stamp' e' redacted = .ok row' ∧ (row.withExtra x).Alike (row'.withExtra x)) ∧
    ∀ (first : LoggerBus τ ω redacted) (second : LoggerBus τ' ω' redacted)
      (calls calls' : List (Event × Extra)) (now later : Bool) (id id' : StoreId)
      (log? : ω → Option RowStore) (log?' : ω' → Option RowStore) (log log' : RowStore)
      (w : World (Holdings τ) ω) (w' : World (Holdings τ') ω'),
      CallsAlike redacted calls calls' → first.Ready id log? now later log w →
      second.Ready id' log?' now later log' w' →
      ∃ (rows rows' : List (List Row)) (v : World (Holdings τ) ω) (v' : World (Holdings τ') ω'),
        first.kind.Calls first.handlers w calls v ∧ second.kind.Calls second.handlers w' calls' v' ∧
        log? v.outside = some (rows.flatten.foldl RowStore.enter log) ∧
        log?' v'.outside = some (rows'.flatten.foldl RowStore.enter log') ∧
        rows.map List.length = first.rowCounts now later calls ∧
        rows'.map List.length = second.rowCounts now later calls' ∧
        List.Forall₂ (fun mine yours => ∀ row ∈ mine, ∀ row' ∈ yours, row.Alike row') rows rows' ∧
        (List.Forall₂ (fun call call' => first.writers call.1 = second.writers call'.1) calls
            calls' → log.Alike log' →
          (rows.flatten.foldl RowStore.enter log).Alike
            (rows'.flatten.foldl RowStore.enter log')) := by
  constructor
  · intro e e' x alike
    refine ⟨fun type => AuditLogger.core_of_alike alike type x, ?_⟩
    intro stamp stamp'
    obtain ⟨payload, payload', serialized, serialized', _⟩ := alike.masked
    obtain ⟨row, recorded, reports⟩ := Row.record_eq_ok stamp serialized redacted x
    obtain ⟨row', recorded', reports'⟩ := Row.record_eq_ok stamp' serialized' redacted x
    exact ⟨row, row', recorded, recorded', reports.alike alike serialized serialized' reports'⟩
  · intro first second calls calls' now later id id' log? log?' log log' w w' alike ready ready'
    obtain ⟨serialized, serialized'⟩ := alike.serialized
    obtain ⟨rows, v, called, reported, lengthsEq, shown⟩ :=
      first.exists_calls ready.inMemory ready.prompt serialized ready.finds
    obtain ⟨rows', v', called', reported', lengthsEq', shown'⟩ :=
      second.exists_calls ready'.inMemory ready'.prompt serialized' ready'.finds
    have rowsAlike := alike.rows reported reported'
    refine ⟨rows, rows', v, v', called, called', shown, shown', lengthsEq, lengthsEq', rowsAlike,
      ?_⟩
    intro asMany logsAlike
    have sameLengths : rows.map List.length = rows'.map List.length := by
      rw [lengthsEq, lengthsEq', rowCounts_eq asMany]
    exact logsAlike.foldl_enter (forall₂_flatten_of_forall_mem rowsAlike sameLengths)

end LoggerBus

end Courier

/-! ## Two counters

The one bus is blocking and the other suspending, and who enrolls shows another token to
each. -/

namespace Courier.Shop

/-- Who enrolls with a token. -/
def enrolledWith (token : String) : Event :=
  ⟨⟨"shop::Enrolled", "Enrolled"⟩, .ok (.ofDict (.ofList
    [("token", .string token), ("user_id", .string "u")]))⟩

theorem enrolledWith_alike (token token' : String) :
    (enrolledWith token).Alike ["token"] (enrolledWith token') := by
  refine ⟨rfl, _, _, rfl, rfl, ?_, ?_⟩
  · intro key
    simp only [Dict.contains, Dict.ofList, List.foldl, Dict.get?_insert]
    split
    · rfl
    · split <;> rfl
  · intro key unmasked
    have other : key ≠ "token" := by simpa using unmasked
    simp only [Dict.ofList, List.foldl, Dict.get?_insert, if_neg other]

/-- A bus with a single logger. -/
def enrolment (kind : BusKind) : LoggerBus Unit Surroundings ["token"] where
  kind := kind
  handlers := Registry.empty.setEventHandlers (enrolledWith "").type
    [AuditLogger.handler "logger" kind.storeType 0 ["token"] (enrolledWith "").type]
  loggers e h mem := by
    simp only [Registry.registered, Registry.eventHandlers?_setEventHandlers] at mem
    split at mem
    · exact ⟨_, _, _, List.mem_singleton.mp mem⟩
    · exact absurd mem List.not_mem_nil

/-- The world of such a bus before anybody enrolls. -/
def enrolmentOpening (kind : BusKind) : World (Holdings Unit) Surroundings where
  context := Context.empty.put AuditLogger.storeKey ⟨kind.storeType, .store 0⟩ false
  instances := fun _ => { memory := () }
  outside := {}

theorem promptStore (id : StoreId) : PromptStore Surroundings id where
  stamp := rfl
  add _ := rfl
  commit := rfl
  close := rfl

theorem enrolment_ready (kind : BusKind) :
    (enrolment kind).Ready 0 (Surroundings.log? 0) true true {} (enrolmentOpening kind) where
  inMemory := Surroundings.inMemory 0
  prompt := promptStore 0
  finds := by
    cases kind <;> exact ⟨rfl, rfl, rfl⟩

end Courier.Shop

namespace Courier.LoggerBus

open Courier.Shop

/-- Who enrolls on the one bus with the token `s` and on the other with `t` leaves one row in
both logs, with the token masked. -/
theorem committed_alike_enrolment :
    (enrolledWith "s").Alike ["token"] (enrolledWith "t") ∧
      ∃ (rows rows' : List (List Row)) (v v' : World (Holdings Unit) Surroundings),
        BusKind.blocking.Calls (enrolment .blocking).handlers (enrolmentOpening .blocking)
          [(enrolledWith "s", ∅)] v ∧
        BusKind.suspending.Calls (enrolment .suspending).handlers (enrolmentOpening .suspending)
          [(enrolledWith "t", ∅)] v' ∧
        Surroundings.log? 0 v.outside = some (rows.flatten.foldl RowStore.enter {}) ∧
        Surroundings.log? 0 v'.outside = some (rows'.flatten.foldl RowStore.enter {}) ∧
        rows.map List.length = [1] ∧
        (rows.flatten.foldl RowStore.enter {}).Alike (rows'.flatten.foldl RowStore.enter {}) := by
  have alike := enrolledWith_alike "s" "t"
  obtain ⟨rows, rows', v, v', called, called', shown, shown', lengthsEq, _, _, same⟩ :=
    (committed_alike Unit Unit Surroundings Surroundings ["token"]).2 (enrolment .blocking)
      (enrolment .suspending) [(enrolledWith "s", ∅)] [(enrolledWith "t", ∅)] true true 0 0
      (Surroundings.log? 0) (Surroundings.log? 0) {} {} _ _ (.cons ⟨alike, rfl⟩ .nil)
      (enrolment_ready .blocking) (enrolment_ready .suspending)
  refine ⟨alike, rows, rows', v, v', called, called', shown, shown', lengthsEq, ?_⟩
  exact same (.cons rfl .nil) ⟨.nil, .nil⟩

end Courier.LoggerBus
