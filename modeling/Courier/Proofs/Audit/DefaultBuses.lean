import Courier.Catalogue
import Courier.Proofs.Audit.Secrecy
import Courier.Wiring

/-!
# The audit logs of the default buses

The blocking and the suspending bus that are made from settings have different handlers
from different tables.  Nevertheless they write the same audit log, but for numbers and
times: for every event of the catalogue each of them has one logger or none, and the
handlers that only the one bus has write nothing and emit nothing.

What a bus has for an event is said once for both kinds (`Appointed`).  A single call is
`exists_call`, a list of calls is `exists_succeeds`, and the two buses are put side by side in
the end.
-/

namespace Courier

open Courier.Action Courier.Progress

namespace BusKind

variable {σ ω : Type}

/-- Calls on events one after the other, of which each comes to results. -/
inductive Succeeds (kind : BusKind) (handlers : Handlers σ ω) :
    World σ ω → List (Event × Extra) → World σ ω → Prop
  | nothing {w : World σ ω} : Succeeds kind handlers w [] w
  | call {e : Event} {x : Extra} {calls : List (Event × Extra)} {w middle w' : World σ ω}
      {taken : List Message} {results : List Dispatched} :
      kind.Call handlers (.event e) x w taken (.ok results) middle →
      Succeeds kind handlers middle calls w' → Succeeds kind handlers w ((e, x) :: calls) w'

/-- A single handler makes of a message on both buses what it makes of it alone. -/
theorem serves_of_inTurn (kind : BusKind) {handlers : Handlers σ ω} {x : Extra} {m : Message}
    (single : (handlers.registered m).length ≤ 1) {w served : World σ ω}
    {invocations : List (String × Invocation)}
    (inTurn : Handler.InTurn x m (handlers.registered m) w invocations served) :
    kind.Serves handlers x m w invocations (kind.afterTurn m served) := by
  cases kind with
  | blocking => exact inTurn
  | suspending =>
      apply (AsyncBus.convenes_iff_serves handlers x m single w _ invocations).mpr
      exact ⟨served, inTurn, rfl⟩

/-- A call on an event with a single handler that emits nothing is over after one turn. -/
theorem call_of_silent (kind : BusKind) {handlers : Handlers σ ω} {x : Extra} {e : Event}
    (single : (handlers.registered (.event e)).length ≤ 1) {w served : World σ ω}
    {invocations : List (String × Invocation)}
    (inTurn : Handler.InTurn x (.event e) (handlers.registered (.event e)) w invocations served)
    (silent : Turn.emitted ⟨.event e, invocations⟩ = []) :
    ∃ results, kind.Call handlers (.event e) x w [.event e] (.ok results)
      (kind.afterTurn (.event e) served) := by
  have takes : Takes (kind.Serves handlers x) [.event e] w [⟨.event e, invocations⟩] []
      (kind.afterTurn (.event e) served) := by
    apply Takes.turn (kind.serves_of_inTurn single inTurn) (.event e invocations)
    rw [silent]
    exact .nothing
  refine ⟨[⟨.event e, invocations⟩].flatMap Turn.results, ?_⟩
  rw [BusKind.call_iff_course]
  exact .results takes

end BusKind

variable {τ ω : Type}

/-! ## Notifiers -/

/-- The handler answers the event in this context, and leaves the context and everything
outside the bus as it is. -/
def Handler.Unobtrusive {σ : Type} (h : Handler σ ω) (c : Context) (e : Event) : Prop :=
  ∀ (x : Extra) (w : World σ ω), w.context = c →
    ∃ output w', (h.invoke (.event e) x).Returns w ⟨.ok output, []⟩ w' ∧
      w'.context = c ∧ w'.outside = w.outside

namespace Notifier

/-- The mailer writes every mail to the log instead of sending it. -/
def LogsOnly (ω : Type) [Mailers ω] (id : MailerId) : Prop :=
  ∀ mail, (Mailers.send id mail : Proc ω (Except HandlerError Unit)) = mail.logOnly

theorem acquire_returns {settings : NotificationSettings} {id : MailerId} {callScoped : Bool}
    {v : View (Holdings τ) ω}
    (entry : v.context.at? mailerKey = some ⟨⟨TypeName.mailer, .mailer id⟩, callScoped⟩) :
    (acquire settings).run.Returns v (.ok ())
      (v.holdMailer (if settings.emailEnabled then some id else none)) := by
  unfold acquire
  cases settings.emailEnabled with
  | false => exact ⟨rfl, rfl⟩
  | true =>
      have found : v.context.require mailerKey TypeName.mailer =
          .ok ⟨TypeName.mailer, .mailer id⟩ := by
        simp [Context.require, entry]
      apply Proc.returns_run_bind ⟨rfl, rfl⟩
      rw [found]
      exact ⟨rfl, rfl⟩

variable [Mailers ω]

theorem deliver_returns {id : MailerId} (logsOnly : LogsOnly ω id) (mail : Mail) (notice : LogLine)
    {v : View (Holdings τ) ω} (held : v.own.mailer = none ∨ v.own.mailer = some id) :
    ∃ delivery, (deliver mail notice).run.Returns v (.ok (delivered delivery)) v := by
  rcases held with held | held
  · refine ⟨.logged, Proc.returns_run_bind ⟨rfl, rfl⟩ ?_⟩
    rw [held]
    exact ⟨rfl, rfl⟩
  · refine ⟨.sent, Proc.returns_run_bind ⟨rfl, rfl⟩ ?_⟩
    rw [held]
    have sent : (View.outer (Mailers.send id mail)).run.Returns v (.ok ()) v := by
      rw [logsOnly mail]
      exact View.returns_outer ⟨rfl, rfl⟩
    exact Proc.returns_run_bind sent ⟨rfl, rfl⟩

/-- Whether mail is switched on or off, a notifier delivers its notification and changes
nothing but what it holds. -/
theorem lifecycle_invoke_returns {id : MailerId} (logsOnly : LogsOnly ω id)
    (settings : NotificationSettings) (mail : Event → Mail) (notice : Event → LogLine) (e : Event)
    (x : Extra) {callScoped : Bool} {v : View (Holdings τ) ω}
    (entry : v.context.at? mailerKey = some ⟨⟨TypeName.mailer, .mailer id⟩, callScoped⟩) :
    ∃ delivery v',
      ((lifecycle settings mail notice).invoke (.event e) x).Returns v
        ⟨.ok (delivered delivery), []⟩ v' ∧
      v'.context = v.context ∧ v'.outside = v.outside := by
  let middle := v.holdMailer (if settings.emailEnabled then some id else none)
  have held : middle.own.mailer = none ∨ middle.own.mailer = some id := by
    show (if settings.emailEnabled then some id else none) = none ∨
      (if settings.emailEnabled then some id else none) = some id
    cases settings.emailEnabled <;> simp
  obtain ⟨delivery, returned⟩ := deliver_returns logsOnly (mail e) (notice e) held
  refine ⟨delivery, middle.holdMailer none, ?_, rfl, rfl⟩
  rw [Lifecycle.invoke, returns_bind_iff]
  refine ⟨.ok (), middle, acquire_returns entry, ?_⟩
  rw [returns_ensuring_iff]
  exact ⟨middle, Proc.returns_run_bind returned ⟨rfl, rfl⟩, rfl, rfl⟩

/-- A handler with the procedures of a notifier. -/
theorem unobtrusive {id : MailerId} (logsOnly : LogsOnly ω id) {c : Context} {callScoped : Bool}
    (entry : c.at? mailerKey = some ⟨⟨TypeName.mailer, .mailer id⟩, callScoped⟩) (name : String)
    (owner : InstanceId) (settings : NotificationSettings) (mail : Event → Mail)
    (notice : Event → LogLine) (e : Event) :
    ({ name, accepts := e.type, behavior := .stateful owner (lifecycle settings mail notice) } :
      Handler (Holdings τ) ω).Unobtrusive c e := by
  intro x w contextEq
  subst contextEq
  obtain ⟨delivery, v', invoked, contextEq, outsideEq⟩ :=
    lifecycle_invoke_returns (v := w.view owner) logsOnly settings mail notice e x entry
  refine ⟨delivered delivery, w.putView owner v', ?_, contextEq, outsideEq⟩
  rw [Handler.invoke, if_neg (fun other => other rfl)]
  exact (returns_within_iff _ _ _ _ _ _).mpr ⟨v', invoked, rfl⟩

end Notifier

/-! ## What is registered -/

variable [AuditStores ω]

/-- What a bus has for an event: a logger if the event is audited, and otherwise at most a
handler that does not show. -/
inductive Appointed (type : TypeName) (redacted : List String) (c : Context) (e : Event) :
    (audited : Bool) → List (Handler (Holdings τ) ω) → Prop
  | logger (name : String) (owner : InstanceId) :
      Appointed type redacted c e true [AuditLogger.handler name type owner redacted e.type]
  | other {h : Handler (Holdings τ) ω} : h.Unobtrusive c e → Appointed type redacted c e false [h]
  | nobody : Appointed type redacted c e false []

theorem Appointed.length_le_one {type : TypeName} {redacted : List String} {c : Context} {e : Event}
    {audited : Bool} {handlers : List (Handler (Holdings τ) ω)}
    (appointed : Appointed type redacted c e audited handlers) : handlers.length ≤ 1 := by
  cases appointed <;> simp

namespace Wiring

/-- Whether events of a type are written to the audit log. -/
def audits (settings : Settings) (type : MessageType) : Bool :=
  settings.bus.auditLog && auditedFormats.any fun f => f.type = type

/-- Each audited type has one logger of its own, and the other types have what they had. -/
theorem eventHandlers?_registerLoggers (name : String) (type : TypeName) (redacted : List String)
    (first : InstanceId) (formats : List EventFormat) (handlers : Handlers (Holdings τ) ω)
    (asked : MessageType) :
    (formats.any (fun f => f.type = asked) = true → ∃ owner,
      (registerLoggers name type redacted first formats handlers).eventHandlers? asked =
        some [AuditLogger.handler name type owner redacted asked]) ∧
    (formats.any (fun f => f.type = asked) = false →
      (registerLoggers name type redacted first formats handlers).eventHandlers? asked =
        handlers.eventHandlers? asked) := by
  induction formats generalizing first handlers with
  | nil => simp [registerLoggers]
  | cons f rest ih =>
      obtain ⟨found, kept⟩ := ih (first + 1)
        (handlers.setEventHandlers f.type [AuditLogger.handler name type first redacted f.type])
      cases later : rest.any fun f => f.type = asked with
      | true =>
          refine ⟨fun _ => found later, fun absent => ?_⟩
          simp [later] at absent
      | false =>
          rw [registerLoggers, kept later, Registry.eventHandlers?_setEventHandlers]
          by_cases here : asked = f.type
          · subst here
            refine ⟨fun _ => ⟨first, if_pos rfl⟩, fun absent => ?_⟩
            simp at absent
          · rw [if_neg here]
            refine ⟨fun there => ?_, fun _ => rfl⟩
            simp [later, Ne.symm here] at there

/-- The loggers of a bus are those that the settings ask for. -/
theorem appointed_loggers (settings : Settings) (name : String) (type : TypeName) (c : Context)
    (e : Event) :
    Appointed type settings.bus.redactedFields c e (audits settings e.type)
      (((loggers settings name type : Handlers (Holdings τ) ω).eventHandlers? e.type).getD []) := by
  unfold loggers audits
  cases settings.bus.auditLog with
  | false => exact .nobody
  | true =>
      obtain ⟨found, kept⟩ := eventHandlers?_registerLoggers (τ := τ) (ω := ω) name type
        settings.bus.redactedFields 0 auditedFormats .empty e.type
      cases audited : auditedFormats.any fun f => f.type = e.type with
      | true =>
          obtain ⟨owner, registered⟩ := found audited
          rw [if_pos rfl, registered]
          exact .logger name owner
      | false =>
          rw [if_pos rfl, kept audited]
          exact .nobody

/-- What the suspending bus has for an event. -/
theorem appointed_asyncHandlers (settings : Settings) (c : Context) (e : Event) :
    Appointed TypeName.asyncStore settings.bus.redactedFields c e (audits settings e.type)
      ((asyncHandlers settings : Handlers (Holdings τ) ω).registered (.event e)) :=
  appointed_loggers settings "AsyncEventsLogger" TypeName.asyncStore c e

/-- What the blocking bus has for an event: the notifiers are for types that are not audited. -/
theorem appointed_syncHandlers [Mailers ω] {id : MailerId} (logsOnly : Notifier.LogsOnly ω id)
    (settings : Settings) {c : Context} {callScoped : Bool}
    (entry : c.at? Notifier.mailerKey = some ⟨⟨TypeName.mailer, .mailer id⟩, callScoped⟩)
    (e : Event) :
    Appointed TypeName.store settings.bus.redactedFields c e (audits settings e.type)
      ((syncHandlers settings : Handlers (Holdings τ) ω).registered (.event e)) := by
  simp only [syncHandlers, Registry.registered, Registry.eventHandlers?_setEventHandlers]
  have unaudited : ∀ type, auditedFormats.any (fun f => f.type = type) = false →
      audits settings type = false := by
    intro type absent
    rw [audits, absent, Bool.and_false]
  by_cases changed : e.type = Catalogue.userPasswordChanged.type
  · rw [if_pos changed, unaudited e.type (by rw [changed]; decide)]
    apply Appointed.other
    unfold Notifier.passwordChanged
    rw [← changed]
    exact Notifier.unobtrusive logsOnly entry _ _ _ _ _ e
  · rw [if_neg changed]
    by_cases requested : e.type = Catalogue.passwordChangeRequestCreated.type
    · rw [if_pos requested, unaudited e.type (by rw [requested]; decide)]
      apply Appointed.other
      unfold Notifier.passwordChangeRequest
      rw [← requested]
      exact Notifier.unobtrusive logsOnly entry _ _ _ _ _ e
    · rw [if_neg requested]
      exact appointed_loggers settings "EventsLogger" TypeName.store c e

end Wiring

/-! ## Calls -/

variable {id : StoreId} {log? : ω → Option RowStore} {type : TypeName} {redacted : List String}
  {c : Context}

/-- The calls of a list that are to leave a row. -/
def Wiring.audited (settings : Settings) (calls : List (Event × Extra)) : List (Event × Extra) :=
  calls.filter fun call => audits settings call.1.type

/-- A row for each of a list of calls, in their order. -/
def Records (redacted : List String) : List (Event × Extra) → List Row → Prop :=
  List.Forall₂ fun call row =>
    ∃ payload, call.1.payload = .ok payload ∧ row.Reports redacted call.1 payload call.2

/-- The bus stands as it was made, and its store has committed these rows, has nothing staged,
and has been closed once for each of them. -/
structure World.Stands {σ : Type} (c : Context) (log? : ω → Option RowStore) (rows : List Row)
    (w : World σ ω) : Prop where
  context : w.context = c
  shown : log? w.outside = some ⟨[], rows, rows.length⟩

/-- What is registered for an event writes a row for it if the event is audited, and nothing
otherwise. -/
theorem Appointed.exists_inTurn (inMemory : InMemory id log?) {callScoped : Bool}
    (entry : c.at? AuditLogger.storeKey = some ⟨⟨type, .store id⟩, callScoped⟩) {e : Event}
    {payload : Json} (serialized : e.payload = .ok payload) (x : Extra) {audited : Bool}
    {handlers : List (Handler (Holdings τ) ω)}
    (appointed : Appointed type redacted c e audited handlers) {rows : List Row}
    {w : World (Holdings τ) ω} (stands : w.Stands c log? rows) :
    ∃ invocations written served,
      Handler.InTurn x (.event e) handlers w invocations served ∧
      Turn.emitted ⟨.event e, invocations⟩ = [] ∧
      Records redacted (if audited then [(e, x)] else []) written ∧
      served.Stands c log? (rows ++ written) := by
  cases appointed with
  | logger name owner =>
      obtain ⟨invocation, written, served, writes, invoked, contextEq, shown⟩ :
          ∃ invocation written served, AuditLogger.Writes redacted e x invocation written ∧ _ :=
        AuditLogger.handler_invoke_returns inMemory name owner (stands.context ▸ entry)
          stands.shown rfl
      cases writes with
      | unserialized failed =>
          rw [serialized] at failed
          cases failed
      | row serialized reports =>
          refine ⟨_, _, served, .next invoked .nobody, rfl,
            .cons ⟨_, serialized, reports⟩ .nil, ?_, ?_⟩
          · exact contextEq.trans stands.context
          · simpa using shown
  | other unobtrusive =>
      obtain ⟨output, served, invoked, contextEq, outsideEq⟩ := unobtrusive x w stands.context
      refine ⟨_, [], served, .next invoked .nobody, rfl, .nil, contextEq, ?_⟩
      rw [outsideEq, List.append_nil]
      exact stands.shown
  | nobody =>
      refine ⟨[], [], w, .nobody, rfl, .nil, ?_⟩
      rw [List.append_nil]
      exact stands

/-- A call on an event succeeds, and leaves a row if the event is audited. -/
theorem exists_call (kind : BusKind) (inMemory : InMemory id log?) (kept : kind.release c = c)
    {callScoped : Bool}
    (entry : c.at? AuditLogger.storeKey = some ⟨⟨kind.storeType, .store id⟩, callScoped⟩)
    {handlers : Handlers (Holdings τ) ω} {e : Event} {audited : Bool}
    (appointed : Appointed kind.storeType redacted c e audited (handlers.registered (.event e)))
    {payload : Json} (serialized : e.payload = .ok payload) (x : Extra) {rows : List Row}
    {w : World (Holdings τ) ω} (stands : w.Stands c log? rows) :
    ∃ results written w',
      kind.Call handlers (.event e) x w [.event e] (.ok results) w' ∧
      Records redacted (if audited then [(e, x)] else []) written ∧
      w'.Stands c log? (rows ++ written) := by
  obtain ⟨invocations, written, served, inTurn, silent, records, standsAfter⟩ :=
    appointed.exists_inTurn inMemory entry serialized x stands
  obtain ⟨results, called⟩ := kind.call_of_silent appointed.length_le_one inTurn silent
  refine ⟨results, written, _, called, records, ?_, ?_⟩
  · rw [BusKind.context_afterTurn, standsAfter.context, kept]
  · rw [BusKind.outside_afterTurn]
    exact standsAfter.shown

/-- Calls succeed one after the other, and leave the rows of those that are audited. -/
theorem exists_succeeds (kind : BusKind) (inMemory : InMemory id log?) (kept : kind.release c = c)
    {callScoped : Bool}
    (entry : c.at? AuditLogger.storeKey = some ⟨⟨kind.storeType, .store id⟩, callScoped⟩)
    {handlers : Handlers (Holdings τ) ω} {settings : Settings}
    (appointed : ∀ e, Appointed kind.storeType settings.bus.redactedFields c e
      (Wiring.audits settings e.type) (handlers.registered (.event e)))
    {calls : List (Event × Extra)}
    (serialized : ∀ call ∈ calls, ∃ payload, call.1.payload = .ok payload) {rows : List Row}
    {w : World (Holdings τ) ω} (stands : w.Stands c log? rows) :
    ∃ written w', kind.Succeeds handlers w calls w' ∧
      Records settings.bus.redactedFields (Wiring.audited settings calls) written ∧
      w'.Stands c log? (rows ++ written) := by
  induction calls generalizing rows w with
  | nil =>
      refine ⟨[], w, .nothing, .nil, ?_⟩
      rw [List.append_nil]
      exact stands
  | cons call rest ih =>
      rw [List.forall_mem_cons] at serialized
      obtain ⟨⟨payload, payloadEq⟩, serializedRest⟩ := serialized
      obtain ⟨results, first, middle, called, records, standsMiddle⟩ :=
        exists_call kind inMemory kept entry (appointed call.1) payloadEq call.2 stands
      obtain ⟨more, w', succeeds, recordsRest, standsAfter⟩ := ih serializedRest standsMiddle
      refine ⟨first ++ more, w', .call called succeeds, ?_, ?_⟩
      · have auditedEq : Wiring.audited settings (call :: rest) =
            (if Wiring.audits settings call.1.type then [call] else []) ++
              Wiring.audited settings rest := by
          rw [Wiring.audited, List.filter_cons]
          split <;> rfl
        rw [auditedEq]
        exact List.rel_append records recordsRest
      · rw [← List.append_assoc]
        exact standsAfter

/-! ## The two logs -/

/-- What an event reports is the same whoever reports it. -/
theorem Row.Reports.alike_self {e : Event} {payload : Json} {x : Extra} {row row' : Row}
    (reports : row.Reports redacted e payload x) (reports' : row'.Reports redacted e payload x) :
    row.Alike row' := by
  rcases row with ⟨stamp, userId, objectId, eventType, event, info⟩
  rcases row' with ⟨stamp', userId', objectId', eventType', event', info'⟩
  rcases reports with ⟨rfl, rfl, rfl, rfl, rfl⟩
  rcases reports' with ⟨rfl, rfl, rfl, rfl, rfl⟩
  rfl

theorem Records.alike {calls : List (Event × Extra)} {rows rows' : List Row}
    (records : Records redacted calls rows) (records' : Records redacted calls rows') :
    List.Forall₂ Row.Alike rows rows' := by
  induction records generalizing rows' with
  | nil =>
      cases records'
      exact .nil
  | cons first _ ih =>
      cases records' with
      | cons first' rest' =>
          obtain ⟨payload, payloadEq, reports⟩ := first
          obtain ⟨payload', payloadEq', reports'⟩ := first'
          obtain rfl := Except.ok.inj (payloadEq.symm.trans payloadEq')
          exact .cons (reports.alike_self reports') (ih rest')

namespace Wiring

/-- A blocking bus is made with its store and its mailer in the context. -/
theorem entries_syncBus [Mailers ω] (settings : Settings) (store : StoreId) (mailer : MailerId)
    (memory : τ) :
    (syncBus settings store mailer memory : Bus (Holdings τ) ω).context.at? AuditLogger.storeKey =
        some ⟨⟨TypeName.store, .store store⟩, false⟩ ∧
      (syncBus settings store mailer memory : Bus (Holdings τ) ω).context.at? Notifier.mailerKey =
        some ⟨⟨TypeName.mailer, .mailer mailer⟩, false⟩ := by
  simp [syncBus, Context.at?_put, AuditLogger.storeKey, Notifier.mailerKey]

theorem entry_asyncBus (settings : Settings) (store : StoreId) (memory : τ) :
    (asyncBus settings store memory : Bus (Holdings τ) ω).context.at? AuditLogger.storeKey =
      some ⟨⟨TypeName.asyncStore, .store store⟩, false⟩ := by
  simp [asyncBus, Context.at?_put]

/-- The context of a suspending bus has no call-scoped entry. -/
theorem release_asyncBus (settings : Settings) (store : StoreId) (memory : τ) :
    BusKind.suspending.release (asyncBus settings store memory : Bus (Holdings τ) ω).context =
      (asyncBus settings store memory : Bus (Holdings τ) ω).context := by
  apply Context.ext_at?
  intro key
  show Context.at? (Context.releaseScoped _) key = _
  rw [Context.at?_releaseScoped]
  simp only [asyncBus, Context.at?_put]
  split
  · rfl
  · rfl

/-- A call for each of a list of facts. -/
def callsOf (facts : List (Fact × Extra)) : List (Event × Extra) :=
  facts.map fun call => (call.1.toEvent, call.2)

/-- Every fact has a serialized form. -/
theorem serialized_callsOf (facts : List (Fact × Extra)) :
    ∀ call ∈ callsOf facts, ∃ payload, call.1.payload = .ok payload := by
  intro call mem
  rcases List.mem_map.mp mem with ⟨⟨fact, x⟩, _, rfl⟩
  refine ⟨fact.body, ?_⟩
  cases fact <;> rfl

/-- Whatever the settings are, a blocking and a suspending bus that are made from them answer
the same calls on events of the catalogue, all with results, and write the same audit log,
but for numbers and times.  Where there is an audit log at all, it has one row for each call on an
event of an audited type, in the order of the calls, and the store has been closed as often.
-/
theorem default_buses_log_alike {τ τ' ω ω' : Type} [AuditStores ω] [Mailers ω] [AuditStores ω']
    (settings : Settings) (facts : List (Fact × Extra)) (memory : τ) (memory' : τ')
    (store store' : StoreId) (mailer : MailerId) (log? : ω → Option RowStore)
    (log?' : ω' → Option RowStore) (outside : ω) (outside' : ω')
    (inMemory : InMemory store log?) (inMemory' : InMemory store' log?')
    (logsOnly : Notifier.LogsOnly ω mailer) (opening : log? outside = some {})
    (opening' : log?' outside' = some {}) :
    ∃ (rows rows' : List Row) (w : World (Holdings τ) ω) (w' : World (Holdings τ') ω'),
      BusKind.blocking.Succeeds (syncBus settings store mailer memory).handlers
        ((syncBus settings store mailer memory).world outside) (callsOf facts) w ∧
      BusKind.suspending.Succeeds (asyncBus settings store' memory').handlers
        ((asyncBus settings store' memory').world outside') (callsOf facts) w' ∧
      log? w.outside = some ⟨[], rows, rows.length⟩ ∧
      log?' w'.outside = some ⟨[], rows', rows'.length⟩ ∧
      Records settings.bus.redactedFields (audited settings (callsOf facts)) rows ∧
      rows.length = rows'.length ∧ List.Forall₂ Row.Alike rows rows' := by
  obtain ⟨storeEntry, mailerEntry⟩ :=
    entries_syncBus (τ := τ) (ω := ω) settings store mailer memory
  obtain ⟨rows, w, succeeds, records, stands⟩ :=
    exists_succeeds .blocking inMemory rfl storeEntry
      (appointed_syncHandlers logsOnly settings mailerEntry) (serialized_callsOf facts)
      (w := (syncBus settings store mailer memory).world outside) ⟨rfl, opening⟩
  obtain ⟨rows', w', succeeds', records', stands'⟩ :=
    exists_succeeds .suspending inMemory' (release_asyncBus settings store' memory')
      (entry_asyncBus (ω := ω') settings store' memory')
      (appointed_asyncHandlers settings _) (serialized_callsOf facts)
      (w := (asyncBus settings store' memory').world outside') ⟨rfl, opening'⟩
  have alike := records.alike records'
  exact ⟨rows, rows', w, w', succeeds, succeeds', stands.shown, stands'.shown, records,
    alike.length_eq, alike⟩

end Wiring

end Courier

/-! ## An office

A folder is put up, somebody asks for a new password, and the folder is removed.  Two of the
three events are audited, and the mail goes to the log. -/

namespace Courier.Shop

def officeFacts : List (Fact × Extra) :=
  [(.folderCreated "f" "u", .ofList [("meta", .bool true)]),
    (.passwordChangeRequestCreated "u" "i" "t" "u@localhost", ∅), (.folderRemoved "f" "u", ∅)]

def officeSettings : Settings where
  bus := { redactedFields := ["user_id"] }
  notifications := { emailEnabled := true }

end Courier.Shop

namespace Courier.Wiring

open Courier.Shop

theorem default_buses_log_alike_office :
    audited officeSettings (callsOf officeFacts) =
        [((Fact.folderCreated "f" "u").toEvent, .ofList [("meta", .bool true)]),
          ((Fact.folderRemoved "f" "u").toEvent, ∅)] ∧
      ∃ (rows rows' : List Row) (w w' : World (Holdings Unit) Surroundings),
        BusKind.blocking.Succeeds (syncBus officeSettings 0 Surroundings.loggingMailer ()).handlers
          ((syncBus officeSettings 0 Surroundings.loggingMailer ()).world {}) (callsOf officeFacts)
          w ∧
        BusKind.suspending.Succeeds (asyncBus officeSettings 0 ()).handlers
          ((asyncBus officeSettings 0 ()).world {}) (callsOf officeFacts) w' ∧
        Surroundings.log? 0 w.outside = some ⟨[], rows, rows.length⟩ ∧
        Surroundings.log? 0 w'.outside = some ⟨[], rows', rows'.length⟩ ∧
        Records ["user_id"] (audited officeSettings (callsOf officeFacts)) rows ∧
        rows.length = rows'.length ∧ List.Forall₂ Row.Alike rows rows' := by
  refine ⟨rfl, ?_⟩
  apply default_buses_log_alike officeSettings officeFacts () () 0 0 Surroundings.loggingMailer
    (Surroundings.log? 0) (Surroundings.log? 0) {} {} (Surroundings.inMemory 0)
    (Surroundings.inMemory 0)
  · intro mail
    rfl
  · rfl
  · rfl

end Courier.Wiring
