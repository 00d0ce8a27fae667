import Courier.Audit.Logger
import Courier.Proofs.Handler.Program

/-!
# What a logger writes

One invocation of an audit logger takes the store out of the context, adds and commits
one row if the event has a serialized form, and closes the store.  The store is one that
keeps its rows in memory: it refuses nothing.
-/

namespace Courier

open Courier.Action

namespace View

variable {σ ω α : Type}

theorem isPart_outside :
    IsPart View.outside (putOutside : ω → View σ ω → View σ ω) where
  look_put _ _ := rfl
  put_look _ := rfl
  put_put _ _ _ := rfl

/-- What the world outside does, a handler that sees it can do. -/
theorem returns_outer {p : Proc ω α} {v : View σ ω} {a : α} {outside' : ω}
    (returned : p.run.Returns v.outside a outside') :
    (outer p).run.Returns v a (v.putOutside outside') :=
  (Proc.returns_run_within_iff isPart_outside p v _ a).mpr ⟨outside', returned, rfl⟩

end View

variable {τ ω : Type}

/-- A store that keeps its rows in memory.  Where there is one, `log?` shows what it
holds; everything else outside the bus may behave as it likes. -/
structure InMemory [AuditStores ω] (id : StoreId) (log? : ω → Option RowStore) : Prop where
  stamp : ∀ {outside log}, log? outside = some log →
    ∃ stamp outside', (AuditStores.stamp : Proc ω Stamp).run.Returns outside stamp outside' ∧
      log? outside' = some log
  add : ∀ {outside log} (row : Row), log? outside = some log →
    ∃ outside', (AuditStores.add id row).run.Returns outside (.ok ()) outside' ∧
      log? outside' = some (log.add row)
  commit : ∀ {outside log}, log? outside = some log →
    ∃ outside', (AuditStores.commit id).run.Returns outside (.ok ()) outside' ∧
      log? outside' = some log.commit
  close : ∀ {outside log}, log? outside = some log →
    ∃ outside', (AuditStores.close id).run.Returns outside () outside' ∧
      log? outside' = some log.close

/-- What a row says about an event: its name, its payload with the named fields masked,
and who caused it and what it is about, by the data of the call or else by the masked
payload. -/
structure Row.Reports (row : Row) (redacted : List String) (e : Event) (payload : Json)
    (x : Extra) : Prop where
  eventType : row.eventType = e.name
  event : row.event = Redaction.apply redacted payload
  userId : row.userId =
    (x.getText? "user_id").or (Row.textField? (Redaction.apply redacted payload) "user_id")
  objectId : row.objectId =
    (x.getText? "object_id").or (Row.textField? (Redaction.apply redacted payload) "id")
  info : row.info = x.get? "meta"

namespace Row

theorem record_eq_ok (stamp : Stamp) {e : Event} {payload : Json}
    (serialized : e.payload = .ok payload) (redacted : List String) (x : Extra) :
    ∃ row, record stamp e redacted = .ok row ∧ (row.withExtra x).Reports redacted e payload x := by
  refine ⟨_, by rw [record, serialized], rfl, rfl, rfl, rfl, ?_⟩
  exact Option.or_none

theorem record_eq_error {stamp : Stamp} {e : Event} {reason : String}
    (unserialized : e.payload = .error reason) (redacted : List String) :
    record stamp e redacted = .error (.serialize e.name reason) := by
  rw [record, unserialized]

end Row

namespace AuditLogger

theorem acquire_returns {id : StoreId} {type : TypeName} {callScoped : Bool}
    {v : View (Holdings τ) ω}
    (entry : v.context.at? storeKey = some ⟨⟨type, .store id⟩, callScoped⟩) :
    (acquire type).run.Returns v (.ok ()) (v.holdStore (some id)) := by
  have found : v.context.require storeKey type = .ok ⟨type, .store id⟩ := by
    simp [Context.require, entry]
  refine Proc.returns_run_bind ⟨rfl, rfl⟩ ?_
  rw [found]
  exact ⟨rfl, rfl⟩

/-- How a logger answers an event, and the rows that it writes. -/
inductive Writes (redacted : List String) (e : Event) (x : Extra) : Invocation → List Row → Prop
  | row {payload : Json} {row : Row} :
      e.payload = .ok payload → row.Reports redacted e payload x →
      Writes redacted e x ⟨.ok (written row), []⟩ [row]
  | unserialized {reason : String} :
      e.payload = .error reason →
      Writes redacted e x ⟨.error (.codec (.serialize e.name reason)), []⟩ []

variable [AuditStores ω] {id : StoreId} {log? : ω → Option RowStore} {log : RowStore}
  {v : View (Holdings τ) ω} {e : Event} {x : Extra} {redacted : List String}

theorem store_returns (inMemory : InMemory id log?) (shown : log? v.outside = some log)
    (row : Row) :
    ∃ outside', (store id row).run.Returns v (.ok (written row)) (v.putOutside outside') ∧
      log? outside' = some (log.add row).commit := by
  obtain ⟨between, added, shownBetween⟩ := inMemory.add row shown
  obtain ⟨outside', committed, shownAfter⟩ := inMemory.commit shownBetween
  refine ⟨outside', ?_, shownAfter⟩
  exact Proc.returns_run_bind (View.returns_outer added)
    (Proc.returns_run_bind (View.returns_outer (v := v.putOutside between) committed) ⟨rfl, rfl⟩)

/-- With nothing staged, a row that is written comes behind those that are there. -/
theorem write_returns (inMemory : InMemory id log?) (shown : log? v.outside = some log)
    (unstaged : log.staged = []) (held : v.own.store = some id) :
    ∃ result rows outside', Writes redacted e x ⟨result, []⟩ rows ∧
      (write redacted e x).run.Returns v result (v.putOutside outside') ∧
      log? outside' = some { log with committed := log.committed ++ rows } := by
  obtain ⟨stamp, between, stamped, shownBetween⟩ := inMemory.stamp shown
  cases serialized : e.payload with
  | error reason =>
      refine ⟨_, [], between, .unserialized serialized, ?_, by simpa using shownBetween⟩
      refine Proc.returns_run_bind ⟨rfl, rfl⟩ ?_
      rw [held]
      refine Proc.returns_run_bind (View.returns_outer stamped) ?_
      rw [Row.record_eq_error serialized]
      exact ⟨rfl, rfl⟩
  | ok payload =>
      obtain ⟨row, recorded, reports⟩ := Row.record_eq_ok stamp serialized redacted x
      obtain ⟨outside', stored, shownAfter⟩ :=
        store_returns (v := v.putOutside between) inMemory shownBetween (row.withExtra x)
      refine ⟨_, [row.withExtra x], outside', .row serialized reports, ?_, ?_⟩
      · refine Proc.returns_run_bind ⟨rfl, rfl⟩ ?_
        rw [held]
        refine Proc.returns_run_bind (View.returns_outer stamped) ?_
        rw [recorded]
        exact stored
      · rw [shownAfter]
        simp [RowStore.add, RowStore.commit, unstaged]

theorem letGo_returns (inMemory : InMemory id log?) (shown : log? v.outside = some log)
    (held : v.own.store = some id) :
    ∃ outside', letGo.run.Returns v () ((v.holdStore none).putOutside outside') ∧
      log? outside' = some log.close := by
  obtain ⟨outside', closed, shownAfter⟩ := inMemory.close shown
  refine ⟨outside', ?_, shownAfter⟩
  refine Proc.returns_run_bind ⟨rfl, rfl⟩ (Proc.returns_run_bind ⟨rfl, rfl⟩ ?_)
  rw [held]
  exact View.returns_outer (v := v.holdStore none) closed

/-- From hook to hook a logger writes its rows behind those that are there, closes the
store once, and leaves the context as it is. -/
theorem lifecycle_invoke_returns (inMemory : InMemory id log?) {type : TypeName} {callScoped : Bool}
    (entry : v.context.at? storeKey = some ⟨⟨type, .store id⟩, callScoped⟩)
    (shown : log? v.outside = some log) (unstaged : log.staged = []) :
    ∃ invocation rows v', Writes redacted e x invocation rows ∧
      ((lifecycle type redacted).invoke (.event e) x).Returns v invocation v' ∧
      v'.context = v.context ∧
      log? v'.outside = some ⟨[], log.committed ++ rows, log.closes + 1⟩ := by
  obtain ⟨result, rows, between, writes, written, shownBetween⟩ :=
    write_returns (v := v.holdStore (some id)) inMemory shown unstaged rfl
  let middle := (v.holdStore (some id)).putOutside between
  obtain ⟨outside', closed, shownAfter⟩ := letGo_returns (v := middle) inMemory shownBetween rfl
  refine ⟨⟨result, []⟩, rows, (middle.holdStore none).putOutside outside', writes, ?_, rfl,
    shownAfter⟩
  rw [Lifecycle.invoke, returns_bind_iff]
  refine ⟨.ok (), _, acquire_returns entry, ?_⟩
  rw [returns_ensuring_iff]
  exact ⟨middle, Proc.returns_run_bind written ⟨rfl, rfl⟩, closed⟩

/-- The same of the handler, for the type of events that it is registered for. -/
theorem handler_invoke_returns (inMemory : InMemory id log?) (name : String) {type : TypeName}
    {callScoped : Bool} (owner : InstanceId) {w : World (Holdings τ) ω}
    (entry : w.context.at? storeKey = some ⟨⟨type, .store id⟩, callScoped⟩)
    (shown : log? w.outside = some log) (unstaged : log.staged = []) :
    ∃ invocation rows w', Writes redacted e x invocation rows ∧
      ((handler name type owner redacted e.type).invoke (.event e) x).Returns w invocation
        w' ∧
      w'.context = w.context ∧
      log? w'.outside = some ⟨[], log.committed ++ rows, log.closes + 1⟩ := by
  obtain ⟨invocation, rows, v', writes, invoked, contextEq, shownAfter⟩ :=
    lifecycle_invoke_returns (v := w.view owner) inMemory entry shown unstaged
  refine ⟨invocation, rows, w.putView owner v', writes, ?_, contextEq, shownAfter⟩
  rw [Handler.invoke, if_neg (fun other => other rfl)]
  exact (returns_within_iff _ _ _ _ _ _).mpr ⟨v', invoked, rfl⟩

end AuditLogger

end Courier
