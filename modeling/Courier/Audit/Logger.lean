import Courier.Audit.Store
import Courier.Handler.Holdings

/-!
# The audit logger

A handler that writes a row for every event it gets.  Each invocation takes the
store out of the context, adds and commits its row, and closes the store.
-/

namespace Courier.AuditLogger

variable {τ ω : Type} [AuditStores ω]

/-- The key of the store in the context. -/
def storeKey : String := "event_log"

/-- Take the store out of the context; `type` is the type it has to have there. -/
def acquire (type : TypeName) : Proc (View (Holdings τ) ω) (Except HandlerError Unit) := do
  match (← Proc.get).context.require storeKey type with
  | .error e => return .error (.context e)
  | .ok ⟨_, .store id⟩ => do
      Proc.modify (View.holdStore (some id))
      return .ok ()
  | .ok _ => return .error (.context (.missing storeKey))

/-- The result of an invocation that has written a row. -/
def written (row : Row) : Value :=
  ⟨TypeName.rowId, .row row.id⟩

/-- Add a row to a store and commit it. -/
def store (id : StoreId) (row : Row) : Proc (View (Holdings τ) ω) (Except HandlerError Value) := do
  match ← View.outer (AuditStores.add id row) with
  | .error e => return .error e
  | .ok () =>
      match ← View.outer (AuditStores.commit id) with
      | .error e => return .error e
      | .ok () => return .ok (written row)

/-- Write the row of an event to the store that is held. -/
def write (redacted : List String) (e : Event) (x : Extra) :
    Proc (View (Holdings τ) ω) (Except HandlerError Value) := do
  match (← Proc.get).own.store with
  | none => return .error (.failed "event log store was not acquired")
  | some id => do
      let stamp ← View.outer AuditStores.stamp
      match Row.record stamp e redacted with
      | .error error => return .error (.codec error)
      | .ok row => do
          let row := row.withExtra x
          Proc.tell (.note .debug "Recording event" [("event", e.name), ("row", row.id.text)])
          store id row

/-- Close the store that is held, if one is, and let it go. -/
def letGo : Proc (View (Holdings τ) ω) Unit := do
  let held := (← Proc.get).own.store
  Proc.modify (View.holdStore none)
  match held with
  | some id => View.outer (AuditStores.close id)
  | none => return ()

/-- The procedures of a logger. -/
def lifecycle (type : TypeName) (redacted : List String) : Lifecycle (Holdings τ) ω where
  before := acquire type
  core m x :=
    match m with
    | .event e => do return ⟨← write redacted e x, []⟩
    | .command c => return .mismatch c.type m
  after := letGo

/-- A logger for the events of one type. -/
def handler (name : String) (type : TypeName) (owner : InstanceId) (redacted : List String)
    (accepts : MessageType) : Handler (Holdings τ) ω where
  name := name
  accepts := accepts
  behavior := .stateful owner (lifecycle type redacted)

end Courier.AuditLogger
