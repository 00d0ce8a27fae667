import Courier.Audit.Store
import Courier.Context
import Courier.Notify.Mailer
import Courier.Table

/-!
# Surroundings for trying out a bus

A world outside the bus that can be looked at afterwards: stores that refuse
chosen operations, a mailer that keeps what it is given, a trace of what handlers
say, and counters.
-/

namespace Courier

/-- A store in memory that refuses some of its operations, counted from one. -/
structure PlannedStore where
  rows : RowStore := {}
  adds : Nat := 0
  commits : Nat := 0
  refusedAdds : List Nat := []
  refusedCommits : List Nat := []
deriving Inhabited

namespace PlannedStore

/-- Stage a row, unless this operation is refused. -/
def add (s : PlannedStore) (row : Row) : Except HandlerError Unit × PlannedStore :=
  let k := s.adds + 1
  if k ∈ s.refusedAdds then
    (.error (.failed ("add " ++ toString k ++ " refused")), { s with adds := k })
  else (.ok (), { s with adds := k, rows := s.rows.add row })

/-- Commit the staged rows, unless this operation is refused. -/
def commit (s : PlannedStore) : Except HandlerError Unit × PlannedStore :=
  let k := s.commits + 1
  if k ∈ s.refusedCommits then
    (.error (.failed ("commit " ++ toString k ++ " refused")), { s with commits := k })
  else (.ok (), { s with commits := k, rows := s.rows.commit })

/-- Drop the staged rows. -/
def close (s : PlannedStore) : PlannedStore :=
  { s with rows := s.rows.close }

end PlannedStore

/-- Everything outside a bus that its handlers can reach. -/
structure Surroundings where
  /-- The stores, by number. -/
  stores : List PlannedStore := [{}]
  /-- The mails that the keeping mailer was given. -/
  sent : List Mail := []
  /-- How many rows have been given a number. -/
  stamps : Nat := 0
  /-- What handlers have said. -/
  trace : List String := []
  /-- Counters of plain handlers. -/
  tallies : Table Nat Int := .empty
  /-- The keys under which objects have been put into a context, by number of
  the object. -/
  objects : List String := []
deriving Inhabited

namespace Surroundings

/-- The store with a given number. -/
def store (s : Surroundings) (id : StoreId) : PlannedStore :=
  s.stores[id]?.getD {}

/-- Change the store with a given number. -/
def putStore (s : Surroundings) (id : StoreId) (store : PlannedStore) : Surroundings :=
  { s with stores := s.stores.set id store }

/-- Add something to the trace. -/
def say (s : Surroundings) (text : String) : Surroundings :=
  { s with trace := s.trace ++ [text] }

/-- The mailer that only logs. -/
def loggingMailer : MailerId := 0

/-- The mailer that keeps what it is given. -/
def keepingMailer : MailerId := 1

/-- The number and time of the next row. -/
def nextStamp (s : Surroundings) : Stamp :=
  ⟨⟨s.stamps + 1⟩, ⟨s.stamps, 0⟩⟩

/-- Keep a mail, unless its recipient is not one. -/
def keep (mail : Mail) : Proc Surroundings (Except HandlerError Unit) :=
  if '!' ∈ mail.recipient.toList then
    .done (.error (.rejected ("bad recipient " ++ mail.recipient)))
  else do
    Proc.modify fun s => { s with sent := s.sent ++ [mail] }
    return .ok ()

instance : AuditStores Surroundings where
  stamp := do
    let s ← Proc.get
    Proc.modify fun s => { s with stamps := s.stamps + 1 }
    return s.nextStamp
  add id row := do
    let (result, store) := ((← Proc.get).store id).add row
    Proc.modify fun s => s.putStore id store
    return result
  commit id := do
    let (result, store) := ((← Proc.get).store id).commit
    Proc.modify fun s => s.putStore id store
    return result
  close id := Proc.modify fun s => s.putStore id (s.store id).close

instance : Mailers Surroundings where
  send id mail := if id = loggingMailer then mail.logOnly else keep mail

end Surroundings

/-- What is to be put into a context. -/
inductive Supply where
  | given (v : Value)
  /-- A store of its own. -/
  | newStore
  /-- An object of its own. -/
  | newObject (type : TypeName)
deriving Inhabited

namespace Supply

/-- Make the value that is to be put under a key. -/
def make (key : String) (s : Surroundings) : Supply → Value × Surroundings
  | given v => (v, s)
  | newStore =>
      (⟨TypeName.store, .store s.stores.length⟩, { s with stores := s.stores ++ [{}] })
  | newObject type =>
      (⟨type, .object s.objects.length⟩, { s with objects := s.objects ++ [key] })

end Supply

namespace Content

/-- How a value is shown. -/
def shown : Content → Json
  | unit => .null
  | int z => .int z
  | bool b => .bool b
  | text s => .string s
  | ints zs => .array (zs.map .int)
  | json a => a
  | row id => .string id.text
  | delivery .logged => .string "Logged"
  | delivery .sent => .string "Sent"
  | store _ => .string "a store"
  | mailer _ => .string "a Mailer"
  | object _ => .string "a Probe"

end Content

namespace Value

/-- How a value is shown. -/
def shown (v : Value) : Json :=
  if v.type = TypeName.logMailer then .string "a LogMailer" else v.content.shown

end Value

end Courier
