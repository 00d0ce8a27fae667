import Courier.Audit.Row
import Courier.Handler.Proc
import Courier.Value

/-!
# Stores of audit rows

A row that is added is staged until the next commit; closing a store drops what
is staged.
-/

namespace Courier

/-- A store that keeps its rows in memory. -/
structure RowStore where
  staged : List Row := []
  committed : List Row := []
  /-- How often the store has been closed. -/
  closes : Nat := 0
deriving DecidableEq, Inhabited

namespace RowStore

/-- Stage a row. -/
def add (s : RowStore) (row : Row) : RowStore :=
  { s with staged := s.staged ++ [row] }

/-- Commit all staged rows. -/
def commit (s : RowStore) : RowStore :=
  { s with staged := [], committed := s.committed ++ s.staged }

/-- Drop all staged rows. -/
def close (s : RowStore) : RowStore :=
  { s with staged := [], closes := s.closes + 1 }

end RowStore

/-- A world outside the bus that has stores of audit rows.  What they do is up to
them: they may refuse, suspend or crash. -/
class AuditStores (ω : Type) where
  /-- A new row number and the time. -/
  stamp : Proc ω Stamp
  add : StoreId → Row → Proc ω (Except HandlerError Unit)
  commit : StoreId → Proc ω (Except HandlerError Unit)
  close : StoreId → Proc ω Unit

end Courier
