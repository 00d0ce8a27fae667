import Courier.Settings.Tree

/-!
# Tables under construction

While a file is read, it matters how each table came about: one that was only
passed through may still get a header of its own, one that was made by a key with
points may get more of such keys, and one with a header is closed to them.
-/

namespace Courier.Toml

/-- How a table came about. -/
inductive Making where
  /-- By a header or between braces. -/
  | declared
  /-- By a header of a table inside it. -/
  | passed
  /-- By a key with points. -/
  | dotted
deriving DecidableEq, Repr, Inhabited

/-- What stands under a key. -/
inductive Item where
  | value (t : Tree)
  | table (making : Making) (entries : List (String × Item))
  /-- A list of tables that have a header each. -/
  | tables (elements : List (List (String × Item)))
deriving Inhabited

/-- What stands under the keys of a table. -/
abbrev Entries : Type :=
  List (String × Item)

/-- A change of a table, if it is allowed. -/
abbrev Change : Type :=
  Making → Entries → Option Entries

namespace Entries

/-- Change the table that a path of keys leads to; tables on the way are made if
they are missing.  A list of tables leads to its last one. -/
def alter (change : Change) (byDots : Bool) : (path : List String) → Change
  | [], making, entries => change making entries
  | key :: path, _, entries =>
      match entries.lookup key with
      | none => do
          let making := if byDots then Making.dotted else Making.passed
          let inner ← alter change byDots path making []
          return insertEntry key (.table making inner) entries
      | some (.table making inner) =>
          if byDots ∧ making = .declared then none
          else do
            let inner ← alter change byDots path making inner
            return insertEntry key (.table making inner) entries
      | some (.tables elements) => do
          let inner ← alter change byDots path .declared (← elements.getLast?)
          return insertEntry key (.tables (elements.dropLast ++ [inner])) entries
      | some (.value _) => none

/-- Put a value under a key that is still free; only a table that was made by
points takes a key with points. -/
def putNew (key : String) (t : Tree) (byDots : Bool) : Change := fun making entries =>
  if byDots ∧ making ≠ .dotted then none
  else if (entries.lookup key).isSome then none
  else some (insertEntry key (.value t) entries)

/-- Put a value under a key with points. -/
def putAt (path : List String) (t : Tree) : Change := fun making entries => do
  let key ← path.getLast?
  let byDots := 1 < path.length
  alter (putNew key t byDots) byDots path.dropLast making entries

/-- Open a table with a header. -/
def declare (key : String) : Change := fun _ entries =>
  match entries.lookup key with
  | none => some (insertEntry key (.table .declared []) entries)
  | some (.table .passed inner) => some (insertEntry key (.table .declared inner) entries)
  | some _ => none

/-- Open one more table of a list with a header. -/
def declareNext (key : String) : Change := fun _ entries =>
  match entries.lookup key with
  | none => some (insertEntry key (.tables [[]]) entries)
  | some (.tables elements) => some (insertEntry key (.tables (elements ++ [[]])) entries)
  | some _ => none

end Entries

mutual

/-- What an item says. -/
def Item.toTree : Item → Tree
  | .value t => t
  | .table _ entries => .table (entriesToTree entries)
  | .tables elements => .list (elementsToTree elements)

/-- What entries say. -/
def entriesToTree : List (String × Item) → List (String × Tree)
  | [] => []
  | (key, item) :: rest => (key, item.toTree) :: entriesToTree rest

/-- What the tables of a list say. -/
def elementsToTree : List (List (String × Item)) → List Tree
  | [] => []
  | entries :: rest => .table (entriesToTree entries) :: elementsToTree rest

end

end Courier.Toml
