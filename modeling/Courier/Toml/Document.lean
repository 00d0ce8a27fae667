import Courier.Toml.Moment
import Courier.Toml.Number
import Courier.Toml.Table

/-!
# TOML files

A file is a sequence of lines: headers that open tables, and keys with their
values.  Reading gives the tree of the whole file, or fails if any line cannot
stand where it stands.
-/

namespace Courier.Toml

open Text (Reader)

/-! ## Values -/

/-- A value that is neither a list nor a table. -/
def scalar : Reader Tree
  | [] => none
  | c :: rest =>
      if c = '"' ∨ c = '\'' then (stringAfter c rest).map fun r => (.text r.1, r.2)
      else
        match c :: rest with
        | 't' :: 'r' :: 'u' :: 'e' :: rest => some (.bool true, rest)
        | 'f' :: 'a' :: 'l' :: 's' :: 'e' :: rest => some (.bool false, rest)
        | s => (moment s).or ((real s).or (integer s))

/-- The items of a list, after its opening bracket; a comma may follow the last
one.  `fuel` bounds their number. -/
def items (value : Reader Tree) : (fuel : Nat) → Reader (List Tree)
  | 0, _ => none
  | fuel + 1, s =>
      match skipGaps false s with
      | ']' :: rest => some ([], rest)
      | s => do
          let (t, s) ← value s
          match skipGaps false s with
          | ']' :: rest => return ([t], rest)
          | ',' :: rest => do
              let (ts, s) ← items value fuel rest
              return (t :: ts, s)
          | _ => none

/-- A key with its value. -/
def pair (value : Reader Tree) : Reader (List String × Tree) := fun s => do
  let (path, s) ← key s
  match s with
  | '=' :: s => do
      let (t, s) ← value (skipBlanks s)
      return ((path, t), s)
  | _ => none

/-- The keys and values of a table between braces, after the first of them;
`fuel` bounds their number. -/
def pairs (value : Reader Tree) : (fuel : Nat) → Reader (List (List String × Tree))
  | 0, _ => none
  | fuel + 1, s => do
      let (p, s) ← pair value s
      match skipBlanks s with
      | '\x7d' :: rest => return ([p], rest)
      | ',' :: rest => do
          let (ps, s) ← pairs value fuel rest
          return (p :: ps, s)
      | _ => none

/-- A table between braces, after the first of them. -/
def inlineTable (value : Reader Tree) : Reader Tree := fun s =>
  match skipBlanks s with
  | '\x7d' :: rest => some (.empty, rest)
  | s => do
      let (ps, rest) ← pairs value s.length s
      let entries ← ps.foldlM (fun entries p => Entries.putAt p.1 p.2 .declared entries) []
      return (.table (entriesToTree entries), rest)

/-- A value with at most `depth` lists and tables around its innermost parts. -/
def value : (depth : Nat) → Reader Tree
  | 0, s => scalar s
  | depth + 1, s =>
      match s with
      | '[' :: rest => (items (value depth) s.length rest).map fun r => (.list r.1, r.2)
      | '\x7b' :: rest => inlineTable (value depth) rest
      | s => scalar s

/-! ## Lines -/

/-- What has been read of a file. -/
structure Draft where
  root : Entries := []
  /-- The table of the last header. -/
  opened : List String := []

namespace Draft

/-- Open the table of a header. -/
def open? (change : String → Change) (path : List String) (d : Draft) : Option Draft := do
  let key ← path.getLast?
  let root ← Entries.alter (change key) false path.dropLast .declared d.root
  return ⟨root, path⟩

/-- Put a value under a key of the table that is open. -/
def put? (path : List String) (t : Tree) (d : Draft) : Option Draft := do
  let root ← Entries.alter (Entries.putAt path t) false d.opened .declared d.root
  return { d with root }

/-- What the file says. -/
def tree (d : Draft) : Tree :=
  .table (entriesToTree d.root)

end Draft

/-- Characters that have to stand there. -/
def word : List Char → List Char → Option (List Char)
  | [], s => some s
  | _ :: _, [] => none
  | c :: cs, d :: s => if c = d then word cs s else none

/-- The rest of a header, after its brackets. -/
def header (closing : List Char) : Reader (List String) := fun s => do
  let (path, s) ← key s
  return (path, ← lineTail? (← word closing s))

/-- One line that starts with something else than blanks. -/
def line (d : Draft) : Reader Draft
  | '[' :: '[' :: rest => do
      let (path, s) ← header [']', ']'] rest
      return (← d.open? Entries.declareNext path, s)
  | '[' :: rest => do
      let (path, s) ← header [']'] rest
      return (← d.open? Entries.declare path, s)
  | s => do
      let ((path, t), s) ← pair (value (depthLimit - 1)) s
      return (← d.put? path t, ← lineTail? s)

/-- Read line after line; `fuel` bounds their number. -/
def lines : (fuel : Nat) → Draft → List Char → Option Draft
  | 0, _, _ => none
  | fuel + 1, d, s =>
      match skipBlanks s with
      | [] => some d
      | s =>
          match lineTail? s with
          | some rest => lines fuel d rest
          | none => do
              let (d, rest) ← line d s
              lines fuel d rest

/-- The mark that may stand at the front of a file. -/
def byteOrderMark : Char := Char.ofNat 0xFEFF

/-- The tree of a file. -/
def parse (text : String) : Option Tree :=
  let s := text.toList
  let s := if s.head? = some byteOrderMark then s.drop 1 else s
  (lines (s.length + 2) {} s).map Draft.tree

end Courier.Toml
