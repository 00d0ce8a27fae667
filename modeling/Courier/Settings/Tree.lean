import Courier.Decimal.Extended
import Courier.Json.Basic
import Courier.Text.Quoted

/-!
# Trees of settings

What a source of settings says, before it is known whether it fits: tables of
values by key.  Trees are laid over each other: tables are united key by key, and
everything else is replaced as a whole.

The entries of a table are listed by increasing key; `insertEntry` keeps that
order.
-/

namespace Courier

/-- A value in a source of settings. -/
inductive Tree where
  | null
  | bool (b : Bool)
  /-- An integer, and whether its source has integers with sign there. -/
  | integer (signed : Bool) (z : Int)
  | real (x : Extended)
  /-- A text of one character that is given as a character. -/
  | letter (c : Char)
  | text (s : String)
  | list (items : List Tree)
  | table (entries : List (String × Tree))
deriving Repr, Inhabited

namespace Tree

/-- The tree without entries. -/
def empty : Tree :=
  table []

/-- The entries of a table. -/
def entries : Tree → List (String × Tree)
  | table entries => entries
  | _ => []

/-- Put a value under a key of a table. -/
def put (t : Tree) (key : String) (value : Tree) : Tree :=
  table (insertEntry key value t.entries)

/-! ## Laying trees over each other -/

mutual

/-- The tree `high` laid over `low`: it decides wherever it says anything. -/
def overlay (low : Tree) : (high : Tree) → Tree
  | table highEntries => table (overlayEntries low.entries highEntries)
  | null => null
  | bool b => bool b
  | integer signed z => integer signed z
  | real x => real x
  | letter c => letter c
  | text s => text s
  | list items => list items

/-- Entries laid over entries. -/
def overlayEntries (low : List (String × Tree)) :
    (high : List (String × Tree)) → List (String × Tree)
  | [] => low
  | (key, value) :: rest =>
      let merged :=
        match low.lookup key with
        | some under => under.overlay value
        | none => value
      overlayEntries (insertEntry key merged low) rest

end

/-- Trees laid over each other, the last one on top. -/
def stack (trees : List Tree) : Tree :=
  trees.foldl overlay empty

/-! ## Places in a tree -/

/-- The value at a place, given by the keys of tables and the indices of lists
that lead there. -/
def at? : (path : List String) → Tree → Option Tree
  | [], t => some t
  | key :: path, table entries => (entries.lookup key).bind (at? path)
  | key :: path, list items => (key.toNat?.bind fun i => items[i]?).bind (at? path)
  | _ :: _, _ => none

/-- What a value is, in a message about it. -/
def describe : Tree → String
  | null => "option"
  | bool b => "bool " ++ (if b then "true" else "false")
  | integer true z => "signed int `" ++ toString z ++ "`"
  | integer false z => "unsigned int `" ++ toString z ++ "`"
  | real x => "float `" ++ x.text ++ "`"
  | letter c => "string " ++ Text.quoted (String.singleton c)
  | text s => "string " ++ Text.quoted s
  | list _ => "sequence"
  | table _ => "map"

/-! ## Trees and documents -/

mutual

/-- The document that says the same.  A document has no infinite numbers: finite
ones stand for them. -/
def toJson : Tree → Json
  | null => .null
  | bool b => .bool b
  | integer _ z => .int z
  | real x => .number (.real x.nearest)
  | letter c => .string (String.singleton c)
  | text s => .string s
  | list items => .array (itemsToJson items)
  | table entries => .object (entriesToJson entries)

/-- Items as documents. -/
def itemsToJson : List Tree → List Json
  | [] => []
  | t :: rest => t.toJson :: itemsToJson rest

/-- Entries as fields. -/
def entriesToJson : List (String × Tree) → List (String × Json)
  | [] => []
  | (key, t) :: rest => (key, t.toJson) :: entriesToJson rest

end

mutual

/-- The tree that says the same as a document. -/
def ofJson : Json → Tree
  | .null => null
  | .bool b => bool b
  | .number (.integer z) => integer true z
  | .number (.real x) => real (.finite x)
  | .string s => text s
  | .array elements => list (itemsOfJson elements)
  | .object fields => table (entriesOfJson fields)

/-- Elements as items. -/
def itemsOfJson : List Json → List Tree
  | [] => []
  | a :: rest => ofJson a :: itemsOfJson rest

/-- Fields as entries. -/
def entriesOfJson : List (String × Json) → List (String × Tree)
  | [] => []
  | (key, a) :: rest => (key, ofJson a) :: entriesOfJson rest

end

end Tree

end Courier
