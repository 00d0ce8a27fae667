import Courier.Text.Alphanumeric
import Courier.Text.Pattern.CharClass

/-!
# Patterns

Which texts are well-formed patterns: alternatives of sequences of atoms, classes and
groups, each of which may be repeated.  Patterns are checked here and not matched.

A pattern holds no closing brace outside of a class, so that counted repetitions and
names between braces do not occur.
-/

namespace Courier.Text.Pattern

/-! ## The front of a group -/

/-- Whether a character may stand in the name of a group. -/
def isNameChar (first : Bool) (c : Char) : Bool :=
  c == '_' ||
    if first then isAlphabetic c else c == '.' || c == '[' || c == ']' || isAlphanumeric c

/-- The name of a group with the angle bracket that closes it. -/
def groupName : Reader String := fun s =>
  match s.span fun c => c != '>' with
  | (c :: name, _ :: rest) =>
      if isNameChar true c && name.all (isNameChar false) then
        some (String.ofList (c :: name), rest)
      else none
  | _ => none

/-- How a group starts. -/
inductive GroupFront where
  /-- It holds a pattern of its own, and may have a name. -/
  | opened (modes : Modes) (name : Option String)
  /-- It only sets modes for what follows. -/
  | settings (modes : Modes)

/-- The letters of modes up to the mark that ends them; after a hyphen they are turned
off.  `seen` holds what was read, last first: nothing may come twice, and the hyphen
may not come last. -/
def groupModes (modes : Modes) (seen : List Char) : Reader GroupFront
  | [] => none
  | c :: rest =>
      if c = ':' ∨ c = ')' then
        if seen.head? = some '-' then none
        else if c = ':' then some (.opened modes none, rest)
        else if seen.isEmpty then none
        else some (.settings modes, rest)
      else if seen.contains c then none
      else if c = '-' then groupModes modes (c :: seen) rest
      else if Modes.letters.contains c then
        groupModes (modes.set c (!seen.contains '-')) (c :: seen) rest
      else none

/-- The front of a group after its parenthesis. -/
def groupFront (modes : Modes) : Reader GroupFront := fun s =>
  let named (s : List Char) :=
    (groupName s).map fun r => (GroupFront.opened modes (some r.1), r.2)
  match skip modes s with
  | '?' :: 'P' :: '<' :: rest => named rest
  | '?' :: '<' :: rest => named rest
  | '?' :: rest => groupModes modes [] rest
  | s => some (.opened modes none, s)

/-! ## The whole -/

/-- What has been read of a pattern or of a group. -/
structure Reading where
  modes : Modes := {}
  /-- The names of all groups so far. -/
  names : List String := []
  /-- The depths of the alternatives to the left. -/
  alternatives : List Nat := []
  /-- The depths of the parts of the last alternative, last first; a setting of modes
  has none and cannot be repeated. -/
  parts : List (Option Nat) := []

namespace Reading

/-- The depth of the last alternative. -/
def partsDepth (p : Reading) : Nat :=
  sideBySide (p.parts.map fun depth => depth.getD 0)

/-- The depth of all that has been read. -/
def depth (p : Reading) : Nat :=
  sideBySide (p.partsDepth :: p.alternatives)

/-- The same with one more part. -/
def push (p : Reading) (depth : Option Nat) : Reading :=
  { p with parts := depth :: p.parts }

/-- The last part repeated. -/
def repeated? (p : Reading) : Option Reading :=
  match p.parts with
  | some depth :: parts => some { p with parts := some (depth + 1) :: parts }
  | _ => none

/-- Start one more alternative. -/
def nextAlternative (p : Reading) : Reading :=
  { p with alternatives := p.partsDepth :: p.alternatives, parts := [] }

/-- Enter the name of a group, which must be new. -/
def enter? (p : Reading) (name : Option String) : Option Reading :=
  match name with
  | none => some p
  | some name => if p.names.contains name then none else some { p with names := name :: p.names }

end Reading

/-- Read up to the parenthesis that closes a group, or to the end; `fuel` bounds the
number of parts. -/
def read : (fuel : Nat) → Reading → Reader Reading
  | 0, _, _ => none
  | fuel + 1, p, s =>
      match skip p.modes s with
      | [] => some (p, [])
      | ')' :: rest => some (p, ')' :: rest)
      | '|' :: rest => read fuel p.nextAlternative rest
      | '[' :: rest => do
          let (depth, rest) ← charClass p.modes rest
          read fuel (p.push (some depth)) rest
      | '(' :: rest => do
          let (front, rest) ← groupFront p.modes rest
          match front with
          | .settings modes => read fuel { p.push none with modes } rest
          | .opened modes name =>
              let p ← p.enter? name
              let (inner, rest) ← read fuel { modes, names := p.names } rest
              match rest with
              | ')' :: rest =>
                  read fuel { p.push (some (inner.depth + 1)) with names := inner.names } rest
              | _ => none
      | '\x7b' :: _ => none
      | c :: rest =>
          if c = '*' ∨ c = '+' ∨ c = '?' then do
            let p ← p.repeated?
            match rest with
            | '?' :: rest => read fuel p rest
            | rest => read fuel p rest
          else do
            let (a, rest) ← atom p.modes (c :: rest)
            if a.isAllowed p.modes then read fuel (p.push (some 0)) rest else none

/-- How deeply a pattern may be nested. -/
def maxDepth : Nat := 250

/-- Whether a text is a pattern. -/
def isWellFormed (s : List Char) : Bool :=
  match read (s.length + 1) {} s with
  | some (p, []) => p.depth ≤ maxDepth
  | _ => false

end Courier.Text.Pattern
