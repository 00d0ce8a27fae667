import Courier.Text.Digits
import Courier.Text.Ranges
import Courier.Text.Reader

/-!
# Atoms of patterns

The smallest parts of a pattern: characters, escapes and assertions.  Which of them
may stand in a pattern depends on the modes that hold at their place.  There are no
tables of scripts and cases behind a pattern: its classes by property, and letters
that stand for both of their cases, exist for ASCII alone.
-/

namespace Courier.Text.Pattern

/-- How the parts of a pattern are meant. -/
structure Modes where
  /-- Only ASCII is meant. -/
  ascii : Bool := false
  /-- A letter stands for both of its cases. -/
  caseless : Bool := false
  /-- White space and comments between the parts do not count. -/
  spaced : Bool := false
deriving DecidableEq, Repr, Inhabited

namespace Modes

/-- Turn the mode of a letter on or off; other letters have no bearing on whether a
pattern is well-formed. -/
def set (m : Modes) (letter : Char) (on : Bool) : Modes :=
  match letter with
  | 'u' => { m with ascii := !on }
  | 'i' => { m with caseless := on }
  | 'x' => { m with spaced := on }
  | _ => m

/-- The letters of all modes. -/
def letters : List Char :=
  ['i', 'm', 's', 'U', 'u', 'R', 'x']

/-- Whether a character may be meant by itself. -/
def admits (m : Modes) (c : Char) : Bool :=
  if m.ascii then c.toNat < 128 else !m.caseless

end Modes

/-- The input without white space and comments at its front; a comment goes from a
hash to the end of its line. -/
def dropSpace (inComment : Bool) : List Char → List Char
  | [] => []
  | c :: rest =>
      if inComment then dropSpace (c != '\n') rest
      else if isBlank c then dropSpace false rest
      else if c = '#' then dropSpace true rest
      else c :: rest

/-- The input without what does not count at its front. -/
def skip (m : Modes) (s : List Char) : List Char :=
  if m.spaced then dropSpace false s else s

/-- A smallest part. -/
inductive Atom where
  | literal (c : Char)
  /-- Any character but the end of a line. -/
  | any
  /-- The digits, the blanks or the characters of words, or all others. -/
  | shorthand (negated : Bool)
  /-- The start or end of the text, of a line or of a word. -/
  | edge (ofWord : Bool)
deriving DecidableEq, Repr

/-- Whether an atom may stand in a pattern. -/
def Atom.isAllowed (m : Modes) : Atom → Bool
  | literal c => m.admits c
  | any => !m.ascii
  | shorthand negated => m.ascii && !negated
  | edge ofWord => !ofWord || m.ascii

/-- Hexadecimal digits of a fixed number. -/
def hexRun (m : Modes) : (count : Nat) → Reader (List Char)
  | 0, s => some ([], s)
  | count + 1, s =>
      match skip m s with
      | [] => none
      | c :: rest =>
          if (hexValue? c).isSome then
            (hexRun m count rest).map fun r => (c :: r.1, r.2)
          else none

/-- A character given by its code point. -/
def hexLiteral (m : Modes) (count : Nat) : Reader Atom := fun s => do
  let (digits, s) ← hexRun m count s
  return (.literal (← codePoint? digits), s)

/-- Whether a character stands for itself after a backslash. -/
def isEscapable (c : Char) : Bool :=
  c.toNat < 128 && !c.isAlphanum && c != '<' && c != '>'

/-- What stands after a backslash. -/
def escape (m : Modes) : Reader Atom
  | [] => none
  | c :: rest =>
      match c with
      | 'x' => hexLiteral m 2 rest
      | 'u' => hexLiteral m 4 rest
      | 'U' => hexLiteral m 8 rest
      | 'd' | 's' | 'w' => some (.shorthand false, rest)
      | 'D' | 'S' | 'W' => some (.shorthand true, rest)
      | 'A' | 'z' => some (.edge false, rest)
      | 'b' | 'B' | '<' | '>' => some (.edge true, rest)
      | 'a' => some (.literal '\x07', rest)
      | 'f' => some (.literal '\x0c', rest)
      | 't' => some (.literal '\t', rest)
      | 'n' => some (.literal '\n', rest)
      | 'r' => some (.literal '\r', rest)
      | 'v' => some (.literal '\x0b', rest)
      | c => if isEscapable c then some (.literal c, rest) else none

/-- An atom outside of classes. -/
def atom (m : Modes) : Reader Atom
  | [] => none
  | '\\' :: rest => escape m rest
  | '.' :: rest => some (.any, rest)
  | '^' :: rest => some (.edge false, rest)
  | '$' :: rest => some (.edge false, rest)
  | c :: rest => some (.literal c, rest)

end Courier.Text.Pattern
