import Courier.Text.Pattern.Atom

/-!
# Classes of characters in patterns

A class stands between brackets: characters, ranges, shorthands, named classes and
further classes, joined by `&&`, `--` and `~~`.  Reading a class tells how deeply it
is nested.
-/

namespace Courier.Text.Pattern

/-- The depth of several parts side by side: a single one is as deep as it is. -/
def sideBySide (depths : List Nat) : Nat :=
  match depths with
  | [] => 0
  | [depth] => depth
  | depths => depths.foldl max 0 + 1

/-- The names of the named classes. -/
def classNames : List String :=
  ["alnum", "alpha", "ascii", "blank", "cntrl", "digit", "graph", "lower", "print", "punct",
   "space", "upper", "word", "xdigit"]

/-- A named class after its opening bracket: whether it is negated. -/
def namedClass : Reader Bool := fun s =>
  match s with
  | ':' :: s =>
      let (negated, s) :=
        match s with
        | '^' :: s => (true, s)
        | s => (false, s)
      match s.span fun c => c != ':' with
      | (name, ':' :: ']' :: rest) =>
          if classNames.contains (String.ofList name) then some (negated, rest) else none
      | _ => none
  | _ => none

/-- Whether a named class may stand in a pattern. -/
def allowsNamedClass (m : Modes) (negated : Bool) : Bool :=
  if m.ascii then !negated else !m.caseless

/-- A character or escape in a class. -/
def classAtom (m : Modes) : Reader Atom
  | [] => none
  | '\\' :: rest => escape m rest
  | c :: rest => some (.literal c, rest)

/-- Whether an atom may stand in a class by itself. -/
def Atom.isMember (m : Modes) : Atom → Bool
  | literal c => (literal c).isAllowed m
  | shorthand negated => (shorthand negated).isAllowed m
  | any | edge _ => false

/-- Whether two atoms are the ends of a range. -/
def isRange (m : Modes) : Atom → Atom → Bool
  | .literal a, .literal b => a ≤ b && m.admits a && m.admits b
  | _, _ => false

/-- The input after white space at its front, a hash and white space again. -/
def afterSpace (m : Modes) (s : List Char) : List Char :=
  if m.spaced then
    match s.dropWhile isBlank with
    | '#' :: s => s.dropWhile isBlank
    | s => s
  else s

/-- A character, an escape or a range; what is left of the input. -/
def classItem? (m : Modes) (s : List Char) : Option (List Char) := do
  let (a, s) ← classAtom m s
  match skip m s with
  | [] => none
  | '-' :: rest =>
      match afterSpace m rest with
      | ']' :: _ | '-' :: _ => if a.isMember m then some ('-' :: rest) else none
      | _ => do
          let (b, s) ← classAtom m (skip m rest)
          if isRange m a b then some s else none
  | s => if a.isMember m then some s else none

/-- The hyphens at the front of a class; `fuel` bounds their number. -/
def classHyphens (m : Modes) : (fuel : Nat) → List Char → Nat × List Char
  | 0, s => (0, s)
  | fuel + 1, s =>
      match s with
      | '-' :: rest =>
          let (count, s) := classHyphens m fuel (skip m rest)
          (count + 1, s)
      | s => (0, s)

/-- The front of a class after its opening bracket: hyphens that stand for themselves,
or a closing bracket that does.  Tells how many of them there are. -/
def classFront (m : Modes) : Reader Nat := fun s =>
  let (negated, s) :=
    match skip m s with
    | '^' :: rest => (true, skip m rest)
    | s => (false, s)
  let (count, s) :=
    match classHyphens m s.length s with
    | (0, ']' :: rest) => (1, skip m rest)
    | r => r
  if (negated && m.ascii) || (0 < count && !m.admits '-') then none else some (count, s)

/-- The depth of a class: of its last operand, and of all to the left of it. -/
def classDepth (left : Option Nat) (items : List Nat) : Nat :=
  match left with
  | none => sideBySide items
  | some depth => max depth (sideBySide items) + 1

/-- The rest of a class up to its closing bracket: how deeply it is nested.  `items`
holds the depths of what was read of the last operand, and `left` that of what is to
the left of it; `fuel` bounds the number of parts. -/
def classRest (m : Modes) : (fuel : Nat) → (left : Option Nat) → (items : List Nat) → Reader Nat
  | 0, _, _, _ => none
  | fuel + 1, left, items, s =>
      match skip m s with
      | [] => none
      | ']' :: rest => some (classDepth left items, rest)
      | '&' :: '&' :: rest => classRest m fuel (some (classDepth left items)) [] rest
      | '-' :: '-' :: rest => classRest m fuel (some (classDepth left items)) [] rest
      | '~' :: '~' :: rest => classRest m fuel (some (classDepth left items)) [] rest
      | '[' :: rest =>
          match namedClass rest with
          | some (negated, rest) =>
              if allowsNamedClass m negated then classRest m fuel left (0 :: items) rest else none
          | none => do
              let (count, rest) ← classFront m rest
              let (depth, rest) ← classRest m fuel none (List.replicate count 0) rest
              classRest m fuel left ((depth + 1) :: items) rest
      | s => do classRest m fuel left (0 :: items) (← classItem? m s)

/-- A class after its opening bracket: how deeply it is nested. -/
def charClass (m : Modes) : Reader Nat := fun s => do
  let (count, s) ← classFront m s
  let (depth, s) ← classRest m (s.length + 1) none (List.replicate count 0) s
  return (depth + 1, s)

end Courier.Text.Pattern
