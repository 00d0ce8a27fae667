import Courier.Settings.Tree
import Courier.Text.Digits
import Courier.Text.Reader

/-!
# Settings in environment variables

A variable whose name starts with a fixed word holds one value; the rest of its
name gives the keys that lead there.  The value is written in a small notation
with booleans, numbers, lists and tables.  Whatever is not well-formed in that
notation is a plain text.
-/

namespace Courier.Environment

open Text (Reader codePoint? decimalNumber isNumeral splitSign)

/-! ## Values -/

/-- The characters that count as white space between values. -/
def isBlank (c : Char) : Bool :=
  c == ' ' || c == '\t' || c == '\n' || c == '\r' || c == '\x0c'

/-- The input without the white space at its front. -/
def skipBlanks (s : List Char) : List Char :=
  s.dropWhile isBlank

/-- The characters that end a bare value. -/
def isSeparator (c : Char) : Bool :=
  c == ',' || c == '[' || c == ']' || c == '\x7b' || c == '\x7d'

/-- The characters of a bare key. -/
def isKeyChar (c : Char) : Bool :=
  c.isAlphanum || c == '_' || c == '-'

/-- A character after a backslash. -/
def escaped : Reader Char
  | '"' :: rest => some ('"', rest)
  | '\\' :: rest => some ('\\', rest)
  | 'b' :: rest => some ('\x08', rest)
  | 'f' :: rest => some ('\x0c', rest)
  | 'n' :: rest => some ('\n', rest)
  | 'r' :: rest => some ('\r', rest)
  | 't' :: rest => some ('\t', rest)
  | 'u' :: rest =>
      if (rest.take 4).length = 4 then (codePoint? (rest.take 4)).map (·, rest.drop 4) else none
  | 'U' :: rest =>
      if (rest.take 8).length = 8 then (codePoint? (rest.take 8)).map (·, rest.drop 8) else none
  | _ => none

/-- Whether a character stands for itself between quotes. -/
def isPlain (c : Char) : Bool :=
  c != '"' && c != '\\' && (c == '\t' || (0x20 ≤ c.toNat && c.toNat != 0x7F))

/-- The rest of a text from its first escape to its closing quote; `fuel` bounds the
number of characters, and `seen` holds those read so far, last first. -/
def quotedTail : (fuel : Nat) → (seen : List Char) → Reader String
  | 0, _, _ => none
  | _ + 1, _, [] => none
  | fuel + 1, seen, c :: rest =>
      if c = '"' then some (String.ofList seen.reverse, rest)
      else if c = '\\' then (escaped rest).bind fun r => quotedTail fuel (r.1 :: seen) r.2
      else if isPlain c then quotedTail fuel (c :: seen) rest
      else none

/-- The characters at the front of a text whose UTF-8 forms fit into some bytes. -/
def fitting : (bytes : Nat) → List Char → List Char
  | _, [] => []
  | bytes, c :: rest =>
      if c.utf8Size ≤ bytes then c :: fitting (bytes - c.utf8Size) rest else []

/-- A text after its opening quote.  In front of the first escape, as many bytes are
kept as there are characters. -/
def quoted : Reader String := fun s =>
  let front := s.takeWhile isPlain
  match s.dropWhile isPlain with
  | '"' :: rest => some (String.ofList front, rest)
  | rest => quotedTail (rest.length + 1) (fitting front.length front).reverse rest

/-- The integer that characters stand for: one without minus sign has to fit in
64 bits, and one with a minus sign in 64 bits with sign. -/
def integer? (s : List Char) : Option Tree :=
  let (negative, digits) := splitSign s
  if isNumeral digits then
    let n := decimalNumber digits
    if negative then (if n ≤ twoTo 63 then some (.integer true (-(n : Int))) else none)
    else if n < twoTo 64 then some (.integer false n)
    else none
  else none

/-- The exponent of a number: none at the end of the input. -/
def exponent? (s : List Char) : Option Int :=
  match s with
  | [] => some 0
  | e :: rest =>
      let (negative, digits) := splitSign rest
      if (e = 'e' ∨ e = 'E') ∧ isNumeral digits then
        some (if negative then -(decimalNumber digits : Int) else decimalNumber digits)
      else none

/-- The number with a decimal point that characters stand for; digits may be
missing on one side of the point. -/
def real? (s : List Char) : Option Tree := do
  let (negative, s) := splitSign s
  let whole := s.takeWhile Char.isDigit
  match s.dropWhile Char.isDigit with
  | '.' :: s =>
      let fraction := s.takeWhile Char.isDigit
      if whole.isEmpty && fraction.isEmpty then none
      else
        let power ← exponent? (s.dropWhile Char.isDigit)
        return .real (.ofDecimal negative (decimalNumber (whole ++ fraction))
          (power - fraction.length))
  | _ => none

/-- What a bare value stands for: a number if it can be read as one. -/
def bare (s : List Char) : Tree :=
  let s := Text.trimChars s
  ((real? s).or (integer? s)).getD (.text (String.ofList s))

/-- A boolean, a character, a text or a bare value. -/
def scalar : Reader Tree
  | 't' :: 'r' :: 'u' :: 'e' :: rest => some (.bool true, rest)
  | 'f' :: 'a' :: 'l' :: 's' :: 'e' :: rest => some (.bool false, rest)
  | '"' :: rest => (quoted rest).map fun r => (.text r.1, r.2)
  | '\'' :: c :: '\'' :: rest => some (.letter c, rest)
  | '\'' :: _ => none
  | s => some (bare (s.takeWhile fun c => !isSeparator c), s.dropWhile fun c => !isSeparator c)

/-- Items between commas up to a closing character; a comma may stand before that.
`fuel` bounds the number of items. -/
def items {α : Type} (item : Reader α) (close : Char) : (fuel : Nat) → Reader (List α)
  | 0, _ => none
  | fuel + 1, s =>
      match s with
      | [] => none
      | c :: rest =>
          if c = close then some ([], rest)
          else do
            let (a, s) ← item s
            match s with
            | [] => none
            | c :: rest =>
                if c = ',' then do
                  let (as, s) ← items item close fuel rest
                  return (a :: as, s)
                else if c = close then return ([a], rest)
                else none

/-- A key: a quoted text or some letters, digits and dashes. -/
def key : Reader String
  | '"' :: rest => quoted rest
  | s =>
      let name := s.takeWhile isKeyChar
      if name.isEmpty then none else some (String.ofList name, s.dropWhile isKeyChar)

/-- A key, an equals sign and a value. -/
def entry (value : Reader Tree) : Reader (String × Tree) := fun s => do
  let (name, s) ← key (skipBlanks s)
  match skipBlanks s with
  | '=' :: s => do
      let (t, s) ← value s
      return ((name, t), s)
  | _ => none

/-- A value with at most `depth` lists and tables around its innermost parts, and
the white space around it. -/
def value : (depth : Nat) → Reader Tree
  | 0, s => (scalar (skipBlanks s)).map fun r => (r.1, skipBlanks r.2)
  | depth + 1, s =>
      match skipBlanks s with
      | '[' :: rest => do
          let (ts, s) ← items (value depth) ']' (rest.length + 1) rest
          return (.list ts, skipBlanks s)
      | '\x7b' :: rest => do
          let (es, s) ← items (entry (value depth)) '\x7d' (rest.length + 1) rest
          return (es.foldl (fun t e => t.put e.1 e.2) Tree.empty, skipBlanks s)
      | s => (scalar s).map fun r => (r.1, skipBlanks r.2)

/-- The value of a variable. -/
def parse (text : String) : Tree :=
  let s := text.toList
  match value s.length s with
  | some (t, []) => t
  | _ => .text text

/-! ## Names -/

/-- The word that the names of variables start with. -/
def word : String := "HERALD_"

/-- Two underscores stand for a point. -/
def withPoints : List Char → List Char
  | '_' :: '_' :: rest => '.' :: withPoints rest
  | c :: rest => c :: withPoints rest
  | [] => []

/-- The keys that a name leads to.  The variable that chooses the profile is no
setting, and no key may be empty. -/
def keys? (name : String) : Option (List String) :=
  let s := Text.trimChars name.toList
  let start := s.take word.length
  let rest := s.drop word.length
  if String.ofList (start.map Char.toUpper) ≠ word then none
  else if String.ofList (rest.map Char.toUpper) = "PROFILE" then none
  else
    let keys := (String.ofList (Text.trimChars (withPoints rest))).toLower.splitOn "."
    if keys.any String.isEmpty then none else some keys

/-- A value under some keys. -/
def nested : List String → Tree → Tree
  | [], t => t
  | key :: rest, t => .table [(key, nested rest t)]

/-- What the variables say, given by name and value in their order. -/
def tree (pairs : List (String × String)) : Tree :=
  Tree.stack <| pairs.filterMap fun v =>
    (keys? v.1).map fun keys => nested keys (parse v.2)

end Courier.Environment
