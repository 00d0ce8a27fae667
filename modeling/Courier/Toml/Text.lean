import Courier.Text.Digits
import Courier.Text.Reader

/-!
# The text of TOML files

Readers for blanks, comments, ends of lines, keys and strings.
-/

namespace Courier.Toml

open Text (Reader)

/-! ## Between values -/

/-- The two characters that may stand between the parts of a line. -/
def isBlank (c : Char) : Bool :=
  c == ' ' || c == '\t'

/-- The input without the blanks at its front. -/
def skipBlanks (s : List Char) : List Char :=
  s.dropWhile isBlank

/-- Whether a character may stand in a comment or a string: any but the control
characters, of which only the tabulator may. -/
def isPlain (c : Char) : Bool :=
  c == '\t' || (0x20 ≤ c.toNat && c.toNat != 0x7F)

/-- The input after an end of line at its front. -/
def newline? : List Char → Option (List Char)
  | '\n' :: rest => some rest
  | '\r' :: '\n' :: rest => some rest
  | _ => none

/-- The input after the comment at its front, if there is one. -/
def skipComment : List Char → List Char
  | '#' :: rest => rest.dropWhile isPlain
  | s => s

/-- The input after the rest of a line that holds nothing but a comment. -/
def lineTail? (s : List Char) : Option (List Char) :=
  match skipComment (skipBlanks s) with
  | [] => some []
  | s => newline? s

/-- The input without blanks, ends of lines and comments at its front. -/
def skipGaps : (inComment : Bool) → List Char → List Char
  | _, [] => []
  | _, '\n' :: rest => skipGaps false rest
  | _, '\r' :: '\n' :: rest => skipGaps false rest
  | true, c :: rest => if isPlain c then skipGaps true rest else c :: rest
  | false, c :: rest =>
      if isBlank c then skipGaps false rest
      else if c = '#' then skipGaps true rest
      else c :: rest

/-- The input without blanks and ends of lines at its front. -/
def skipLines : List Char → List Char
  | [] => []
  | '\n' :: rest => skipLines rest
  | '\r' :: '\n' :: rest => skipLines rest
  | c :: rest => if isBlank c then skipLines rest else c :: rest

/-! ## Strings -/

/-- The character whose code point is given by `count` hexadecimal digits. -/
def codePoint (count : Nat) : Reader Char := fun s =>
  if (s.take count).length < count then none
  else (Text.codePoint? (s.take count)).map fun c => (c, s.drop count)

/-- What follows a backslash in a string between double quotes. -/
def escaped : Reader Char
  | 'b' :: rest => some ('\x08', rest)
  | 't' :: rest => some ('\t', rest)
  | 'n' :: rest => some ('\n', rest)
  | 'f' :: rest => some ('\x0c', rest)
  | 'r' :: rest => some ('\r', rest)
  | '"' :: rest => some ('"', rest)
  | '\\' :: rest => some ('\\', rest)
  | 'u' :: rest => codePoint 4 rest
  | 'U' :: rest => codePoint 8 rest
  | _ => none

/-- The rest of a string between double quotes; `fuel` bounds the number of
characters, and `seen` holds those read so far, last first. -/
def basicTail : (fuel : Nat) → (seen : List Char) → Reader String
  | 0, _, _ => none
  | _ + 1, _, [] => none
  | fuel + 1, seen, c :: rest =>
      if c = '"' then some (String.ofList seen.reverse, rest)
      else if c = '\\' then (escaped rest).bind fun r => basicTail fuel (r.1 :: seen) r.2
      else if isPlain c then basicTail fuel (c :: seen) rest
      else none

/-- A string between single quotes, after the first of them. -/
def literalTail : Reader String := fun s =>
  let body := s.takeWhile fun c => isPlain c && c != '\''
  match s.drop body.length with
  | '\'' :: rest => some (String.ofList body, rest)
  | _ => none

/-- What is left of a string of several lines and of the input at three quotes in
a row; one or two more quotes belong to the string. -/
def closeLong (quote : Char) (seen rest : List Char) : String × List Char :=
  let extra := (rest.take 2).takeWhile fun c => c == quote
  (String.ofList (seen.reverse ++ extra), rest.drop extra.length)

/-- The rest of a string of several lines between three quotes; only between
double quotes is a backslash special, and at the end of a line it removes the
break and the blanks that follow. -/
def longTail (quote : Char) : (fuel : Nat) → (seen : List Char) → Reader String
  | 0, _, _ => none
  | fuel + 1, seen, s =>
      match s with
      | [] => none
      | c :: rest =>
          if c = quote then
            if rest.take 2 = [quote, quote] then some (closeLong quote seen (rest.drop 2))
            else longTail quote fuel (c :: seen) rest
          else if c = '\\' ∧ quote = '"' then
            match newline? (skipBlanks rest) with
            | some rest => longTail quote fuel seen (skipLines rest)
            | none => (escaped rest).bind fun r => longTail quote fuel (r.1 :: seen) r.2
          else
            match newline? s with
            | some rest => longTail quote fuel ('\n' :: seen) rest
            | none => if isPlain c then longTail quote fuel (c :: seen) rest else none

/-- A string of several lines, after its opening quotes; a line break there does
not count. -/
def long (quote : Char) : Reader String := fun s =>
  longTail quote (s.length + 1) [] ((newline? s).getD s)

/-- A string on one line, after its opening quote. -/
def short (quote : Char) : Reader String := fun s =>
  if quote = '"' then basicTail (s.length + 1) [] s else literalTail s

/-- A string that starts with a given quote, after that quote. -/
def stringAfter (quote : Char) : Reader String := fun s =>
  if s.take 2 = [quote, quote] then long quote (s.drop 2) else short quote s

/-! ## Keys -/

/-- The characters of a bare key. -/
def isKeyChar (c : Char) : Bool :=
  c.isAlphanum || c == '_' || c == '-'

/-- One part of a key. -/
def simpleKey : Reader String
  | '"' :: rest => short '"' rest
  | '\'' :: rest => short '\'' rest
  | s =>
      let name := s.takeWhile isKeyChar
      if name.isEmpty then none else some (String.ofList name, s.dropWhile isKeyChar)

/-- The parts of a key between points; `fuel` bounds their number. -/
def keyParts : (fuel : Nat) → Reader (List String)
  | 0, _ => none
  | fuel + 1, s => do
      let (part, s) ← simpleKey (skipBlanks s)
      match skipBlanks s with
      | '.' :: s => do
          let (parts, s) ← keyParts fuel s
          return (part :: parts, s)
      | s => return ([part], s)

/-- The number of parts that a key must not reach, and likewise for the nesting of
values. -/
def depthLimit : Nat := 80

/-- A key with the blanks around it. -/
def key : Reader (List String) :=
  keyParts (depthLimit - 1)

end Courier.Toml
