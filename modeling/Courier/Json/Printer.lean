import Courier.Json.Basic
import Courier.Text.Digits

/-!
# Compact JSON text

The text of a value without blanks.  Strings escape quotes, backslashes and
control characters only; everything else stands as it is.
-/

namespace Courier.Json

/-- A character inside a quoted string. -/
def escapeChar (c : Char) : List Char :=
  match c with
  | '"' => ['\\', '"']
  | '\\' => ['\\', '\\']
  | '\n' => ['\\', 'n']
  | '\r' => ['\\', 'r']
  | '\t' => ['\\', 't']
  | '\x08' => ['\\', 'b']
  | '\x0c' => ['\\', 'f']
  | c =>
      if c.toNat < 32 then
        ['\\', 'u', '0', '0', Text.hexDigit (c.toNat / 16), Text.hexDigit (c.toNat % 16)]
      else [c]

/-- A quoted string. -/
def quote (s : String) : String :=
  String.ofList ('"' :: s.toList.flatMap escapeChar ++ ['"'])

mutual

/-- The compact text of a value. -/
def text : Json → String
  | null => "null"
  | bool b => if b then "true" else "false"
  | number n => n.text
  | string s => quote s
  | array elements => "[" ++ ",".intercalate (elementTexts elements) ++ "]"
  | object fields => "\x7b" ++ ",".intercalate (fieldTexts fields) ++ "\x7d"

/-- The texts of elements. -/
def elementTexts : List Json → List String
  | [] => []
  | a :: rest => a.text :: elementTexts rest

/-- The texts of fields. -/
def fieldTexts : List (String × Json) → List String
  | [] => []
  | (k, a) :: rest => (quote k ++ ":" ++ a.text) :: fieldTexts rest

end

end Courier.Json
