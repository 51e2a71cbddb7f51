import Snippet.Json.Number

/-!
# Writing JSON

The compact form has no blanks. Strings escape quotes, backslashes and the characters below
U+0020, the latter by their letter where there is one.
-/

namespace Snippet.Json

/-- The digits of a number below 16. -/
def hexDigit (n : Nat) : Char :=
  Nat.digitChar n

/-- A character inside a string. -/
def escapeChar (c : Char) : List Char :=
  match c with
  | '"' => ['\\', '"']
  | '\\' => ['\\', '\\']
  | '\n' => ['\\', 'n']
  | '\r' => ['\\', 'r']
  | '\t' => ['\\', 't']
  | '\x08' => ['\\', 'b']
  | '\x0c' => ['\\', 'f']
  | c =>
    if c.toNat < 0x20 then ['\\', 'u', '0', '0', hexDigit (c.toNat / 16), hexDigit (c.toNat % 16)]
    else [c]

/-- A string with its quotes. -/
def quote (s : String) : String :=
  "\"" ++ String.ofList (s.toList.flatMap escapeChar) ++ "\""

mutual

/-- The compact form of a value. -/
def compact : Json → String
  | null => "null"
  | bool b => if b then "true" else "false"
  | int n => toString n
  | float x => floatText x
  | string s => quote s
  | array items => "[" ++ compactItems items ++ "]"
  | object members => "\x7b" ++ compactMembers members ++ "\x7d"

/-- The items of an array, with commas between them. -/
def compactItems : List Json → String
  | [] => ""
  | [j] => j.compact
  | j :: rest => j.compact ++ "," ++ compactItems rest

/-- The members of an object, with commas between them. -/
def compactMembers : List (String × Json) → String
  | [] => ""
  | [(name, j)] => quote name ++ ":" ++ j.compact
  | (name, j) :: rest => quote name ++ ":" ++ j.compact ++ "," ++ compactMembers rest

end

end Snippet.Json
