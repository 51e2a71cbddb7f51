import Snippet.Text.Unprintable

/-!
# Quoted text

Strings inside a collection are shown in double quotes. A quote, a backslash and the four control
characters that have a letter of their own are written with a backslash. Whatever would not be
seen on its own is written by its number in hexadecimal digits.
-/

namespace Snippet.Text

/-- The number of a character, as it stands in quoted text. -/
def codeEscape (c : Char) : List Char :=
  '\\' :: 'u' :: '\x7b' :: (Nat.toDigits 16 c.toNat ++ ['\x7d'])

/-- A character as it stands in quoted text. -/
def escapeChar (c : Char) : List Char :=
  match c with
  | '\x00' => ['\\', '0']
  | '\t' => ['\\', 't']
  | '\r' => ['\\', 'r']
  | '\n' => ['\\', 'n']
  | '\\' => ['\\', '\\']
  | '"' => ['\\', '"']
  | c => if isUnprintable c then codeEscape c else [c]

/-- A text in double quotes. -/
def quoted (s : String) : List Char :=
  '"' :: (s.toList.flatMap escapeChar ++ ['"'])

end Snippet.Text
