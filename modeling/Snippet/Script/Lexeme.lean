import Snippet.Grammar.Pattern

/-!
# Lexemes of the script language

Each lexeme is recognised on its own characters. Words end where the letters, digits and
underscores end, so a keyword never ends inside a longer word. Numbers have no sign: `-1` is an
operator and a number.

Blanks are the four ASCII characters below and comments. A line comment ends before its line
break; a block comment that is never closed is no comment.
-/

namespace Snippet.Script

open Grammar (Recogniser)

/-- The length of the longest front part whose characters satisfy `p`. -/
def spanLength (p : Char → Bool) (s : List Char) : Nat :=
  (s.takeWhile p).length

/-- The characters between tokens. -/
def isSeparator (c : Char) : Bool :=
  c == ' ' || c == '\t' || c == '\r' || c == '\n'

/-- The characters of words. -/
def isWordChar (c : Char) : Bool :=
  c.isAlphanum || c == '_'

/-- The words that are no names. -/
def keywords : List String :=
  ["if", "else", "while", "foreach", "int", "in", "return", "throw", "break", "continue", "true",
    "false", "null", "var", "let", "long", "double", "string", "bool", "object", "list", "map"]

/-- The words that declare a variable. -/
def typeWords : List String :=
  ["var", "let", "int", "long", "double", "string", "bool", "object", "list", "map"]

/-- The word at the front of a text; empty if there is none. -/
def wordAt (s : List Char) : List Char :=
  s.takeWhile isWordChar

namespace Lexeme

/-- Exactly these characters. -/
def exactly (lexeme : String) : Recogniser := fun s ↦
  if lexeme.toList.isPrefixOf s then some lexeme.toList.length else none

/-- The first of several texts that is there. -/
def oneOf (lexemes : List String) : Recogniser := fun s ↦
  lexemes.findSome? fun lexeme ↦ exactly lexeme s

/-- One of these words, as a whole word. -/
def word (words : List String) : Recogniser := fun s ↦
  let front := wordAt s
  if words.any (·.toList == front) then some front.length else none

/-- A word that is no keyword and does not start with a digit. -/
def name : Recogniser := fun s ↦
  let front := wordAt s
  match front with
  | [] => none
  | c :: _ => if c.isDigit || keywords.any (·.toList == front) then none else some front.length

/-- A run of digits. -/
def integer : Recogniser := fun s ↦
  match spanLength Char.isDigit s with
  | 0 => none
  | n => some n

/-- Two runs of digits with a point between them. -/
def fraction : Recogniser := fun s ↦
  match spanLength Char.isDigit s with
  | 0 => none
  | n =>
    match s.drop n with
    | '.' :: rest =>
      match spanLength Char.isDigit rest with
      | 0 => none
      | m => some (n + 1 + m)
    | _ => none

/-- The length of a string body up to and with its closing quote. A backslash takes the character
behind it along, whatever it is. -/
def closeQuote : List Char → Option Nat
  | [] => none
  | '"' :: _ => some 1
  | '\\' :: _ :: rest => (closeQuote rest).map (· + 2)
  | '\\' :: [] => none
  | _ :: rest => (closeQuote rest).map (· + 1)

/-- A text in double quotes. -/
def quoted : Recogniser
  | '"' :: rest => (closeQuote rest).map (· + 1)
  | _ => none

/-- `=` alone, or with an arithmetic operator in front. -/
def assignment : Recogniser
  | '=' :: '=' :: _ => none
  | '=' :: _ => some 1
  | s => oneOf ["+=", "-=", "*=", "/="] s

/-- The end of the text. -/
def ending : Recogniser
  | [] => some 0
  | _ :: _ => none

end Lexeme

/-- The length of a block comment behind its opening, up to and with its end. -/
def closeComment : List Char → Option Nat
  | '*' :: '/' :: _ => some 2
  | _ :: rest => (closeComment rest).map (· + 1)
  | [] => none

/-- The length of the comment at the front of a text. -/
def comment? : List Char → Option Nat
  | '/' :: '/' :: rest => some (2 + spanLength (· != '\n') rest)
  | '/' :: '*' :: rest => (closeComment rest).map (2 + ·)
  | _ => none

/-- How many characters at the front of a text are separators or belong to comments. The number
of characters still to be passed over as the rest of a comment is `inside`. -/
def blanksFrom (inside : Nat) : List Char → Nat
  | [] => 0
  | c :: rest =>
    match inside with
    | n + 1 => blanksFrom n rest + 1
    | 0 =>
      if isSeparator c then blanksFrom 0 rest + 1
      else
        match comment? (c :: rest) with
        | some n => blanksFrom (n - 1) rest + 1
        | none => 0

/-- How many characters at the front of a text separate tokens. -/
def blanks (s : List Char) : Nat :=
  blanksFrom 0 s

end Snippet.Script
