import Snippet.Grammar.Pattern

/-!
# Lexemes of the template language

Text runs up to the next opening braces. A backslash in front of them keeps them in the text; two
or more backslashes in front of them stand for one less, and the braces open a tag. In either case
one backslash goes away, so the text of a run differs from its source.

Names hold letters, digits, `_`, `-`, `$`, `:` and everything beyond ASCII. Literals are those of
JSON, and strings may also stand in single quotes.
-/

namespace Snippet.Template

open Grammar (Recogniser)

/-- The characters between the parts of a tag. -/
def isSeparator (c : Char) : Bool :=
  c == ' ' || c == '\t' || c == '\n' || c == '\r'

/-- How many characters at the front of a text separate the parts of a tag. -/
def blanks (s : List Char) : Nat :=
  (s.takeWhile isSeparator).length

/-- The characters of names. -/
def isNameChar (c : Char) : Bool :=
  c.isAlphanum || c == '_' || c == '-' || c == '$' || c == ':' || 0x80 ≤ c.toNat

/-- The braces that open a tag. -/
def openBraces : List Char := ['\x7b', '\x7b']

/-- The braces that open a raw block. -/
def openRaw : List Char := openBraces ++ openBraces

/-- The number of characters behind a backslash that stand for themselves because of it; none if
the backslash stands for itself. -/
def escapedLength (rest : List Char) : Nat :=
  -- the braces themselves, all four of them where there are four
  if openBraces.isPrefixOf rest then if openRaw.isPrefixOf rest then 4 else 2
  else
    let slashes := (rest.takeWhile (· == '\\')).length
    if openBraces.isPrefixOf (rest.drop slashes) then slashes else 0

/-- The text up to a mark, and the length of its source. The next `keep` characters stand for
themselves. -/
def textUpTo (mark : List Char) : Nat → List Char → List Char × Nat
  | _, [] => ([], 0)
  | keep + 1, c :: rest =>
    let (text, length) := textUpTo mark keep rest
    (c :: text, length + 1)
  | 0, c :: rest =>
    if c = '\\' ∧ escapedLength rest ≠ 0 then
      let (text, length) := textUpTo mark (escapedLength rest) rest
      (text, length + 1)
    else if mark.isPrefixOf (c :: rest) then ([], 0)
    else
      let (text, length) := textUpTo mark 0 rest
      (c :: text, length + 1)

namespace Lexeme

/-- Text between tags. -/
def text : Recogniser := fun s ↦
  match (textUpTo openBraces 0 s).2 with
  | 0 => none
  | n => some n

/-- The text of a raw block. -/
def rawText : Recogniser := fun s ↦
  some (textUpTo openRaw 0 s).2

/-- A run of characters of a kind. -/
def run (p : Char → Bool) : Recogniser := fun s ↦
  match (s.takeWhile p).length with
  | 0 => none
  | n => some n

/-- A name. -/
def name : Recogniser :=
  run isNameChar

/-- The length of a quoted name up to and with its closing quote. A backslash keeps a quote in the
name, and is else a character like any other. -/
def closeNameQuote : List Char → Option Nat
  | [] => none
  | '\\' :: '\'' :: rest => (closeNameQuote rest).map (· + 2)
  | c :: rest => if c = '\'' then some 1 else (closeNameQuote rest).map (· + 1)

/-- The characters of the names of partials. -/
def isPartialChar (c : Char) : Bool :=
  isNameChar c && c != '$' && c != ':' || c == '/' || c == '.'

/-- The name of a partial: it may also be a path, or stand in single quotes. -/
def partialName : Recogniser := fun s ↦
  match run isPartialChar s, s with
  | some n, _ => some n
  | none, '\'' :: rest =>
    match closeNameQuote rest with
    | none | some 1 => none
    | some n => some (n + 1)
  | none, _ => none

/-- One of these texts. -/
def oneOf (lexemes : List String) : Recogniser := fun s ↦
  lexemes.findSome? fun lexeme ↦
    if lexeme.toList.isPrefixOf s then some lexeme.toList.length else none

/-- One of these words, unless the name goes on. -/
def word (words : List String) : Recogniser := fun s ↦
  match oneOf words s with
  | some n => if (s.drop n).head?.any isNameChar then none else some n
  | none => none

/-- The length of an exponent at the front of a text. -/
def exponent (s : List Char) : Nat :=
  match s with
  | 'E' :: rest =>
    let sign := if rest.head? == some '-' then 1 else 0
    match ((rest.drop sign).takeWhile Char.isDigit).length with
    | 0 => 0
    | n => 1 + sign + n
  | _ => 0

/-- A number: digits, perhaps with a sign, a point, more digits and an exponent. -/
def number : Recogniser := fun s ↦
  let sign := if s.head? == some '-' then 1 else 0
  match ((s.drop sign).takeWhile Char.isDigit).length with
  | 0 => none
  | digits =>
    let whole := sign + digits
    let point := if (s.drop whole).head? == some '.' then 1 else 0
    let fraction := ((s.drop (whole + point)).takeWhile Char.isDigit).length
    let front := whole + point + fraction
    let length := front + exponent (s.drop front)
    if (s.drop length).head?.any isNameChar then none else some length

/-- Whether a character is a hexadecimal digit. -/
def isHexDigit (c : Char) : Bool :=
  c.isDigit || 'a' ≤ c && c ≤ 'f' || 'A' ≤ c && c ≤ 'F'

/-- The length of a string body up to and with its closing quote. -/
def closeQuote (quote : Char) : List Char → Option Nat
  | [] => none
  | '\\' :: 'u' :: a :: b :: c :: d :: rest =>
    if [a, b, c, d].all isHexDigit then (closeQuote quote rest).map (· + 6) else none
  | '\\' :: c :: rest =>
    if c = quote ∨ c ∈ ['\\', '/', 'b', 'f', 'n', 'r', 't'] then
      (closeQuote quote rest).map (· + 2)
    else none
  | c :: rest => if c = quote then some 1 else (closeQuote quote rest).map (· + 1)

/-- A string in double quotes. -/
def quoted : Recogniser
  | '"' :: rest => (closeQuote '"' rest).map (· + 1)
  | _ => none

/-- A string in single quotes. -/
def singleQuoted : Recogniser
  | '\'' :: rest => (closeQuote '\'' rest).map (· + 1)
  | _ => none

/-- A key of a path in brackets, without them. -/
def bracketed : Recogniser := fun s ↦
  some (s.takeWhile (· != ']')).length

/-- The length of a text up to and with a mark. -/
def through (mark : List Char) : List Char → Option Nat
  | [] => none
  | c :: rest =>
    if mark.isPrefixOf (c :: rest) then some mark.length
    else (through mark rest).map (· + 1)

/-- A comment. One that starts with two hyphens ends at the first braces with two hyphens in front
of them, and is else read like any other. -/
def comment : Recogniser := fun s ↦
  let short (rest : List Char) := (through ['\x7d', '\x7d'] rest).map (· + 3)
  match s with
  | '\x7b' :: '\x7b' :: '!' :: '-' :: '-' :: rest =>
    ((through ['-', '-', '\x7d', '\x7d'] rest).map (· + 5)).or (short ('-' :: '-' :: rest))
  | '\x7b' :: '\x7b' :: '!' :: rest => short rest
  | _ => none

/-- The end of the text. -/
def ending : Recogniser
  | [] => some 0
  | _ :: _ => none

end Lexeme

end Snippet.Template
