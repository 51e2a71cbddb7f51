/-!
# Places in a YAML text

YAML is read by lines and columns: a `Cursor` is the text that is left, with the place where it
starts. A line ends with one of five characters, or with a carriage return and a line feed as one.
-/

namespace Snippet.Yaml

/-- The characters that may stand in a YAML text. -/
def isPrintable (c : Char) : Bool :=
  let n := c.toNat
  n == 0x09 || n == 0x0a || n == 0x0d || 0x20 ≤ n && n ≤ 0x7e || n == 0x85 ||
    0xa0 ≤ n && n ≤ 0xfffd || 0x10000 ≤ n

/-- The characters that end a line. -/
def isBreak (c : Char) : Bool :=
  c == '\n' || c == '\r' || c == '\x85' || c == '\u2028' || c == '\u2029'

/-- A space or a tab. -/
def isSpaceOrTab (c : Char) : Bool :=
  c == ' ' || c == '\t'

/-- Whether a word cannot go on with the rest of a text. -/
def endsWord (rest : List Char) : Bool :=
  rest.head?.all fun c ↦ isSpaceOrTab c || isBreak c

/-- What a line end stands for in a scalar. -/
def breakValue (c : Char) : Char :=
  if c == '\u2028' || c == '\u2029' then c else '\n'

/-- The rest of a text, and where it starts. -/
structure Cursor where
  rest : List Char
  /-- How many characters are behind. -/
  offset : Nat
  line : Nat
  column : Nat
  deriving Repr, Inhabited

namespace Cursor

/-- The start of a text. -/
def start (text : List Char) : Cursor :=
  ⟨text, 0, 0, 0⟩

/-- Moves over characters of one line. -/
def skip (c : Cursor) (n : Nat) : Cursor :=
  ⟨c.rest.drop n, c.offset + n, c.line, c.column + n⟩

/-- The characters of a kind ahead, and the place behind them. -/
def takeWhile (c : Cursor) (p : Char → Bool) : List Char × Cursor :=
  let taken := c.rest.takeWhile p
  (taken, c.skip taken.length)

/-- The place behind the characters of a kind. -/
def dropWhile (c : Cursor) (p : Char → Bool) : Cursor :=
  (c.takeWhile p).2

/-- Moves over a line end. -/
def nextLine (c : Cursor) : Cursor :=
  match c.rest with
  | '\r' :: '\n' :: rest => ⟨rest, c.offset + 2, c.line + 1, 0⟩
  | _ :: rest => ⟨rest, c.offset + 1, c.line + 1, 0⟩
  | [] => c

/-- The line end ahead, if there is one. -/
def break? (c : Cursor) : Option Char :=
  c.rest.head?.filter isBreak

/-- Whether three characters at the start of a line mark the start or the end of a document. -/
def isAt (c : Cursor) (mark : String) : Bool :=
  c.column == 0 && mark.toList.isPrefixOf c.rest && endsWord (c.rest.drop 3)

/-- Whether a document starts or ends here. -/
def atMark (c : Cursor) : Bool :=
  c.isAt "---" || c.isAt "..."

end Cursor

end Snippet.Yaml
