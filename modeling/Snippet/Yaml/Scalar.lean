import Snippet.Yaml.Cursor

/-!
# Scalars of YAML

A plain or quoted scalar is a sequence of words. Between two words of one line stand blanks, which
are kept. Between two words of different lines stands what their line ends *fold* into: a blank for
one line end, and one line end less for several.

A block scalar is a sequence of lines below a column. Its lines are kept, or folded, if neither of
two lines starts with a blank.

Everything here answers nothing if the text is not YAML.
-/

namespace Snippet.Yaml

/-- How a scalar is written. -/
inductive Style where
  | plain
  | quoted
  | literal
  | folded
  deriving DecidableEq, Repr, Inhabited

/-- What line ends between two words stand for. -/
def fold : List Char → List Char
  | ['\n'] => [' ']
  | '\n' :: rest => rest
  | breaks => breaks

/-- The line ends ahead at the start of a line, with the blanks around them left out. A tab must
not stand before the column `floor`. -/
def readBreaks (floor : Nat) (c : Cursor) : Option (List Char × Cursor) :=
  let (blanks, behind) := c.takeWhile isSpaceOrTab
  if (blanks.takeWhile (· != '\t')).length + c.column < floor && blanks.contains '\t' then none
  else
    match behind.break? with
    | none => some ([], behind)
    | some b =>
      if behind.nextLine.rest.length < c.rest.length then
        (readBreaks floor behind.nextLine).map fun (breaks, behind) ↦
          (breakValue b :: breaks, behind)
      else none
termination_by c.rest.length

/-- What stands between two words. -/
structure Gap where
  text : List Char
  /-- Whether the second word is on another line. -/
  isBroken : Bool
  behind : Cursor

/-- The gap ahead. -/
def Gap.read (floor : Nat) (c : Cursor) : Option Gap :=
  let (blanks, behind) := c.takeWhile isSpaceOrTab
  match behind.break? with
  | none => some ⟨blanks, false, behind⟩
  | some b => (readBreaks floor behind.nextLine).map fun (breaks, behind) ↦
      ⟨fold (breakValue b :: breaks), true, behind⟩

/-! ### Plain scalars -/

/-- The characters that stand for the structure of a flow collection. -/
def isFlowIndicator (c : Char) : Bool :=
  c == ',' || c == '[' || c == ']' || c == '{' || c == '}'

/-- The word ahead. In a flow collection a colon must not touch its structure. -/
def plainWord (inFlow : Bool) : List Char → Option (List Char)
  | [] => some []
  | c :: rest =>
    if isSpaceOrTab c || isBreak c then some []
    else if inFlow && c == ':' && rest.head?.any fun d ↦ isFlowIndicator d || d == '?' then none
    else if c == ':' && endsWord rest || inFlow && isFlowIndicator c then some []
    else (plainWord inFlow rest).map (c :: ·)

/-- A plain scalar, from its first word on. A word on a further line stands at or behind the column
`floor`, unless it is in a flow collection. -/
def plain (inFlow : Bool) (floor : Nat) (c : Cursor) : Option Gap := do
  let word ← plainWord inFlow c.rest
  let gap ← Gap.read floor (c.skip word.length)
  let last : Gap := { gap with text := word }
  if gap.behind.atMark || gap.behind.rest.head? == some '#' ||
      !inFlow && gap.behind.column < floor then
    return last
  else
    match ← plainWord inFlow gap.behind.rest with
    | [] => return last
    | _ =>
      if gap.behind.rest.length < c.rest.length then
        let more ← plain inFlow floor gap.behind
        return { more with text := word ++ gap.text ++ more.text }
      else none
termination_by c.rest.length

/-! ### Quoted scalars -/

/-- The word ahead in single quotes, where a quote is written twice, and its length. -/
def singleWord : List Char → List Char × Nat
  | '\'' :: '\'' :: rest =>
    let (word, length) := singleWord rest
    ('\'' :: word, length + 2)
  | c :: rest =>
    if c == '\'' || isSpaceOrTab c || isBreak c then ([], 0)
    else
      let (word, length) := singleWord rest
      (c :: word, length + 1)
  | [] => ([], 0)

/-- The character that a letter behind a backslash stands for. -/
def escape? : Char → Option Char
  | '0' => some '\x00'
  | 'a' => some '\x07'
  | 'b' => some '\x08'
  | 't' | '\t' => some '\t'
  | 'n' => some '\n'
  | 'v' => some '\x0b'
  | 'f' => some '\x0c'
  | 'r' => some '\r'
  | 'e' => some '\x1b'
  | ' ' => some ' '
  | '"' => some '"'
  | '/' => some '/'
  | '\\' => some '\\'
  | 'N' => some '\x85'
  | '_' => some '\u00a0'
  | 'L' => some '\u2028'
  | 'P' => some '\u2029'
  | _ => none

/-- The value of a hexadecimal digit. -/
def hexDigit? (c : Char) : Option Nat :=
  if c.isDigit then some (c.toNat - '0'.toNat)
  else if 'a' ≤ c ∧ c ≤ 'f' then some (c.toNat - 'a'.toNat + 10)
  else if 'A' ≤ c ∧ c ≤ 'F' then some (c.toNat - 'A'.toNat + 10)
  else none

/-- The character with a number in hexadecimal digits. -/
def charOfHex? (digits : List Char) : Option Char := do
  let n ← digits.foldlM (fun n c ↦ (hexDigit? c).map (16 * n + ·)) 0
  if n.isValidChar then return Char.ofNat n else none

/-- The word ahead in double quotes, and its length. It ends before a backslash at the end of a
line. -/
def doubleWord : List Char → Option (List Char × Nat)
  | [] => some ([], 0)
  | '\\' :: 'x' :: a :: b :: rest => do
    let c ← charOfHex? [a, b]
    let (word, length) ← doubleWord rest
    return (c :: word, length + 4)
  | '\\' :: 'u' :: a :: b :: c :: d :: rest => do
    let c ← charOfHex? [a, b, c, d]
    let (word, length) ← doubleWord rest
    return (c :: word, length + 6)
  | '\\' :: 'U' :: a :: b :: c :: d :: e :: f :: g :: h :: rest => do
    let c ← charOfHex? [a, b, c, d, e, f, g, h]
    let (word, length) ← doubleWord rest
    return (c :: word, length + 10)
  | '\\' :: c :: rest =>
    if isBreak c then some ([], 0)
    else do
      let e ← escape? c
      let (word, length) ← doubleWord rest
      return (e :: word, length + 2)
  | c :: rest =>
    if c == '"' || isSpaceOrTab c || isBreak c then some ([], 0)
    else (doubleWord rest).map fun (word, length) ↦ (c :: word, length + 1)

/-- A quoted scalar behind its opening quote. -/
def quotedRest (isSingle : Bool) (c : Cursor) : Option (List Char × Cursor) := do
  if c.atMark then none
  let (word, length) ← if isSingle then some (singleWord c.rest) else doubleWord c.rest
  let stop := c.skip length
  match stop.rest with
  | [] => none
  | next :: _ =>
    if next == (if isSingle then '\'' else '"') then return (word, stop.skip 1)
    else
      let (gap, behind) ←
        if next == '\\' then readBreaks 0 (stop.skip 1).nextLine
        else (Gap.read 0 stop).map fun gap ↦ (gap.text, gap.behind)
      -- every line takes at least its end
      if behind.rest.length < c.rest.length then
        let (more, behind) ← quotedRest isSingle behind
        return (word ++ gap ++ more, behind)
      else none
termination_by c.rest.length

/-! ### Block scalars -/

/-- What becomes of the line ends at the end of a block scalar. -/
inductive Chomping where
  | strip
  | clip
  | keep
  deriving DecidableEq, Repr, Inhabited

/-- The line ends ahead in front of a line that reaches the column `indent`. -/
def blockBreaks (indent : Nat) (c : Cursor) : Option (List Char × Cursor) :=
  let behind := c.skip ((c.rest.take (indent - c.column)).takeWhile (· == ' ')).length
  if behind.column < indent && behind.rest.head? == some '\t' then none
  else
    match behind.break? with
    | none => some ([], behind)
    | some b =>
      if behind.nextLine.rest.length < c.rest.length then
        (blockBreaks indent behind.nextLine).map fun (breaks, behind) ↦
          (breakValue b :: breaks, behind)
      else none
termination_by c.rest.length

/-- The line ends in front of the first line of a block scalar, and the column of the widest of
these lines. -/
def leadingBreaks (c : Cursor) : Option (List Char × Nat × Cursor) :=
  let behind := c.dropWhile (· == ' ')
  if behind.rest.head? == some '\t' then none
  else
    match behind.break? with
    | none => some ([], behind.column, behind)
    | some b =>
      if behind.nextLine.rest.length < c.rest.length then
        (leadingBreaks behind.nextLine).map fun (breaks, width, behind') ↦
          (breakValue b :: breaks, max behind.column width, behind')
      else none
termination_by c.rest.length

/-- What is known of a block scalar in front of one of its lines: the end of the line before, the
further line ends behind it, and whether that line starts with a blank. -/
structure BlockState where
  lineEnd : List Char
  breaks : List Char
  isIndented : Bool

/-- The lines of a block scalar, and the line ends behind the last of them. -/
def blockLines (folded : Bool) (indent : Nat) (s : BlockState) (c : Cursor) :
    Option (List Char × BlockState × Cursor) := do
  if c.column != indent || c.rest.isEmpty then return ([], s, c)
  let isIndented := c.rest.head?.any isSpaceOrTab
  let joint :=
    if folded && s.lineEnd == ['\n'] && !s.isIndented && !isIndented then
      if s.breaks.isEmpty then [' '] else s.breaks
    else s.lineEnd ++ s.breaks
  let (line, stop) := c.takeWhile (!isBreak ·)
  let lineEnd := (stop.break?.map breakValue).toList
  let (breaks, behind) ← blockBreaks indent stop.nextLine
  if behind.rest.length < c.rest.length then
    let (more, last, behind) ← blockLines folded indent ⟨lineEnd, breaks, isIndented⟩ behind
    return (joint ++ line ++ more, last, behind)
  else none
termination_by c.rest.length

/-- The marks behind the sign of a block scalar: what becomes of its end, and how far it is
indented, with the number of these characters. -/
def blockHeader : List Char → Option (Chomping × Option Nat × Nat)
  | s =>
    let sign? : Char → Option Chomping
      | '+' => some .keep
      | '-' => some .strip
      | _ => none
    let digit? (c : Char) : Option Nat :=
      if c.isDigit then some (c.toNat - '0'.toNat) else none
    let header :=
      match s.head?.bind sign?, s.head?.bind digit? with
      | some chomping, _ =>
        match (s.drop 1).head?.bind digit? with
        | some n => (chomping, some n, 2)
        | none => (chomping, none, 1)
      | none, some n =>
        match (s.drop 1).head?.bind sign? with
        | some chomping => (chomping, some n, 2)
        | none => (.clip, some n, 1)
      | none, none => (.clip, none, 0)
    if header.2.1 == some 0 then none else some header

/-- A block scalar behind its sign. The least column at which it may stand is `floor`. -/
def block (folded : Bool) (floor : Nat) (c : Cursor) : Option (List Char × Cursor) := do
  let (chomping, step, length) ← blockHeader c.rest
  let stop := (c.skip length).dropWhile isSpaceOrTab
  let stop := if stop.rest.head? == some '#' then stop.dropWhile (!isBreak ·) else stop
  if !(stop.rest.head?.all isBreak) then none
  let (breaks, indent, start) ←
    match step with
    | some n =>
      let indent := (floor - 1) + n
      (blockBreaks indent stop.nextLine).map fun (breaks, start) ↦ (breaks, indent, start)
    | none =>
      (leadingBreaks stop.nextLine).map fun (breaks, width, start) ↦
        (breaks, max (max width floor) 1, start)
  let (text, last, behind) ← blockLines folded indent ⟨[], breaks, false⟩ start
  let tail :=
    match chomping with
    | .strip => []
    | .clip => last.lineEnd
    | .keep => last.lineEnd ++ last.breaks
  return (text ++ tail, behind)

end Snippet.Yaml
