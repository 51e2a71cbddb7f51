import Snippet.Yaml.Scalar

/-!
# Tokens of YAML

Indentation opens and closes collections, so tokens for this are put between those that stand in
the text. A key is known for one only at the colon behind it: until then the place of everything
that may be a key is remembered, and the tokens that open its mapping are put there later.

A key stands on one line and has at most 1024 characters. Where an entry of a mapping is due, what
stands there has to be a key.
-/

namespace Snippet.Yaml

/-- A token. -/
inductive Token where
  /-- A version or a shorthand for tags. -/
  | version (isKnown : Bool)
  | handle (name : String)
  | documentStart
  | documentEnd
  | blockSequence
  | blockMapping
  | blockEnd
  | flowSequence
  | flowSequenceEnd
  | flowMapping
  | flowMappingEnd
  | item
  | comma
  | key
  | value
  | alias (name : String)
  | anchor (name : String)
  | tag (handle suffix : String)
  | scalar (text : String) (style : Style)
  deriving DecidableEq, Repr, Inhabited

/-- A place at which a key may have started. -/
structure KeyStart where
  /-- The number of tokens in front of it. -/
  tokens : Nat
  offset : Nat
  line : Nat
  column : Nat
  /-- Whether it has to be a key. -/
  isDue : Bool
  deriving Repr, Inhabited

/-- The state of reading tokens. -/
structure Scanner where
  cursor : Cursor
  tokens : Array Token
  /-- The columns of the open block collections, innermost first. -/
  columns : List Nat
  /-- What may be a key in each open flow collection, innermost first, and last outside of all. -/
  keys : List (Option KeyStart)
  /-- Whether a key may start here. -/
  keyAllowed : Bool
  deriving Repr, Inhabited

namespace Scanner

/-- The start of a text. -/
def start (text : List Char) : Scanner :=
  ⟨.start text, #[], [], [none], true⟩

/-- Whether a flow collection is open. -/
def inFlow (s : Scanner) : Bool :=
  1 < s.keys.length

/-- The least column inside the innermost block collection. -/
def floor (s : Scanner) : Nat :=
  s.columns.head?.elim 0 (· + 1)

/-- Adds a token. -/
def push (t : Token) (s : Scanner) : Scanner :=
  { s with tokens := s.tokens.push t }

/-- Adds a token that stands in the text with these many characters. -/
def pushMark (t : Token) (length : Nat) (s : Scanner) : Scanner :=
  { s.push t with cursor := s.cursor.skip length }

/-- Says whether a key may start next. -/
def allowKey (allowed : Bool) (s : Scanner) : Scanner :=
  { s with keyAllowed := allowed }

/-- Forgets what may be a key in the innermost flow collection, unless it has to be one. -/
def dropKey? (s : Scanner) : Option Scanner :=
  match s.keys with
  | some key :: rest => if key.isDue then none else some { s with keys := none :: rest }
  | _ => some s

/-- Remembers that a key may start here. -/
def markKey? (s : Scanner) : Option Scanner :=
  if s.keyAllowed then do
    -- where an open mapping has its keys nothing but a key may stand
    let isDue := !s.inFlow && s.columns.head? == some s.cursor.column
    let s ← s.dropKey?
    let key : KeyStart :=
      ⟨s.tokens.size, s.cursor.offset, s.cursor.line, s.cursor.column, isDue⟩
    return { s with keys := some key :: s.keys.tail }
  else some s

/-- Forgets what cannot be a key any more. -/
def dropStale? (s : Scanner) : Option Scanner := do
  let keys ← s.keys.mapM fun key? ↦
    match key? with
    | some key =>
      if key.line < s.cursor.line || key.offset + 1024 < s.cursor.offset then
        if key.isDue then none else some none
      else some (some key)
    | none => some none
  return { s with keys }

/-- Opens a block collection at a column, unless one is open there. Its token goes in front of
those behind the first `place`. -/
def openBlock (t : Token) (column place : Nat) (s : Scanner) : Scanner :=
  if s.inFlow || s.columns.head?.any (column ≤ ·) then s
  else { s with columns := column :: s.columns, tokens := s.tokens.insertIdxIfInBounds place t }

/-- Closes the block collections to the right of a column. -/
def closeBlocks (column : Nat) (s : Scanner) : Scanner :=
  if s.inFlow then s
  else
    let closed := (s.columns.takeWhile (column < ·)).length
    { s with
      columns := s.columns.drop closed
      tokens := s.tokens ++ List.replicate closed Token.blockEnd }

/-- Closes all block collections. -/
def closeAll (s : Scanner) : Scanner :=
  if s.inFlow then s
  else
    { s with
      columns := []
      tokens := s.tokens ++ List.replicate s.columns.length Token.blockEnd }

/-- Moves over blanks, comments and line ends. A tab may stand where no key can start. -/
def skipBlanks (s : Scanner) : Scanner :=
  let c := s.cursor.dropWhile fun c ↦ c == ' ' || (s.inFlow || !s.keyAllowed) && c == '\t'
  let c := if c.rest.head? == some '#' then c.dropWhile (!isBreak ·) else c
  if c.break?.isSome ∧ c.nextLine.rest.length < s.cursor.rest.length then
    skipBlanks { s with cursor := c.nextLine, keyAllowed := s.keyAllowed || !s.inFlow }
  else { s with cursor := c }
termination_by s.cursor.rest.length
decreasing_by
  rename_i h
  exact h.2

/-! ### Tokens that stand in the text -/

/-- The characters of names of anchors. -/
def isNameChar (c : Char) : Bool :=
  c.isAlphanum || c == '_' || c == '-'

/-- The characters of tags. -/
def isTagChar (c : Char) : Bool :=
  isNameChar c || ";/?:@&=+$.%!~*'()".toList.contains c

/-- An anchor or an alias. -/
def anchor? (make : String → Token) (s : Scanner) : Option Scanner := do
  let s ← s.markKey?
  let (name, behind) := (s.cursor.skip 1).takeWhile isNameChar
  let ends := endsWord behind.rest || behind.rest.head?.any "?:,]\x7d%@\x60".toList.contains
  if name.isEmpty || !ends then none
  else return { (s.push (make (String.ofList name))).allowKey false with cursor := behind }

/-- A tag: a full one between angle brackets, or a handle between exclamation marks and the rest of
a name. -/
def tag? (s : Scanner) : Option Scanner := do
  let s ← s.markKey?
  let ends (c : Cursor) : Bool :=
    endsWord c.rest || s.inFlow && c.rest.head? == some ','
  let finish (handle suffix : List Char) (c : Cursor) : Option Scanner :=
    if ends c then
      some { (s.push (.tag (String.ofList handle) (String.ofList suffix))).allowKey false with
        cursor := c }
    else none
  match s.cursor.rest with
  | '!' :: '<' :: _ =>
    let (name, behind) := (s.cursor.skip 2).takeWhile fun c ↦
      isTagChar c || c == ',' || c == '[' || c == ']'
    if name.isEmpty || behind.rest.head? != some '>' then none else finish [] name (behind.skip 1)
  | _ =>
    let (name, behind) := (s.cursor.skip 1).takeWhile isNameChar
    if behind.rest.head? == some '!' then
      let (suffix, stop) := (behind.skip 1).takeWhile isTagChar
      if suffix.isEmpty then none else finish ('!' :: name ++ ['!']) suffix stop
    else
      let (suffix, stop) := (s.cursor.skip 1).takeWhile isTagChar
      finish ['!'] suffix stop

/-- A directive at the start of a line. -/
def directive? (s : Scanner) : Option Scanner := do
  let s ← s.closeAll.dropKey?
  let (line, behind) := s.cursor.takeWhile (!isBreak ·)
  let line := line.takeWhile (· != '#')
  let words := ((String.ofList line).split fun c ↦ c == ' ' || c == '\t').toStringList.filter
    (!·.isEmpty)
  let token : Option Token :=
    match words with
    | ["%YAML", version] => some (.version (version == "1.1" || version == "1.2"))
    | ["%TAG", handle, _] => some (.handle handle)
    | _ => none
  return { (s.push (← token)).allowKey false with cursor := behind }

/-- A mark between documents. -/
def documentMark? (t : Token) (s : Scanner) : Option Scanner := do
  let s ← s.closeAll.dropKey?
  return (s.pushMark t 3).allowKey false

/-- The start of a flow collection. -/
def openFlow? (t : Token) (s : Scanner) : Option Scanner := do
  let s ← s.markKey?
  return { (s.pushMark t 1).allowKey true with keys := none :: s.keys }

/-- The end of a flow collection. -/
def closeFlow? (t : Token) (s : Scanner) : Option Scanner := do
  let s ← s.dropKey?
  return { (s.pushMark t 1).allowKey false with
    keys := if s.inFlow then s.keys.tail else s.keys }

/-- A comma between the parts of a flow collection. -/
def comma? (s : Scanner) : Option Scanner := do
  let s ← s.dropKey?
  return (s.pushMark .comma 1).allowKey true

/-- A hyphen in front of an item. -/
def item? (s : Scanner) : Option Scanner := do
  if !s.inFlow && !s.keyAllowed then none
  let s := s.openBlock .blockSequence s.cursor.column s.tokens.size
  let s ← s.dropKey?
  return (s.pushMark .item 1).allowKey true

/-- A question mark in front of a key. -/
def key? (s : Scanner) : Option Scanner := do
  if !s.inFlow && !s.keyAllowed then none
  let s := s.openBlock .blockMapping s.cursor.column s.tokens.size
  let s ← s.dropKey?
  return (s.pushMark .key 1).allowKey !s.inFlow

/-- A colon in front of a value. What may be a key in front of it is one. -/
def value? (s : Scanner) : Option Scanner :=
  match s.keys with
  | some key :: rest =>
    -- the key is put in first, so its mapping, put at the same place, opens in front of it
    let s := { s with keys := none :: rest, tokens := s.tokens.insertIdxIfInBounds key.tokens .key }
    some (((s.openBlock .blockMapping key.column key.tokens).pushMark .value 1).allowKey false)
  | _ =>
    if !s.inFlow && !s.keyAllowed then none
    else
      let s := s.openBlock .blockMapping s.cursor.column s.tokens.size
      some ((s.pushMark .value 1).allowKey !s.inFlow)

/-- A block scalar. -/
def block? (style : Style) (s : Scanner) : Option Scanner := do
  let s ← s.dropKey?
  let (text, behind) ← block (style == .folded) s.floor (s.cursor.skip 1)
  return { (s.push (.scalar (String.ofList text) style)).allowKey true with cursor := behind }

/-- A quoted scalar. -/
def quoted? (isSingle : Bool) (s : Scanner) : Option Scanner := do
  let s ← s.markKey?
  let (text, behind) ← quotedRest isSingle (s.cursor.skip 1)
  return { (s.push (.scalar (String.ofList text) .quoted)).allowKey false with cursor := behind }

/-- A plain scalar. -/
def plain? (s : Scanner) : Option Scanner := do
  let s ← s.markKey?
  let scalar ← plain s.inFlow s.floor s.cursor
  return { (s.push (.scalar (String.ofList scalar.text) .plain)).allowKey scalar.isBroken with
    cursor := scalar.behind }

/-- Whether a plain scalar may start here. -/
def startsPlain (inFlow : Bool) (c : Char) (rest : List Char) : Bool :=
  if c == '-' then !(rest.head?.any isSpaceOrTab)
  else if c == '?' || c == ':' then !inFlow && !endsWord rest
  else !(isSpaceOrTab c || isBreak c || ",[]\x7b\x7d#&*!|>'\"%@\x60".toList.contains c)

/-- Reads one token that starts with `c`. -/
def token? (s : Scanner) (c : Char) (rest : List Char) : Option Scanner :=
  let isWord := s.inFlow || endsWord rest
  if c == '%' && s.cursor.column == 0 then s.directive?
  else if s.cursor.isAt "---" then s.documentMark? .documentStart
  else if s.cursor.isAt "..." then s.documentMark? .documentEnd
  else if c == '[' then s.openFlow? .flowSequence
  else if c == '{' then s.openFlow? .flowMapping
  else if c == ']' then s.closeFlow? .flowSequenceEnd
  else if c == '}' then s.closeFlow? .flowMappingEnd
  else if c == ',' then s.comma?
  else if c == '-' && endsWord rest then s.item?
  else if c == '?' && isWord then s.key?
  else if c == ':' && isWord then s.value?
  else if c == '*' then s.anchor? .alias
  else if c == '&' then s.anchor? .anchor
  else if c == '!' then s.tag?
  else if c == '|' && !s.inFlow then s.block? .literal
  else if c == '>' && !s.inFlow then s.block? .folded
  else if c == '\'' then s.quoted? true
  else if c == '"' then s.quoted? false
  else if startsPlain s.inFlow c rest then s.plain?
  else none

/-- Reads the tokens up to the end of the text. -/
def run? (s : Scanner) : Option (Array Token) := do
  let next ← s.skipBlanks.dropStale?
  let next := next.closeBlocks next.cursor.column
  match next.cursor.rest with
  | [] => return (← next.closeAll.dropKey?).tokens
  | c :: rest =>
    let next ← next.token? c rest
    if next.cursor.rest.length < s.cursor.rest.length then next.run? else none
termination_by s.cursor.rest.length

end Scanner

/-- The tokens of a text, unless it is no YAML. A mark for the order of bytes may stand in front of
it. -/
def tokens? (text : String) : Option (List Token) := do
  let cs := text.toList
  let cs := if cs.head? == some '\ufeff' then cs.tail else cs
  if cs.all isPrintable then return (← (Scanner.start cs).run?).toList else none

end Snippet.Yaml
