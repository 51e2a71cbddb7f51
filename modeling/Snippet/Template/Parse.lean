import Snippet.Json.Reader
import Snippet.Template.Symbols
import Snippet.Template.Tree
import Snippet.Text.Blank

/-!
# From the source text to the template

`parse` matches the grammar and builds the elements from the matched nodes. The source between two
nodes is text, too; on the way the blanks around tags are settled:

* a tilde takes all blanks on its side of a tag, up to the text's next or previous character. It
  has no effect beyond the neighbouring text, but a closing one holds until the next tag;
* a tag that is neither a value nor a call stands on a line of its own if there are only blanks
  around it on that line. Such a line is taken out, with its end.

A block of chained branches becomes a block in the other branch of the one before it.
-/

namespace Snippet.Template

open Grammar

/-- Why a text is not a template. -/
inductive SyntaxError where
  | unreadable (place : Nat)
  | badLiteral (text : String)
  | wrongEnd (opened closed : String)
  deriving DecidableEq, Repr, Inhabited

/-- The wording of a syntax error. -/
def SyntaxError.message : SyntaxError → String
  | unreadable place => "invalid syntax at character " ++ toString place
  | badLiteral text => "invalid literal " ++ text
  | wrongEnd opened closed => "block " ++ opened ++ " is closed as " ++ closed

/-- The characters between two places of a source. -/
def sourceText (source : List Char) (start stop : Nat) : List Char :=
  (source.drop start).take (stop - start)

/-! ### Blanks around tags -/

/-- The blanks within a line. -/
def isLineBlank (c : Char) : Bool :=
  c == ' ' || c == '\t'

/-- The characters that end a line. -/
def isLineEnd (c : Char) : Bool :=
  c == '\n' || c == '\r'

/-- A text without its last characters of a kind. -/
def dropEndWhile (p : Char → Bool) (s : List Char) : List Char :=
  (s.reverse.dropWhile p).reverse

/-- A text without the rest of a line that holds blanks only, and without its end. -/
def dropLineRest (s : List Char) : List Char :=
  match s.dropWhile isLineBlank with
  | '\r' :: '\n' :: rest => rest
  | '\n' :: rest => rest
  | rest => rest

/-- Whether the rest of the line is blank, and a line end follows. The end of the source is as good
as a line end, but only where no blanks stand in front of it. -/
def blankBehind (rest : List Char) : Bool :=
  rest.isEmpty || (rest.dropWhile isLineBlank).head?.any isLineEnd

/-- Whether the line up to here is blank. -/
def blankBefore (front : List Char) : Bool :=
  (front.reverse.dropWhile isLineBlank).head?.all isLineEnd

/-- The elements read so far of one list, latest first, and what is known of the blanks ahead. -/
structure Reading where
  elements : List Element
  /-- Where the last node ended. -/
  stop : Nat
  /-- Whether a tilde takes the blanks ahead. -/
  dropBlanks : Bool
  /-- Whether the rest of the line ahead is taken out. -/
  dropLine : Bool

namespace Reading

/-- Nothing has been read. -/
def start : Reading :=
  ⟨[], 0, false, false⟩

/-- A list inside the one being read. -/
def inside (r : Reading) : Reading :=
  { r with elements := [] }

/-- Adds an element. -/
def push (e : Element) (r : Reading) : Reading :=
  { r with elements := e :: r.elements }

/-- Changes the text directly in front. -/
def mapLastText (f : List Char → List Char) (r : Reading) : Reading :=
  match r.elements with
  | .text s :: rest => { r with elements := .text (String.ofList (f s.toList)) :: rest }
  | _ => r

/-- Reads the source between the last node and the next one. -/
def readGap (source : List Char) (next : Nat) (r : Reading) : Reading :=
  if next = r.stop ∨ r.dropBlanks then r
  else
    let gap := sourceText source r.stop next
    let gap := if r.dropLine then dropLineRest gap else gap
    -- the line is out once text has followed it
    { r.push (.text (String.ofList gap)) with dropLine := false }

/-- Reads text, with what stands between it and the last node. `inner` is the text without the
backslashes that keep braces in it. -/
def readText (source : List Char) (start stop : Nat) (inner : List Char) (r : Reading) : Reading :=
  let text := sourceText source r.stop start ++ inner
  let text :=
    if r.dropBlanks then Text.trimStart text
    else if r.dropLine then dropLineRest text
    else text
  { r.push (.text (String.ofList text)) with stop, dropLine := false }

/-- Moves over a tag, and minds its tildes. -/
def readTag (source : List Char) (tag : Node Symbol) (r : Reading) : Reading :=
  let r := r.readGap source tag.start
  let r :=
    if tag.parts.any (·.symbol == .leadTilde) then r.mapLastText (dropEndWhile Text.isBlank) else r
  { r with stop := tag.stop, dropBlanks := tag.parts.any (·.symbol == .trailTilde) }

/-- Takes out the line of a tag that stands on one of its own. -/
def settleLine (source : List Char) (tag : Node Symbol) (r : Reading) : Reading :=
  if blankBehind (source.drop tag.stop) && blankBefore (source.take tag.start) then
    { r.mapLastText (dropEndWhile isLineBlank) with dropLine := true }
  else { r with dropLine := false }

/-- Moves over a tag that may stand on a line of its own. -/
def readLineTag (source : List Char) (tag : Node Symbol) (r : Reading) : Reading :=
  (r.readTag source tag).settleLine source tag

end Reading

/-! ### Parameters -/

/-- The text of a token. -/
def tokenText (node : Node Symbol) : String :=
  String.ofList node.text

/-- The body of a string in single quotes, as one in double quotes. -/
def doubleQuoted : List Char → List Char
  | [] => []
  | '\\' :: '\'' :: rest => '\'' :: doubleQuoted rest
  | '"' :: rest => '\\' :: '"' :: doubleQuoted rest
  | c :: rest => c :: doubleQuoted rest

/-- The value of a literal. Single quotes stand around a whole literal only. -/
def literalOf (source : List Char) (node : Node Symbol) : Except SyntaxError Json :=
  let written := sourceText source node.start node.stop
  let json :=
    match node.parts with
    | [.mk .singleQuoted _ text _] => '"' :: doubleQuoted (text.drop 1).dropLast ++ ['"']
    | _ => written
  match Json.parseBounded? (String.ofList json) with
  | some value => .ok value.sorted
  | none => .error (.badLiteral (String.ofList written))

/-- The path of a reference. The name `this` stands for the value it is looked up in. -/
def pathOf (source : List Char) (node : Node Symbol) : Path :=
  let isName (p : Node Symbol) : Bool := p.symbol == .pathName || p.symbol == .pathKey
  let names := ((node.parts.filter isName).map tokenText).filter (· != "this")
  let levels := node.parts.countP (·.symbol == .upMark)
  let start :=
    if node.parts.any (·.symbol == .rootMark) then .root
    else if node.parts.any (·.symbol == .localMark) then
      if names.isEmpty then .block 0 else .locals levels
    else .block levels
  ⟨String.ofList (sourceText source node.start node.stop), start, names⟩

/-- Sets an argument by name; a later one takes the place of an earlier one. -/
def setOption (name : String) (value : Param) (options : List (String × Param)) :
    List (String × Param) :=
  options.filter (·.1 != name) ++ [(name, value)]

mutual

/-- The parameter of a node. -/
def paramOf (source : List Char) : Node Symbol → Except SyntaxError Param
  | .mk .param _ _ [inner] => paramOf source inner
  | .mk .call _ _ (.mk .name _ text _ :: rest) => do
    let (params, options) ← argumentsOf source [] [] rest
    return .call (String.ofList text) params options
  | .mk .call _ _ [reference] => return .call (pathOf source reference).text [] []
  | .mk .literal span text parts =>
    return .literal (← literalOf source (.mk .literal span text parts))
  | node => return .path (pathOf source node)

/-- The arguments among nodes. -/
def argumentsOf (source : List Char) (params : List Param) (options : List (String × Param)) :
    List (Node Symbol) → Except SyntaxError (List Param × List (String × Param))
  | [] => return (params, options)
  | .mk .hash _ _ [.mk _ _ name _, value] :: rest => do
    let value ← paramOf source value
    argumentsOf source params (setOption (String.ofList name) value options) rest
  | node :: rest =>
    match node.symbol with
    | .param => do
      let param ← paramOf source node
      argumentsOf source (params ++ [param]) options rest
    | _ => argumentsOf source params options rest

end

/-- The call in a tag that starts with the name of a helper. -/
def callOf (source : List Char) (parts : List (Node Symbol)) : Except SyntaxError Call := do
  let name := (parts.find? (·.symbol == .name)).elim "" tokenText
  let (params, options) ← argumentsOf source [] [] parts
  return ⟨name, params, options⟩

/-- The names that a tag gives to what its helper hands out. -/
def namesOf (parts : List (Node Symbol)) : List String :=
  ((parts.find? (·.symbol == .blockParams)).elim [] (·.parts)).map tokenText

/-- The element of a tag in the text: a call if it has arguments, and a value if it has none. -/
def inlineOf (source : List Char) (tag : Node Symbol) : Except SyntaxError Element := do
  let markup := tag.symbol == .markup
  if tag.parts.any (·.symbol == .name) then
    return .call markup (← callOf source tag.parts) none none
  else
    match tag.parts.find? fun p ↦ p.symbol == .call || p.symbol == .reference with
    | some node => return .value markup (← paramOf source node) none none
    | none => throw (.unreadable tag.start)

/-- Checks that a block is closed by its name. -/
def checkEnd (opened : String) (tag : Node Symbol) : Except SyntaxError Unit :=
  let closed := (tag.parts.find? fun p ↦ p.symbol == .name || p.symbol == .inclusionName).elim ""
    tokenText
  if opened = closed then .ok () else .error (.wrongEnd opened closed)

/-- The name of a partial. -/
def inclusionName (source : List Char) (tag : Node Symbol) : String :=
  match tag.parts.find? fun p ↦ p.symbol != .leadTilde with
  | some p => String.ofList (sourceText source p.start p.stop)
  | none => ""

/-! ### Elements -/

/-- A block's body, its other branch, and what is known behind the block. -/
structure Branches where
  body : List Element
  otherwise : Option (List Element)
  behind : Reading

mutual

/-- Reads one node. -/
def readElement (source : List Char) (r : Reading) : Node Symbol → Except SyntaxError Reading
  | .mk .text (start, stop) _ _ =>
    return r.readText source start stop (textUpTo openBraces 0 (source.drop start)).1
  | .mk .comment span text parts =>
    let tag := Node.mk .comment span text parts
    let r : Reading := { r.readGap source tag.start with stop := tag.stop }
    return (r.settleLine source tag).push .comment
  | .mk .block _ _ (tag :: .mk .body _ _ inner :: rest) => do
    let r := r.readLineTag source tag
    let call ← callOf source tag.parts
    let branches ← readBranches source call.helper (← readElements source r.inside inner) rest
    return { branches.behind with
      elements :=
        .block call (namesOf tag.parts) (some branches.body) branches.otherwise :: r.elements }
  | .mk .rawBlock _ _ [tag, .mk _ (start, stop) _ _, tagEnd] => do
    let r := r.readLineTag source tag
    let call ← callOf source tag.parts
    let text := (textUpTo openRaw 0 (source.drop start)).1
    let text :=
      if r.dropBlanks then Text.trimStart text
      else if r.dropLine then dropLineRest text
      else text
    let inner : Reading := { r.inside.push (.text (String.ofList text)) with stop }
    let inner := inner.readLineTag source tagEnd
    checkEnd call.helper tagEnd
    return { inner with
      elements :=
        .block call (namesOf tag.parts) (some inner.elements.reverse) none :: r.elements }
  | .mk .decoratorBlock _ _ [tag, .mk .body _ _ inner, tagEnd] => do
    let r := r.readLineTag source tag
    let call ← callOf source tag.parts
    let inner ← readElements source r.inside inner
    let inner := inner.readLineTag source tagEnd
    checkEnd call.helper tagEnd
    return { inner with elements := .decorator call (some inner.elements.reverse) :: r.elements }
  | .mk .inclusionBlock _ _ [tag, .mk .body _ _ inner, tagEnd] => do
    let r := r.readLineTag source tag
    let _ ← argumentsOf source [] [] tag.parts
    let inner ← readElements source r.inside inner
    let inner := inner.readLineTag source tagEnd
    checkEnd (inclusionName source tag) tagEnd
    return { inner with elements := .inclusion (some inner.elements.reverse) :: r.elements }
  | .mk .decorator span text parts => do
    let tag := Node.mk .decorator span text parts
    return (r.readLineTag source tag).push (.decorator (← callOf source parts) none)
  | .mk .inclusion span text parts => do
    let _ ← argumentsOf source [] [] parts
    return (r.readLineTag source (.mk .inclusion span text parts)).push (.inclusion none)
  | tag => return (r.readTag source tag).push (← inlineOf source tag)

/-- Reads the nodes of one list. -/
def readElements (source : List Char) (r : Reading) :
    List (Node Symbol) → Except SyntaxError Reading
  | [] => return r
  | node :: rest => do readElements source (← readElement source r node) rest

/-- Reads the tags inside and behind a block whose body so far is `inner`. -/
def readBranches (source : List Char) (name : String) (inner : Reading) :
    List (Node Symbol) → Except SyntaxError Branches
  | tag :: .mk .body _ _ nodes :: rest => do
    let r := inner.readLineTag source tag
    let next ← readElements source r.inside nodes
    let branches ← readBranches source name next rest
    let body := r.elements.reverse
    match tag.symbol with
    | .chainTag =>
      -- the rest of the chain is the one element of the other branch
      let block := Element.block (← callOf source tag.parts) (namesOf tag.parts)
        (some branches.body) branches.otherwise
      return ⟨body, some [block], branches.behind⟩
    | _ => return ⟨body, some branches.body, branches.behind⟩
  | tag :: _ => do
    let r := inner.readLineTag source tag
    checkEnd name tag
    return ⟨r.elements.reverse, none, r⟩
  | [] => throw (.unreadable inner.stop)

end

/-- The elements of a text, or why it has none. -/
def parse (text : String) : Except SyntaxError (List Element) := do
  let source := text.toList
  match language.parse .document source with
  | .error tried => throw (.unreadable tried.place)
  | .ok (.mk _ _ _ [.mk .body _ _ nodes, _]) =>
    let r ← readElements source .start nodes
    return (r.readGap source source.length).elements.reverse
  | .ok node => throw (.unreadable node.stop)

/-- What makes templates of texts: the elements of a text, or the words that say why it has none. -/
abbrev Parser :=
  String → Except String (List Element)

/-- The parser of this grammar. -/
def standardParser : Parser := fun text ↦
  (parse text).mapError SyntaxError.message

/-- The elements of a text that may be rendered: one without partials. -/
def compileWith (parser : Parser) (text : String) : Except String (List Element) := do
  let elements ← parser text
  if anyUsesPartials elements then throw "partials are not supported" else return elements

end Snippet.Template
