import Snippet.Decimal.Reader
import Snippet.Script.Nesting
import Snippet.Script.Symbols
import Snippet.Text.Alphanumeric
import Snippet.Text.Blank
import Snippet.Word

/-!
# From the source text to the syntax tree

`parse` refuses a text with too many open brackets, matches the grammar, and builds the tree from
the matched nodes. The grammar reports bytes, while the tree and the complaints have the numbers of
characters, which are looked up in a table. Building can still refuse: a tree deeper than
`maxDepth`, an integer that does not fit, an unknown escape in a string.

Depths count the levels of the grammar rather than those of the tree, and the operators of a chain
one by one. The most negative integer is written as a minus and digits that do not fit on their
own; the two together are one literal.

A statement is built by the shape of its node, with keywords and terminators at their places. A
shape that the grammar cannot produce is answered by `Problem.malformed`.
-/

namespace Snippet.Script

open Grammar

/-- The deepest tree that is built. -/
def maxDepth : Nat := 256

/-- What a complaint says was found: the word or character at the front of a text. -/
def foundToken (rest : List Char) : String :=
  match Text.trimStart rest with
  | [] => "end of input"
  | c :: rest =>
    let inWord := fun c ↦ Text.isAlphanumeric c || c == '_'
    let token := if inWord c then c :: rest.takeWhile inWord else [c]
    "'" ++ String.ofList token ++ "'"

/-- What keeps a text from matching the grammar: what was found where these symbols failed. -/
def syntaxProblem (found : String) (symbols : List Symbol) : Problem :=
  let names := (Symbol.inOrder.filter (symbols.contains ·)).filterMap (·.description)
  if names.contains "expression" then .expectedExpression found
  else if names.isEmpty then .unexpected found
  else .expectedOneOf names.eraseDups found

/-- The complaint that explains why a text does not match the grammar. The place of the attempts is
the number of a byte, at which the text is cut. -/
def syntaxComplaint (offsets : Offsets) (tried : Attempts Symbol) (source : List Char) :
    Complaint :=
  let place := offsets.charAt tried.place
  let rest := (cutAt? (min tried.place (byteLength source)) source).elim [] (·.2)
  ⟨syntaxProblem (foundToken rest) tried.symbols, ⟨place, place⟩⟩

/-- The number that a run of decimal digits denotes. -/
def digitsValue (digits : List Char) : Nat :=
  digits.foldl (fun n c ↦ 10 * n + (c.toNat - '0'.toNat)) 0

/-- The character that stands behind a backslash for another one. -/
def escape? : Char → Option Char
  | 'n' => some '\n'
  | 't' => some '\t'
  | 'r' => some '\r'
  | '0' => some '\x00'
  | '\\' => some '\\'
  | '"' => some '"'
  | '\'' => some '\''
  | _ => none

/-- What stands between the quotes of a string literal. -/
def quotedBody? : List Char → Option (List Char)
  | '"' :: rest => if rest.getLast? = some '"' then some rest.dropLast else none
  | _ => none

@[simp]
theorem quotedBody?_quoted (body : List Char) :
    quotedBody? ('"' :: (body ++ ['"'])) = some body := by
  simp [quotedBody?]

/-- The text of a string body that starts at `place`. -/
def unescape (place : Nat) : List Char → Except Complaint (List Char)
  | [] => .ok []
  | '\\' :: c :: rest =>
    match escape? c with
    | some e => (unescape (place + 2) rest).map (e :: ·)
    | none => .error ⟨.badEscape c, ⟨place, place + 2⟩⟩
  -- a lexeme for strings never ends in a single backslash
  | ['\\'] => .ok []
  | c :: rest => (unescape (place + 1) rest).map (c :: ·)

/-- The place of a node. -/
def nodeSpan (node : Node Symbol) : Span :=
  ⟨node.start, node.stop⟩

/-- The text of a token. -/
def nodeText (node : Node Symbol) : String :=
  String.ofList node.text

/-- A name where it stands. -/
def identOf (node : Node Symbol) : Ident :=
  ⟨nodeText node, nodeSpan node⟩

/-- Puts operators in front of an operand, the last one innermost. -/
def applyUnary (ops : List (UnaryOp × Span)) (operand : Expr) : Expr :=
  ops.foldr (fun (op, span) e ↦ .unary (span.join e.span) op e) operand

/-- The literal that a minus and an operand of these nodes form together: the most negative
integer, whose digits alone do not fit. -/
def mostNegative? (minus : Option (UnaryOp × Span)) : Node Symbol → Option Expr
  | .mk .postfixed (start, stop) _ [.mk .intLit _ text _] =>
    match minus with
    | some (.neg, place) =>
      -- one more than the greatest integer
      if digitsValue text = intBound then
        some (.literal (place.join ⟨start, stop⟩) (.int Int64.minValue))
      else none
    | _ => none
  | _ => none

/-- Refuses to go on at a depth beyond the limit. -/
def checkDepth (depth : Nat) (span : Span) : Except Complaint Unit :=
  if maxDepth < depth then .error ⟨.tooDeep, span⟩ else .ok ()

mutual

/-- The expression of a node. -/
def exprOf (depth : Nat) : Node Symbol → Except Complaint Expr
  | .mk symbol (start, stop) text parts => do
    let span : Span := ⟨start, stop⟩
    checkDepth depth span
    match symbol, parts with
    | .expr, [head] => exprOf (depth + 1) head
    | .expr, [head, yes, no] =>
      let cond ← exprOf (depth + 1) head
      let yes ← exprOf (depth + 1) yes
      let no ← exprOf (depth + 1) no
      return .ternary span cond yes no
    | .orExpr, head :: rest | .andExpr, head :: rest | .eqExpr, head :: rest
    | .cmpExpr, head :: rest | .addExpr, head :: rest | .mulExpr, head :: rest =>
      let lhs ← exprOf (depth + 1) head
      chainOf span depth lhs rest
    | .unary, parts => unaryOf span depth [] parts
    | .postfixed, head :: rest =>
      let target ← exprOf (depth + 1) head
      suffixesOf span depth target rest
    | .intLit, _ =>
      let n := digitsValue text
      if n < intBound then return .literal span (.int (Int64.ofNat n))
      else throw ⟨.constantTooLarge, span⟩
    | .floatLit, _ =>
      match Decimal.ofText? (String.ofList text) with
      | some x => return .literal span (.float x)
      | none => throw ⟨.malformed, span⟩
    | .stringLit, _ =>
      match quotedBody? text with
      | some body =>
        let chars ← unescape (start + 1) body
        return .literal span (.string (String.ofList chars))
      | none => throw ⟨.malformed, span⟩
    | .boolLit, _ => return .literal span (.bool (text == "true".toList))
    | .nullLit, _ => return .literal span .null
    | .ident, _ => return .name span (String.ofList text)
    | .listLit, items => return .list span (← exprsOf (depth + 1) items)
    | .mapLit, entries => return .map span (← entriesOf (depth + 1) entries)
    | _, _ => throw ⟨.malformed, span⟩

/-- The expressions of nodes, all at one depth. -/
def exprsOf (depth : Nat) : List (Node Symbol) → Except Complaint (List Expr)
  | [] => return []
  | node :: rest => do
    let e ← exprOf depth node
    return e :: (← exprsOf depth rest)

/-- The entries of a map. -/
def entriesOf (depth : Nat) : List (Node Symbol) → Except Complaint (List (Expr × Expr))
  | [] => return []
  | .mk _ _ _ [key, value] :: rest => do
    let key ← exprOf depth key
    let value ← exprOf depth value
    return (key, value) :: (← entriesOf depth rest)
  | node :: _ => throw ⟨.malformed, nodeSpan node⟩

/-- Operators and operands behind a first operand, joined from the left. -/
def chainOf (span : Span) (depth : Nat) (lhs : Expr) :
    List (Node Symbol) → Except Complaint Expr
  | [] => return lhs
  | op :: operand :: rest => do
    checkDepth (depth + 1) span
    match BinaryOp.ofSymbol? (nodeText op) with
    | none => throw ⟨.malformed, nodeSpan op⟩
    | some op =>
      let rhs ← exprOf (depth + 2) operand
      chainOf span (depth + 1) (.binary (lhs.span.join rhs.span) op lhs rhs) rest
  | [_] => throw ⟨.malformed, span⟩

/-- Operators in front of an operand. -/
def unaryOf (span : Span) (depth : Nat) (ops : List (UnaryOp × Span)) :
    List (Node Symbol) → Except Complaint Expr
  | [operand] =>
    match mostNegative? ops.getLast? operand with
    | some literal => do
      -- the minus is part of the literal and no level of its own
      checkDepth (depth + (ops.length - 1)) span
      return applyUnary ops.dropLast literal
    | none => do
      let e ← exprOf (depth + ops.length + 1) operand
      checkDepth (depth + ops.length) span
      return applyUnary ops e
  | op :: rest =>
    let kind := if op.text == ['!'] then UnaryOp.not else .neg
    unaryOf span depth (ops ++ [(kind, nodeSpan op)]) rest
  | [] => throw ⟨.malformed, span⟩

/-- Calls, indexing and member access behind a target. -/
def suffixesOf (span : Span) (depth : Nat) (target : Expr) :
    List (Node Symbol) → Except Complaint Expr
  | [] => return target
  | .mk symbol (start, stop) _ parts :: rest => do
    checkDepth (depth + 1) span
    let joined := target.span.join ⟨start, stop⟩
    match symbol, parts with
    | .callArgs, args =>
      let args ← exprsOf (depth + 2) args
      suffixesOf span (depth + 1) (.call joined target args) rest
    | .index, [index] =>
      let index ← exprOf (depth + 2) index
      suffixesOf span (depth + 1) (.index joined target index) rest
    | .member, [field] => suffixesOf span (depth + 1) (.member joined target (identOf field)) rest
    | _, _ => throw ⟨.malformed, ⟨start, stop⟩⟩

end

/-- The steps of an assignment path. -/
def pathOf (depth : Nat) : List (Node Symbol) → Except Complaint (List Accessor)
  | [] => return []
  | node :: rest => do
    let step ←
      match node with
      | .mk .index _ _ [index] => Accessor.index <$> exprOf depth index
      | .mk .member _ _ [field] => pure (.member (identOf field))
      | node => throw ⟨.malformed, nodeSpan node⟩
    return step :: (← pathOf depth rest)

/-- The declared type of a token. -/
def typeOf (node : Node Symbol) : Except Complaint DeclType :=
  match DeclType.ofWord? (nodeText node) with
  | some type => .ok type
  | none => .error ⟨.malformed, nodeSpan node⟩

mutual

/-- The statement of a node. -/
def stmtOf (depth : Nat) : Node Symbol → Except Complaint Stmt
  | .mk symbol (start, stop) _ parts => do
    let span : Span := ⟨start, stop⟩
    checkDepth depth span
    match symbol, parts with
    | .block, body => return .block span (← stmtsOf (depth + 1) body)
    | .ifStmt, [_, cond, yes] =>
      let cond ← exprOf (depth + 1) cond
      let yes ← stmtOf (depth + 1) yes
      return .ifElse span cond yes none
    | .ifStmt, [_, cond, yes, _, no] =>
      let cond ← exprOf (depth + 1) cond
      let yes ← stmtOf (depth + 1) yes
      let no ← stmtOf (depth + 1) no
      return .ifElse span cond yes (some no)
    | .whileStmt, [_, cond, body] =>
      let cond ← exprOf (depth + 1) cond
      let body ← stmtOf (depth + 1) body
      return .whileLoop span cond body
    | .foreachStmt, [_, type, binding, _, items, body] =>
      let type ← typeOf type
      let items ← exprOf (depth + 1) items
      let body ← stmtOf (depth + 1) body
      return .forEach span type (identOf binding) items body
    | .returnStmt, [_, _] => return .returnWith span none
    | .returnStmt, [_, value, _] =>
      let value ← exprOf (depth + 1) value
      return .returnWith span (some value)
    | .throwStmt, [_, value, _] => return .throwWith span (← exprOf (depth + 1) value)
    | .breakStmt, _ => return .breakLoop span
    | .continueStmt, _ => return .continueLoop span
    | .emptyStmt, _ => return .empty span
    | .declaration, [type, name, _] =>
      let type ← typeOf type
      return .declare span type (identOf name) none
    | .declaration, [type, name, value, _] =>
      let type ← typeOf type
      let value ← exprOf (depth + 1) value
      return .declare span type (identOf name) (some value)
    | .assignment, [.mk _ _ _ (root :: path), op, value, _] =>
      let path ← pathOf (depth + 2) path
      match AssignOp.ofSymbol? (nodeText op) with
      | none => throw ⟨.malformed, nodeSpan op⟩
      | some op =>
        let value ← exprOf (depth + 1) value
        return .assign span (identOf root) path op value
    | .exprStmt, [value, _] => return .expression span (← exprOf (depth + 1) value)
    | _, _ => throw ⟨.malformed, span⟩

/-- The statements of nodes, all at one depth. -/
def stmtsOf (depth : Nat) : List (Node Symbol) → Except Complaint (List Stmt)
  | [] => return []
  | node :: rest => do
    let s ← stmtOf depth node
    return s :: (← stmtsOf depth rest)

end

/-- The program of the parts of its node. -/
def programOf : List (Node Symbol) → Except Complaint Program
  | [] => return ⟨[], none⟩
  | .mk .ending _ _ _ :: rest => programOf rest
  | .mk .tailExpr _ _ [value] :: rest => do
    let value ← exprOf 0 value
    let program ← programOf rest
    return { program with tail := some value }
  | node :: rest => do
    let s ← stmtOf 0 node
    let program ← programOf rest
    return { program with statements := s :: program.statements }

/-- The program that a source text denotes, or the one complaint that keeps it from being one. -/
def parse (source : String) : Except Complaint Program := do
  let chars := source.toList
  checkNesting chars
  let offsets := Offsets.ofText chars
  match language.report .program chars with
  | .error tried => throw (syntaxComplaint offsets tried chars)
  | .ok node => programOf (node.mapPlaces offsets.charAt).parts

end Snippet.Script
