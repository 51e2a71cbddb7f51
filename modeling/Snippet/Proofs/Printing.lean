import Snippet.Grammar.Pattern
import Snippet.Script.Symbols
import Snippet.Script.Tree

/-!
# Printing expressions

`Expr.tokens` writes an expression with no more parentheses than its operators need: an operand
stands in parentheses where it binds more loosely than its place asks for, and a map also does
where it would be the first thing in the text, since it would be read as a block there. Binary
operators of one level group to the left.

`Expr.node` is the node of the grammar that the printed form belongs to. Each level of the grammar
that an expression passes through has a node of its own (`raise`), and parentheses have none.
-/

namespace Snippet.Script

open Grammar

/-! ### What can be printed -/

/-- A word that can be a name: it starts with a letter or an underscore and is no keyword. -/
def isName (name : String) : Bool :=
  match name.toList with
  | [] => false
  | c :: rest => (c.isAlpha || c == '_') && rest.all isWordChar && !keywords.contains name

namespace Literal

/-- Whether a literal can be written: numbers carry no sign, and there are none with a point. -/
def Printable : Literal → Prop
  | .int value => 0 ≤ value.toInt
  | .float _ => False
  | _ => True

/-- The characters of a string body: quotes and backslashes stand behind a backslash. -/
def escaped : List Char → List Char
  | [] => []
  | c :: rest => if c = '"' ∨ c = '\\' then '\\' :: c :: escaped rest else c :: escaped rest

/-- The written form of a literal. -/
def spelling : Literal → List Char
  | .null => "null".toList
  | .bool true => "true".toList
  | .bool false => "false".toList
  | .int value => Nat.toDigits 10 value.toInt.toNat
  | .float _ => []
  | .string value => '"' :: (escaped value.toList ++ ['"'])

/-- The kind of token that a literal is. -/
def symbol : Literal → Symbol
  | .null => .nullLit
  | .bool _ => .boolLit
  | .int _ => .intLit
  | .float _ => .floatLit
  | .string _ => .stringLit

end Literal

mutual

/-- An expression all of whose names and literals can be written. -/
def Expr.Printable : Expr → Prop
  | .literal _ value => value.Printable
  | .name _ n => isName n = true
  | .list _ items => PrintableAll items
  | .map _ entries => PrintableEntries entries
  | .unary _ _ operand => operand.Printable
  | .binary _ _ lhs rhs => lhs.Printable ∧ rhs.Printable
  | .ternary _ cond yes no => cond.Printable ∧ yes.Printable ∧ no.Printable
  | .call _ callee args => callee.Printable ∧ PrintableAll args
  | .index _ target i => target.Printable ∧ i.Printable
  | .member _ target field => target.Printable ∧ isName field.name = true

/-- Expressions that can be written. -/
def Expr.PrintableAll : List Expr → Prop
  | [] => True
  | e :: rest => e.Printable ∧ PrintableAll rest

/-- Entries of a map that can be written. -/
def Expr.PrintableEntries : List (Expr × Expr) → Prop
  | [] => True
  | (key, value) :: rest => key.Printable ∧ value.Printable ∧ PrintableEntries rest

end

/-! ### Levels -/

/-- The level of an operator in the grammar: the higher, the tighter it binds. -/
def BinaryOp.level : BinaryOp → Nat
  | .or => 1
  | .and => 2
  | .eq | .ne => 3
  | .lt | .le | .gt | .ge => 4
  | .add | .sub => 5
  | .mul | .div | .rem => 6

/-- Signs and innermost expressions bind tighter than every operator with two operands. -/
theorem BinaryOp.level_lt (op : BinaryOp) : op.level < 8 := by
  cases op <;> decide

namespace Expr

/-- The level of an expression: that of its outermost operator. -/
def level : Expr → Nat
  | .ternary _ _ _ _ => 0
  | .binary _ op _ _ => op.level
  | .unary _ _ _ => 7
  | _ => 8

theorem level_le (e : Expr) : e.level ≤ 8 := by
  cases e with
  | binary _ op => exact Nat.le_of_lt op.level_lt
  | _ => simp [level]

/-- Whether an expression is a map. -/
def isMap : Expr → Bool
  | .map _ _ => true
  | _ => false

/-- Whether an expression needs parentheses in a place for expressions of a level of at least
`min`, at the start of the text or not. -/
def needsParens (start : Bool) (min : Nat) (e : Expr) : Bool :=
  e.level < min || start && e.isMap

/-! ### Tokens -/

/-- The tokens `inner` of an expression, in parentheses if it needs them. -/
def enclose (start : Bool) (min : Nat) (e : Expr) (inner : Bool → List (List Char)) :
    List (List Char) :=
  if e.needsParens start min then "(".toList :: (inner false ++ [")".toList]) else inner start

mutual

/-- The tokens of an expression without parentheses around it. -/
def inner (start : Bool) : Expr → List (List Char)
  | .literal _ value => [value.spelling]
  | .name _ n => [n.toList]
  | .list _ items => "[".toList :: ((innerAll items).drop 1 ++ ["]".toList])
  | .map _ entries => "\x7b".toList :: ((innerEntries entries).drop 1 ++ ["\x7d".toList])
  | .unary _ op operand => op.symbol.toList :: enclose false 7 operand fun s ↦ inner s operand
  | .binary _ op lhs rhs =>
    enclose start op.level lhs (fun s ↦ inner s lhs) ++
      op.symbol.toList :: enclose false (op.level + 1) rhs fun s ↦ inner s rhs
  | .ternary _ cond yes no =>
    enclose start 1 cond (fun s ↦ inner s cond) ++
      "?".toList :: (inner false yes ++ ":".toList :: inner false no)
  | .call _ callee args =>
    enclose start 8 callee (fun s ↦ inner s callee) ++
      "(".toList :: ((innerAll args).drop 1 ++ [")".toList])
  | .index _ target i =>
    enclose start 8 target (fun s ↦ inner s target) ++ "[".toList :: (inner false i ++ ["]".toList])
  | .member _ target field =>
    enclose start 8 target (fun s ↦ inner s target) ++ [".".toList, field.name.toList]

/-- The tokens of expressions, each with a comma in front. -/
def innerAll : List Expr → List (List Char)
  | [] => []
  | e :: rest => ",".toList :: (inner false e ++ innerAll rest)

/-- The tokens of the entries of a map, each with a comma in front. -/
def innerEntries : List (Expr × Expr) → List (List Char)
  | [] => []
  | (key, value) :: rest =>
    ",".toList :: (inner false key ++ ":".toList :: (inner false value ++ innerEntries rest))

end

/-- The tokens of an expression in a place for expressions of a level of at least `min`. -/
def tokensAt (start : Bool) (min : Nat) (e : Expr) : List (List Char) :=
  e.enclose start min fun s ↦ e.inner s

/-- The tokens of an expression that is a whole text. -/
def tokens (e : Expr) : List (List Char) :=
  e.tokensAt true 0

end Expr

/-! ### Nodes -/

/-- The symbol of a level of the grammar. -/
def levelSymbol : Nat → Symbol
  | 0 => .expr
  | 1 => .orExpr
  | 2 => .andExpr
  | 3 => .eqExpr
  | 4 => .cmpExpr
  | 5 => .addExpr
  | 6 => .mulExpr
  | 7 => .unary
  | _ => .postfixed

/-- The symbol of the operators of a level. -/
def operatorSymbol : Nat → Symbol
  | 1 => .orOp
  | 2 => .andOp
  | 3 => .eqOp
  | 4 => .cmpOp
  | 5 => .addOp
  | _ => .mulOp

/-- The node of a phrase, without its place. -/
def phraseNode (symbol : Symbol) (parts : List (Node Symbol)) : Node Symbol :=
  .mk symbol (0, 0) [] parts

/-- The node of a token, without its place. -/
def tokenNode (symbol : Symbol) (chars : List Char) : Node Symbol :=
  .mk symbol (0, 0) chars []

/-- A node of the level `count` above `level`, as a node of that level. -/
def raise (level : Nat) : Nat → Node Symbol → Node Symbol
  | 0, node => node
  | count + 1, node => phraseNode (levelSymbol level) [raise (level + 1) count node]

namespace Expr

/-- The node `inner` of an expression, as a node of the level `min`, inside of parentheses if the
expression needs them. -/
def lift (start : Bool) (min : Nat) (e : Expr) (inner : Bool → Node Symbol) : Node Symbol :=
  if e.needsParens start min then
    raise min (8 - min) (phraseNode .postfixed [raise 0 e.level (inner false)])
  else raise min (e.level - min) (inner start)

mutual

/-- The node of an expression, as one of its own level. -/
def node (start : Bool) : Expr → Node Symbol
  | .literal _ value => phraseNode .postfixed [tokenNode value.symbol value.spelling]
  | .name _ n => phraseNode .postfixed [tokenNode .ident n.toList]
  | .list _ items => phraseNode .postfixed [phraseNode .listLit (nodes items)]
  | .map _ entries => phraseNode .postfixed [phraseNode .mapLit (entryNodes entries)]
  | .unary _ op operand =>
    phraseNode .unary
      (tokenNode .unaryOp op.symbol.toList :: (operand.lift false 7 fun s ↦ node s operand).parts)
  | .binary _ op lhs rhs =>
    phraseNode (levelSymbol op.level)
      ((lhs.lift start op.level fun s ↦ node s lhs).parts ++
        [tokenNode (operatorSymbol op.level) op.symbol.toList,
          rhs.lift false (op.level + 1) fun s ↦ node s rhs])
  | .ternary _ cond yes no =>
    phraseNode .expr [cond.lift start 1 fun s ↦ node s cond, raise 0 yes.level (node false yes),
      raise 0 no.level (node false no)]
  | .call _ callee args =>
    phraseNode .postfixed
      ((callee.lift start 8 fun s ↦ node s callee).parts ++ [phraseNode .callArgs (nodes args)])
  | .index _ target i =>
    phraseNode .postfixed
      ((target.lift start 8 fun s ↦ node s target).parts ++
        [phraseNode .index [raise 0 i.level (node false i)]])
  | .member _ target field =>
    phraseNode .postfixed
      ((target.lift start 8 fun s ↦ node s target).parts ++
        [phraseNode .member [tokenNode .ident field.name.toList]])

/-- The nodes of expressions that stand on their own. -/
def nodes : List Expr → List (Node Symbol)
  | [] => []
  | e :: rest => raise 0 e.level (node false e) :: nodes rest

/-- The nodes of the entries of a map. -/
def entryNodes : List (Expr × Expr) → List (Node Symbol)
  | [] => []
  | (key, value) :: rest =>
    phraseNode .mapEntry
      [raise 0 key.level (node false key), raise 0 value.level (node false value)] ::
      entryNodes rest

end

/-- The node of an expression in a place for expressions of a level of at least `min`. -/
def nodeAt (start : Bool) (min : Nat) (e : Expr) : Node Symbol :=
  e.lift start min fun s ↦ e.node s

end Expr

end Snippet.Script
