import Snippet.Source.Span

/-!
# Syntax trees of the script language

A program is a list of statements and perhaps one more expression behind them, whose value is the
result. Every node knows its place in the source; nothing else depends on it.
-/

namespace Snippet.Script

/-- A name where it stands. -/
structure Ident where
  name : String
  span : Span
  deriving DecidableEq, Repr, Inhabited

/-- The declared type of a local variable. -/
inductive DeclType where
  | var
  | let
  | object
  | int
  | long
  | double
  | string
  | bool
  | list
  | map
  deriving DecidableEq, Repr, Inhabited

namespace DeclType

/-- Every declared type. -/
def all : List DeclType :=
  [.var, .let, .object, .int, .long, .double, .string, .bool, .list, .map]

/-- The word that declares a variable of this type. -/
def word : DeclType → String
  | .var => "var"
  | .let => "let"
  | .object => "object"
  | .int => "int"
  | .long => "long"
  | .double => "double"
  | .string => "string"
  | .bool => "bool"
  | .list => "list"
  | .map => "map"

/-- The type that a word declares. -/
def ofWord? (w : String) : Option DeclType :=
  all.find? (·.word == w)

/-- A variable of a dynamic type holds any value. -/
def isDynamic : DeclType → Bool
  | .var | .let | .object => true
  | _ => false

/-- Each type is read back from its word. -/
@[simp]
theorem ofWord?_word (t : DeclType) : ofWord? t.word = some t := by
  cases t <;> decide

end DeclType

/-- Operators with one operand. -/
inductive UnaryOp where
  | not
  | neg
  deriving DecidableEq, Repr, Inhabited

/-- The written form of a unary operator. -/
def UnaryOp.symbol : UnaryOp → String
  | .not => "!"
  | .neg => "-"

/-- Operators with two operands, loosest first. -/
inductive BinaryOp where
  | or
  | and
  | eq
  | ne
  | lt
  | le
  | gt
  | ge
  | add
  | sub
  | mul
  | div
  | rem
  deriving DecidableEq, Repr, Inhabited

namespace BinaryOp

/-- Every binary operator. -/
def all : List BinaryOp :=
  [.or, .and, .eq, .ne, .lt, .le, .gt, .ge, .add, .sub, .mul, .div, .rem]

/-- The written form of a binary operator. -/
def symbol : BinaryOp → String
  | .or => "||"
  | .and => "&&"
  | .eq => "=="
  | .ne => "!="
  | .lt => "<"
  | .le => "<="
  | .gt => ">"
  | .ge => ">="
  | .add => "+"
  | .sub => "-"
  | .mul => "*"
  | .div => "/"
  | .rem => "%"

/-- The operator with a written form. -/
def ofSymbol? (s : String) : Option BinaryOp :=
  all.find? (·.symbol == s)

/-- Each operator is read back from its written form. -/
@[simp]
theorem ofSymbol?_symbol (op : BinaryOp) : ofSymbol? op.symbol = some op := by
  cases op <;> decide

end BinaryOp

/-- How an assignment combines the old value with the new one. -/
inductive AssignOp where
  | set
  | add
  | sub
  | mul
  | div
  deriving DecidableEq, Repr, Inhabited

namespace AssignOp

/-- Every assignment operator. -/
def all : List AssignOp :=
  [.set, .add, .sub, .mul, .div]

/-- The written form of an assignment operator. -/
def symbol : AssignOp → String
  | .set => "="
  | .add => "+="
  | .sub => "-="
  | .mul => "*="
  | .div => "/="

/-- The assignment operator with a written form. -/
def ofSymbol? (s : String) : Option AssignOp :=
  all.find? (·.symbol == s)

/-- The operator that a compound assignment applies. -/
def binary? : AssignOp → Option BinaryOp
  | .set => none
  | .add => some .add
  | .sub => some .sub
  | .mul => some .mul
  | .div => some .div

/-- Each operator is read back from its written form. -/
@[simp]
theorem ofSymbol?_symbol (op : AssignOp) : ofSymbol? op.symbol = some op := by
  cases op <;> decide

end AssignOp

/-- A value written in the source. -/
inductive Literal where
  | null
  | bool (value : Bool)
  | int (value : Int64)
  | float (value : Float)
  | string (value : String)
  deriving Repr, Inhabited

/-- Expressions. Parentheses leave no node. -/
inductive Expr where
  | literal (span : Span) (value : Literal)
  | name (span : Span) (name : String)
  | list (span : Span) (items : List Expr)
  | map (span : Span) (entries : List (Expr × Expr))
  | unary (span : Span) (op : UnaryOp) (operand : Expr)
  | binary (span : Span) (op : BinaryOp) (lhs rhs : Expr)
  | ternary (span : Span) (cond yes no : Expr)
  | call (span : Span) (callee : Expr) (args : List Expr)
  | index (span : Span) (target index : Expr)
  | member (span : Span) (target : Expr) (field : Ident)
  deriving Repr, Inhabited

/-- The place of an expression. -/
def Expr.span : Expr → Span
  | .literal span _ | .name span _ | .list span _ | .map span _ | .unary span _ _
  | .binary span _ _ _ | .ternary span _ _ _ | .call span _ _ | .index span _ _
  | .member span _ _ => span

/-- One step from a collection to an element of it. -/
inductive Accessor where
  | index (index : Expr)
  | member (field : Ident)
  deriving Repr, Inhabited

/-- Statements. -/
inductive Stmt where
  | declare (span : Span) (type : DeclType) (name : Ident) (init : Option Expr)
  | assign (span : Span) (root : Ident) (path : List Accessor) (op : AssignOp) (value : Expr)
  | expression (span : Span) (value : Expr)
  | block (span : Span) (body : List Stmt)
  | ifElse (span : Span) (cond : Expr) (yes : Stmt) (no : Option Stmt)
  | whileLoop (span : Span) (cond : Expr) (body : Stmt)
  | forEach (span : Span) (type : DeclType) (binding : Ident) (items : Expr) (body : Stmt)
  | returnWith (span : Span) (value : Option Expr)
  | throwWith (span : Span) (value : Expr)
  | breakLoop (span : Span)
  | continueLoop (span : Span)
  | empty (span : Span)
  deriving Repr, Inhabited

namespace Stmt

/-- The place of a statement. -/
def span : Stmt → Span
  | .declare span _ _ _ | .assign span _ _ _ _ | .expression span _ | .block span _
  | .ifElse span _ _ _ | .whileLoop span _ _ | .forEach span _ _ _ _ | .returnWith span _
  | .throwWith span _ | .breakLoop span | .continueLoop span | .empty span => span

/-- Whether a statement is a lone semicolon. -/
def isEmpty : Stmt → Bool
  | .empty _ => true
  | _ => false

end Stmt

/-- A whole script. -/
structure Program where
  statements : List Stmt
  /-- The expression behind the last statement, whose value is the result. -/
  tail : Option Expr
  deriving Repr, Inhabited

end Snippet.Script
