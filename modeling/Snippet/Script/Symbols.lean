import Snippet.Grammar.Matching
import Snippet.Script.Lexeme

/-!
# The grammar of the script language

`Symbol` lists what a script is made of, in the order in which a syntax error names what it
expected. The ranks say which phrase may start with which: a program with a statement or the
result expression, these with an expression, and an expression with the expressions that bind
tighter.
-/

namespace Snippet.Script

open Grammar

/-- The symbols of the grammar. -/
inductive Symbol where
  | ending
  | program
  | tailExpr
  | block
  | ifStmt
  | whileStmt
  | foreachStmt
  | returnStmt
  | throwStmt
  | breakStmt
  | continueStmt
  | declaration
  | assignment
  | exprStmt
  | emptyStmt
  | assignTarget
  | assignOp
  | semi
  | expr
  | orExpr
  | andExpr
  | eqExpr
  | cmpExpr
  | addExpr
  | mulExpr
  | unary
  | postfixed
  | callArgs
  | index
  | member
  | listLit
  | mapLit
  | mapEntry
  | orOp
  | andOp
  | eqOp
  | cmpOp
  | addOp
  | mulOp
  | unaryOp
  | floatLit
  | intLit
  | stringLit
  | boolLit
  | nullLit
  | ident
  | declType
  | kwIf
  | kwElse
  | kwWhile
  | kwForeach
  | kwIn
  | kwReturn
  | kwThrow
  | kwBreak
  | kwContinue
  deriving DecidableEq, Repr, Inhabited

namespace Symbol

/-- Every symbol, in the order of the grammar. -/
def inOrder : List Symbol :=
  [ending, program, tailExpr, block, ifStmt, whileStmt, foreachStmt, returnStmt, throwStmt,
    breakStmt, continueStmt, declaration, assignment, exprStmt, emptyStmt, assignTarget, assignOp,
    semi, expr, orExpr, andExpr, eqExpr, cmpExpr, addExpr, mulExpr, unary, postfixed, callArgs,
    index, member, listLit, mapLit, mapEntry, orOp, andOp, eqOp, cmpOp, addOp, mulOp, unaryOp,
    floatLit, intLit, stringLit, boolLit, nullLit, ident, declType, kwIf, kwElse, kwWhile,
    kwForeach, kwIn, kwReturn, kwThrow, kwBreak, kwContinue]

/-- The list of symbols is complete. -/
theorem mem_inOrder (s : Symbol) : s ∈ inOrder := by
  cases s <;> decide

/-- The name of a symbol in a syntax error. Symbols without one are not named. -/
def description : Symbol → Option String
  | ending => some "end of input"
  | tailExpr | expr | orExpr | andExpr | eqExpr | cmpExpr | addExpr | mulExpr | unary | postfixed
  | floatLit | intLit | stringLit | boolLit | nullLit | listLit | mapLit => some "expression"
  | ident | assignTarget => some "identifier"
  | declType => some "type"
  | semi => some "';'"
  | assignOp => some "assignment operator"
  | orOp | andOp | eqOp | cmpOp | addOp | mulOp | unaryOp => some "operator"
  | callArgs => some "argument list"
  | index => some "index"
  | member => some "member access"
  | mapEntry => some "map entry"
  | block | ifStmt | whileStmt | foreachStmt | returnStmt | throwStmt | breakStmt | continueStmt
  | declaration | assignment | exprStmt | emptyStmt => some "statement"
  | kwIn => some "'in'"
  | kwElse => some "'else'"
  | program | kwIf | kwWhile | kwForeach | kwReturn | kwThrow | kwBreak | kwContinue => none

/-- Keywords and terminators, which carry nothing into the tree. -/
def isPunctuation : Symbol → Bool
  | semi | kwIf | kwElse | kwWhile | kwForeach | kwIn | kwReturn | kwThrow | kwBreak | kwContinue
  | ending => true
  | _ => false

/-- Which phrase may start with which: each one only with those of a lower rank. -/
def rank : Symbol → Nat
  | program => 15
  | tailExpr | mapEntry => 14
  | block | ifStmt | whileStmt | foreachStmt | returnStmt | throwStmt | breakStmt | continueStmt
  | declaration | assignment | exprStmt | emptyStmt => 13
  | assignTarget => 12
  | expr => 11
  | orExpr => 10
  | andExpr => 9
  | eqExpr => 8
  | cmpExpr => 7
  | addExpr => 6
  | mulExpr => 5
  | unary => 4
  | postfixed => 3
  | callArgs | index | member | listLit | mapLit => 2
  | _ => 1

/-- A statement of any kind. A map at the start of a statement is tried as a block first. -/
def anyStatement : Pattern Symbol :=
  .any [.call block, .call ifStmt, .call whileStmt, .call foreachStmt, .call returnStmt,
    .call throwStmt, .call breakStmt, .call continueStmt, .call declaration, .call assignment,
    .call exprStmt, .call emptyStmt]

/-- The innermost expressions. -/
def anyPrimary : Pattern Symbol :=
  .any [.call floatLit, .call intLit, .call stringLit, .call boolLit, .call nullLit, .call listLit,
    .call mapLit, .call ident, .all [.lit "(", .call expr, .lit ")"]]

/-- Operands with operators of one binding strength between them. -/
def chain (operand operator : Symbol) : Rule Symbol :=
  .phrase true (.all [.call operand, .many (.all [.call operator, .call operand])])

/-- How each symbol is recognised. -/
def rule : Symbol → Rule Symbol
  -- the empty text stands for the start of the source; blanks may follow it
  | program => .phrase true (.all [.text [], .many anyStatement, .optional (.call tailExpr),
      .call ending])
  | tailExpr => .phrase true (.call expr)
  | block => .phrase true (.all [.lit "\x7b", .many anyStatement, .lit "\x7d"])
  | ifStmt => .phrase true (.all [.call kwIf, .lit "(", .call expr, .lit ")", anyStatement,
      .optional (.all [.call kwElse, anyStatement])])
  | whileStmt => .phrase true (.all [.call kwWhile, .lit "(", .call expr, .lit ")", anyStatement])
  | foreachStmt => .phrase true (.all [.call kwForeach, .lit "(", .call declType, .call ident,
      .call kwIn, .call expr, .lit ")", anyStatement])
  | returnStmt => .phrase true (.all [.call kwReturn, .optional (.call expr), .call semi])
  | throwStmt => .phrase true (.all [.call kwThrow, .call expr, .call semi])
  | breakStmt => .phrase true (.all [.call kwBreak, .call semi])
  | continueStmt => .phrase true (.all [.call kwContinue, .call semi])
  | declaration => .phrase true (.all [.call declType, .call ident,
      .optional (.all [.lit "=", .call expr]), .call semi])
  | assignment => .phrase true (.all [.call assignTarget, .call assignOp, .call expr, .call semi])
  | exprStmt => .phrase true (.all [.call expr, .call semi])
  | emptyStmt => .phrase true (.call semi)
  | assignTarget => .phrase true (.all [.call ident, .many (.any [.call index, .call member])])
  | expr => .phrase true (.all [.call orExpr,
      .optional (.all [.lit "?", .call expr, .lit ":", .call expr])])
  | orExpr => chain andExpr orOp
  | andExpr => chain eqExpr andOp
  | eqExpr => chain cmpExpr eqOp
  | cmpExpr => chain addExpr cmpOp
  | addExpr => chain mulExpr addOp
  | mulExpr => chain unary mulOp
  | unary => .phrase true (.all [.many (.call unaryOp), .call postfixed])
  | postfixed => .phrase true (.all [anyPrimary,
      .many (.any [.call callArgs, .call index, .call member])])
  | callArgs => .phrase true (.all [.lit "(",
      .optional (.all [.call expr, .many (.all [.lit ",", .call expr])]), .lit ")"])
  | index => .phrase true (.all [.lit "[", .call expr, .lit "]"])
  | member => .phrase true (.all [.lit ".", .call ident])
  | listLit => .phrase true (.all [.lit "[",
      .optional (.all [.call expr, .many (.all [.lit ",", .call expr]), .optional (.lit ",")]),
      .lit "]"])
  | mapLit => .phrase true (.all [.lit "\x7b",
      .optional (.all [.call mapEntry, .many (.all [.lit ",", .call mapEntry]),
        .optional (.lit ",")]),
      .lit "\x7d"])
  | mapEntry => .phrase true (.all [.call expr, .lit ":", .call expr])
  | orOp => .token (Lexeme.exactly "||")
  | andOp => .token (Lexeme.exactly "&&")
  | eqOp => .token (Lexeme.oneOf ["==", "!="])
  | cmpOp => .token (Lexeme.oneOf ["<=", ">=", "<", ">"])
  | addOp => .token (Lexeme.oneOf ["+", "-"])
  | mulOp => .token (Lexeme.oneOf ["*", "/", "%"])
  | unaryOp => .token (Lexeme.oneOf ["!", "-"])
  | semi => .token (Lexeme.exactly ";")
  | assignOp => .token Lexeme.assignment
  | floatLit => .token Lexeme.fraction
  | intLit => .token Lexeme.integer
  | stringLit => .token Lexeme.quoted
  | boolLit => .token (Lexeme.word ["true", "false"])
  | nullLit => .token (Lexeme.word ["null"])
  | ident => .token Lexeme.name
  | declType => .token (Lexeme.word typeWords)
  | kwIf => .token (Lexeme.word ["if"])
  | kwElse => .token (Lexeme.word ["else"])
  | kwWhile => .token (Lexeme.word ["while"])
  | kwForeach => .token (Lexeme.word ["foreach"])
  | kwIn => .token (Lexeme.word ["in"])
  | kwReturn => .token (Lexeme.word ["return"])
  | kwThrow => .token (Lexeme.word ["throw"])
  | kwBreak => .token (Lexeme.word ["break"])
  | kwContinue => .token (Lexeme.word ["continue"])
  | ending => .token Lexeme.ending

end Symbol

/-- The grammar of scripts. -/
def language : Grammar.Language Symbol where
  rule := Symbol.rule
  rank := Symbol.rank
  top := 16
  blanks := blanks

end Snippet.Script
