import Snippet.Grammar.Matching
import Snippet.Template.Lexeme

/-!
# The grammar of the template language

A template is text with tags in it. Blanks may stand between the parts of a tag; around tags they
belong to the text, and it is left to the reader of the tree to put them back.

An `else` tag with a name behind the word opens the next branch of a chain, also when nothing
stands between them.
-/

namespace Snippet.Template

open Grammar

/-- The symbols of the grammar. -/
inductive Symbol where
  | document
  | body
  | text
  | expression
  | markup
  | block
  | blockStart
  | chainTag
  | elseTag
  | blockEnd
  | rawBlock
  | rawStart
  | rawText
  | rawEnd
  | comment
  | decorator
  | decoratorBlock
  | decoratorStart
  | inclusion
  | inclusionBlock
  | inclusionStart
  | inclusionEnd
  | leadTilde
  | trailTilde
  | name
  | inclusionName
  | elseWord
  | param
  | hash
  | blockParams
  | call
  | reference
  | rootMark
  | localMark
  | upMark
  | pathName
  | pathKey
  | literal
  | listLiteral
  | mapLiteral
  | stringLiteral
  | singleQuoted
  | numberLiteral
  | wordLiteral
  | ending
  deriving DecidableEq, Repr, Inhabited

namespace Symbol

/-- Which phrase may start with which: each one only with those of a lower rank. -/
def rank : Symbol → Nat
  | document => 12
  | body => 11
  | block | rawBlock | decoratorBlock | inclusionBlock => 10
  | expression | markup | blockStart | rawStart | rawEnd | decorator | decoratorStart | inclusion
  | inclusionStart | inclusionEnd | blockEnd => 9
  | chainTag | elseTag => 8
  | hash | blockParams => 7
  | param => 6
  | literal => 5
  | listLiteral | mapLiteral | call | reference => 4
  | _ => 1

/-- Arguments by position and by name. -/
def arguments : Pattern Symbol :=
  .any [.call hash, .call param]

/-- What stands for a value: a path, or a call in parentheses. -/
def value : Pattern Symbol :=
  .any [.call call, .call reference]

/-- A helper with arguments, or a value. -/
def valueOrCall : Pattern Symbol :=
  .any [.all [.call name, .some arguments], value]

/-- What opens a block: a helper, its arguments, and names for what it hands to the block. -/
def opening : Pattern Symbol :=
  .all [.call name, .many arguments, .optional (.call blockParams)]

/-- What stands in a tag, between tildes that take the blanks around the tag away. -/
def tag (front : String) (inner : Pattern Symbol) (back : String) : Pattern Symbol :=
  .all [.lit front, .optional (.call leadTilde), inner, .optional (.call trailTilde), .lit back]

/-- A tag with two braces on each side. -/
def plainTag (inner : List (Pattern Symbol)) : Rule Symbol :=
  .phrase true (tag "\x7b\x7b" (.all inner) "\x7d\x7d")

/-- A partial and its arguments. -/
def inclusionLine : Pattern Symbol :=
  .all [.any [.call inclusionName, value], .many arguments]

/-- The tags whose output is never escaped, in three spellings. -/
def markupBody : Pattern Symbol :=
  .any [tag "\x7b\x7b\x7b" valueOrCall "\x7d\x7d\x7d",
    tag "\x7b\x7b" (.all [.lit "\x7b", valueOrCall, .lit "\x7d"]) "\x7d\x7d",
    tag "\x7b\x7b" (.all [.lit "&", value]) "\x7d\x7d"]

/-- The mark between the parts of a path. -/
def pathMark : Pattern Symbol :=
  .any [.lit "/", .lit "."]

/-- A part of a path. -/
def pathItem : Pattern Symbol :=
  .any [.call pathName, .all [.lit "[", .call pathKey, .lit "]"]]

/-- A path: from the root, a local variable, or from some levels up. -/
def pathBody : Pattern Symbol :=
  .all [.many (.any [.all [.lit "this", pathMark], .lit "./"]),
    .optional (.all [.call rootMark, pathMark]), .optional (.call localMark),
    .many (.all [.call upMark, pathMark]), pathItem, .many (.all [pathMark, pathItem])]

/-- A member of an object literal. -/
def literalMember : Pattern Symbol :=
  .all [.any [.call stringLiteral, .call singleQuoted], .lit ":", .call literal]

/-- How each symbol is recognised. -/
def rule : Symbol → Rule Symbol
  | document => .phrase true (.all [.call body, .call ending])
  | body => .phrase true (.many (.any [.call text, .call expression, .call markup, .call block,
      .call rawBlock, .call comment, .call decorator, .call decoratorBlock, .call inclusion,
      .call inclusionBlock]))
  | text => .token Lexeme.text
  | expression => .phrase true (.all [.absent (.any [.call elseTag, .call chainTag]),
      tag "\x7b\x7b" valueOrCall "\x7d\x7d"])
  | markup => .phrase true markupBody
  | block => .phrase true (.all [.call blockStart, .call body,
      .many (.all [.call chainTag, .call body]), .optional (.all [.call elseTag, .call body]),
      .call blockEnd])
  | blockStart => plainTag [.lit "#", opening]
  | chainTag => plainTag [.call elseWord, opening]
  | elseTag => plainTag [.call elseWord]
  | blockEnd => plainTag [.lit "/", .call name]
  | rawBlock => .phrase true (.all [.call rawStart, .call rawText, .call rawEnd])
  | rawStart => .phrase true (tag "\x7b\x7b\x7b\x7b" opening "\x7d\x7d\x7d\x7d")
  | rawText => .token Lexeme.rawText
  | rawEnd => .phrase true
      (tag "\x7b\x7b\x7b\x7b" (.all [.lit "/", .call name]) "\x7d\x7d\x7d\x7d")
  | comment => .token Lexeme.comment
  | decorator => plainTag [.lit "*", opening]
  | decoratorBlock => .phrase true (.all [.call decoratorStart, .call body, .call blockEnd])
  | decoratorStart => plainTag [.lit "#", .lit "*", opening]
  | inclusion => plainTag [.lit ">", inclusionLine]
  | inclusionBlock => .phrase true (.all [.call inclusionStart, .call body, .call inclusionEnd])
  | inclusionStart => plainTag [.lit "#", .lit ">", inclusionLine]
  | inclusionEnd => plainTag [.lit "/", .call inclusionName]
  | leadTilde => .token (Lexeme.oneOf ["~"])
  | trailTilde => .token (Lexeme.oneOf ["~"])
  | name => .token Lexeme.name
  | inclusionName => .token Lexeme.partialName
  | elseWord => .token (Lexeme.oneOf ["else", "^"])
  | param => .phrase true (.all [
      -- the words `as` and `else` are no arguments where they stand alone
      .absent (.all [.any [.lit "as", .lit "else"], .absent (.call name)]),
      .any [.call literal, .call reference, .call call]])
  | hash => .phrase true (.all [.call name, .lit "=", .call param])
  | blockParams => .phrase true (.all [.lit "as", .lit "|", .call name, .optional (.call name),
      .lit "|"])
  | call => .phrase true (.all [.lit "(",
      .any [.all [.call name, .some arguments], .call reference], .lit ")"])
  | reference => .phrase false pathBody
  | rootMark => .token (Lexeme.oneOf ["@root"])
  | localMark => .token (Lexeme.oneOf ["@"])
  | upMark => .token (Lexeme.oneOf [".."])
  | pathName => .token Lexeme.name
  | pathKey => .token Lexeme.bracketed
  | literal => .phrase true (.any [.call stringLiteral, .call singleQuoted, .call listLiteral,
      .call mapLiteral, .call numberLiteral, .call wordLiteral])
  | listLiteral => .phrase true (.all [.lit "[", .optional (.call literal),
      .many (.all [.lit ",", .call literal]), .lit "]"])
  | mapLiteral => .phrase true (.all [.lit "\x7b", .optional literalMember,
      .many (.all [.lit ",", literalMember]), .lit "\x7d"])
  | stringLiteral => .token Lexeme.quoted
  | singleQuoted => .token Lexeme.singleQuoted
  | numberLiteral => .token Lexeme.number
  | wordLiteral => .token (Lexeme.word ["true", "false", "null"])
  | ending => .token Lexeme.ending

end Symbol

/-- The grammar of templates. -/
def language : Grammar.Language Symbol where
  rule := Symbol.rule
  rank := Symbol.rank
  top := 13
  blanks := blanks

end Snippet.Template
