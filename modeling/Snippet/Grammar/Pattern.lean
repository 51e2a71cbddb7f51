/-!
# Parsing expression grammars

A grammar gives each of its symbols a rule. A *token* is recognised on its characters alone and
keeps the text it took. A *phrase* is built by a `Pattern` from other symbols; between the parts
of a spaced phrase blanks are skipped, between those of a tight one they are not.

Patterns are those of a parsing expression grammar: a choice is ordered and final, and an
optional or repeated part takes what it can.

Two shape decisions:

* a grammar carries a `rank` for each symbol. A phrase may be entered at the place where another
  one started only if its rank is lower, so a symbol that would call itself without taking a
  character cannot match there. This is what makes matching a total function, with no bound on
  its depth to be chosen;
* blanks are one function of the grammar, and not a rule, since they leave no node and take part
  in no error message.
-/

namespace Snippet.Grammar

/-- How many characters a lexeme takes at the front of a text, where it is found there. -/
abbrev Recogniser := List Char → Option Nat

/-- What a phrase over the symbols `σ` is built from. -/
inductive Pattern (σ : Type) where
  | text (chars : List Char)
  | call (symbol : σ)
  | seq (first second : Pattern σ)
  | choice (first second : Pattern σ)
  | optional (body : Pattern σ)
  | many (body : Pattern σ)
  | absent (body : Pattern σ)

namespace Pattern

variable {σ : Type}

/-- A fixed text. -/
def lit (s : String) : Pattern σ :=
  .text s.toList

/-- All parts, one after the other. -/
def all : List (Pattern σ) → Pattern σ
  | [] => .text []
  | [p] => p
  | p :: ps => .seq p (all ps)

/-- The first part that matches; with no part, nothing does. -/
def any : List (Pattern σ) → Pattern σ
  | [] => .absent (.text [])
  | [p] => p
  | p :: ps => .choice p (any ps)

/-- One or more. -/
def some (p : Pattern σ) : Pattern σ :=
  .seq p (.many p)

end Pattern

/-- How a symbol is recognised. -/
inductive Rule (σ : Type) where
  | token (lexeme : Recogniser)
  | phrase (spaced : Bool) (body : Pattern σ)

/-- The rules of a language with the symbols `σ`. -/
structure Language (σ : Type) where
  /-- How each symbol is recognised. -/
  rule : σ → Rule σ
  /-- The order in which phrases may be entered without taking a character. -/
  rank : σ → Nat
  /-- A number above every rank. -/
  top : Nat
  /-- How many blank characters stand at the front of a text. -/
  blanks : List Char → Nat

/-- A matched symbol: where it stands, its text if it is a token, and its parts if it is a
phrase. -/
inductive Node (σ : Type) where
  | mk (symbol : σ) (span : Nat × Nat) (text : List Char) (parts : List (Node σ))

namespace Node

variable {σ : Type}

/-- The symbol that was matched. -/
def symbol : Node σ → σ
  | .mk symbol _ _ _ => symbol

/-- The offset of the first character. -/
def start : Node σ → Nat
  | .mk _ span _ _ => span.1

/-- The offset behind the last character. -/
def stop : Node σ → Nat
  | .mk _ span _ _ => span.2

/-- The characters of a token. -/
def text : Node σ → List Char
  | .mk _ _ text _ => text

/-- The parts of a phrase. -/
def parts : Node σ → List (Node σ)
  | .mk _ _ _ parts => parts

mutual

/-- The node with other offsets. -/
def mapPlaces (f : Nat → Nat) : Node σ → Node σ
  | .mk symbol span text parts => .mk symbol (f span.1, f span.2) text (mapPlacesAll f parts)

/-- The nodes with other offsets. -/
def mapPlacesAll (f : Nat → Nat) : List (Node σ) → List (Node σ)
  | [] => []
  | node :: rest => node.mapPlaces f :: mapPlacesAll f rest

end

end Node

end Snippet.Grammar
