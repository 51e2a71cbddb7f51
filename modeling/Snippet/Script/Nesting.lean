import Snippet.Script.Problem

/-!
# The bracket limit

A text with too many brackets open at once is refused before it is parsed, so that parsing it
cannot go deep. Brackets between double quotes do not count. The guard knows nothing else of the
language: it counts closing brackets of any kind against opening ones of any kind.
-/

namespace Snippet.Script

/-- How many brackets may be open at once. -/
def maxNesting : Nat := 64

/-- Where the guard is: outside of quotes, inside, or behind a backslash inside. -/
inductive QuoteState where
  | outside
  | inside
  | escaped
  deriving DecidableEq, Repr, Inhabited

/-- The place of the first bracket that opens more than `limit` levels, from the character at
`place` on with `depth` brackets open. -/
def excessBracket? (limit : Nat) (place depth : Nat) (state : QuoteState) : List Char → Option Nat
  | [] => none
  | c :: rest =>
    match state with
    | .escaped => excessBracket? limit (place + 1) depth .inside rest
    | .inside =>
      if c = '\\' then excessBracket? limit (place + 1) depth .escaped rest
      else if c = '"' then excessBracket? limit (place + 1) depth .outside rest
      else excessBracket? limit (place + 1) depth .inside rest
    | .outside =>
      if c = '"' then excessBracket? limit (place + 1) depth .inside rest
      else if c = '(' ∨ c = '[' ∨ c = '{' then
        if limit ≤ depth then some place
        else excessBracket? limit (place + 1) (depth + 1) .outside rest
      else if c = ')' ∨ c = ']' ∨ c = '}' then
        excessBracket? limit (place + 1) (depth - 1) .outside rest
      else excessBracket? limit (place + 1) depth .outside rest

/-- Refuses a text with too many open brackets, at the first one that is too much. -/
def checkNesting (source : List Char) : Except Complaint Unit :=
  match excessBracket? maxNesting 0 0 .outside source with
  | some place => .error ⟨.tooDeep, ⟨place, place + 1⟩⟩
  | none => .ok ()

end Snippet.Script
