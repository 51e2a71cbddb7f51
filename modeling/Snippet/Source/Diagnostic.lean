import Snippet.Source.Span

/-!
# Diagnostics

What the compile stage says about a source text: an identifier that never changes its meaning, a
severity, a message, and the place it is about.
-/

namespace Snippet

/-- Warnings leave a snippet runnable, errors do not. -/
inductive Severity where
  | warning
  | error
  deriving DecidableEq, Repr, Inhabited

/-- One message of the compile stage. -/
structure Diagnostic where
  id : String
  severity : Severity
  message : String
  location : Location
  deriving DecidableEq, Repr, Inhabited

namespace Diagnostic

/-- Whether this message keeps the snippet from running. -/
def isError (d : Diagnostic) : Bool :=
  d.severity == .error

/-- Messages by their place, those of one place in the order of discovery. -/
def sort (ds : List Diagnostic) : List Diagnostic :=
  ds.mergeSort fun a b ↦ decide (a.location.start ≤ b.location.start)

/-- Sorting neither drops nor invents a message. -/
theorem sort_perm (ds : List Diagnostic) : (sort ds).Perm ds :=
  List.mergeSort_perm ds _

end Diagnostic

end Snippet
