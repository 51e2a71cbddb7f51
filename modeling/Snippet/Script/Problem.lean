import Snippet.Source.Diagnostic
import Snippet.Script.Tree

/-!
# What can be wrong with a script before it runs

Each cause has an identifier, a severity and a wording. The identifiers are stable: a reader may
look them up, and two wordings of one kind of mistake share one.
-/

namespace Snippet.Script

/-- Where a name in scope of every script comes from. -/
inductive Origin where
  | context
  | helper
  deriving DecidableEq, Repr, Inhabited

/-- How an origin is called in messages. -/
def Origin.noun : Origin → String
  | .context => "context member"
  | .helper => "helper"

/-- The causes of compile messages. `found` is the piece of text at which parsing stopped. -/
inductive Problem where
  | unexpected (found : String)
  | expectedExpression (found : String)
  | expectedOneOf (names : List String) (found : String)
  | malformed
  | badEscape (escaped : Char)
  | constantTooLarge
  | tooDeep
  | unknownName (name : String)
  | duplicateLocal (name : String)
  | nameUsedOutside (name : String)
  | typeMismatch (found : String) (target : DeclType)
  | nullToValueType (target : DeclType)
  | wrongArity (name : String) (count : Nat)
  | noEnclosingLoop
  | variableInvoked (name : String)
  | noSuchMethod (name : String)
  | notInvocable
  | helperAsValue (name : String)
  | assignToHelper (name : String)
  | hidesBuiltin (name : String) (origin : Origin)
  | unusedLocal (name : String)
  | unreachable
  deriving DecidableEq, Repr, Inhabited

namespace Problem

/-- The stable identifier of a cause. -/
def id : Problem → String
  | unexpected _ | expectedExpression _ | expectedOneOf _ _ | malformed => "SC1001"
  | badEscape _ => "SC1009"
  | constantTooLarge => "SC1021"
  | tooDeep => "SC8078"
  | unknownName _ => "SC0103"
  | duplicateLocal _ | nameUsedOutside _ => "SC0128"
  | typeMismatch _ _ => "SC0029"
  | nullToValueType _ => "SC0037"
  | wrongArity _ _ => "SC1501"
  | noEnclosingLoop => "SC0139"
  | variableInvoked _ | noSuchMethod _ | notInvocable => "SC0149"
  | helperAsValue _ => "SC0428"
  | assignToHelper _ => "SC1656"
  | hidesBuiltin _ _ => "SC0136"
  | unusedLocal _ => "SC0168"
  | unreachable => "SC0162"

/-- Hidden names, unused variables and unreachable code leave a script runnable. -/
def severity : Problem → Severity
  | hidesBuiltin _ _ | unusedLocal _ | unreachable => .warning
  | _ => .error

/-- The wording of a cause. -/
def message : Problem → String
  | unexpected found => s!"Syntax error, unexpected {found}"
  | expectedExpression found => s!"Invalid expression term {found}: expected expression"
  | expectedOneOf names found =>
    "Syntax error, expected " ++ " or ".intercalate names ++ ", found " ++ found
  | malformed => "Incomplete construct"
  | badEscape c => s!"Unrecognized escape sequence '\\{c}'"
  | constantTooLarge => "Integral constant is too large"
  | tooDeep => "Expression is too deeply nested"
  | unknownName name => s!"The name '{name}' does not exist in the current context"
  | duplicateLocal name => s!"A local variable named '{name}' is already defined in this scope"
  | nameUsedOutside name =>
    s!"A local named '{name}' cannot be declared in this scope because that name is used in an " ++
      "enclosing scope"
  | typeMismatch found target =>
    "Cannot implicitly convert type '" ++ found ++ "' to '" ++ target.word ++ "'"
  | nullToValueType target =>
    "Cannot convert null to '" ++ target.word ++ "' because it is a non-nullable value type"
  | wrongArity name count => s!"No overload for method '{name}' takes {count} arguments"
  | noEnclosingLoop => "No enclosing loop out of which to break or continue"
  | variableInvoked name => s!"'{name}' is a variable but is used like a method"
  | noSuchMethod name => s!"There is no helper method named '{name}'"
  | notInvocable => "Expression is not invocable"
  | helperAsValue name => s!"Cannot use helper '{name}' as a value; call it with ()"
  | assignToHelper name => s!"Cannot assign to '{name}' because it is a helper"
  | hidesBuiltin name origin =>
    "Local '" ++ name ++ "' hides the " ++ origin.noun ++ " of the same name"
  | unusedLocal name => s!"The variable '{name}' is declared but never used"
  | unreachable => "Unreachable code detected"

end Problem

/-- A cause and its place. -/
structure Complaint where
  problem : Problem
  span : Span
  deriving DecidableEq, Repr, Inhabited

namespace Complaint

/-- Whether this complaint keeps the script from running. -/
def isError (c : Complaint) : Bool :=
  c.problem.severity == .error

/-- The complaint as a message. -/
def diagnostic (c : Complaint) : Diagnostic :=
  ⟨c.problem.id, c.problem.severity, c.problem.message, c.span.location⟩

end Complaint

end Snippet.Script
