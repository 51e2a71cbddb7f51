import Snippet.Script.Tree

/-!
# Faults

What can end a script while it runs. A fault is a cause; the name of its kind and its wording are
functions of the cause. Besides faults of its own a script may be ended by a host that breaks
down.
-/

namespace Snippet.Run

open Script (BinaryOp DeclType UnaryOp)

/-- Uses of a value that its type does not admit. Types are given by their names. -/
inductive TypeFault where
  | unbound (name : String)
  | notInvocable
  | notHelper (name : String)
  | notCondition (construct found : String)
  | noConversion (found : String) (target : DeclType)
  | noUnary (op : UnaryOp) (found : String)
  | noBinary (op : BinaryOp) (left right : String)
  | notIterable (found : String)
  | notListIndex (found : String)
  | notMapKey (found : String)
  | noMember (found name : String)
  | notIndexable (found : String)
  | lengthReadOnly
  | stringReadOnly
  | membersReadOnly (found : String)
  | noLength (found : String)
  | notText (helper found : String)
  | notMap (helper found : String)
  | notList (helper found : String)
  | notNumber (helper found : String)
  | notNumbers (helper left right : String)
  | notBounds (found : String)
  | notSearchable (found sought : String)
  deriving DecidableEq, Repr, Inhabited

/-- The causes that end a running script. -/
inductive Fault where
  | divideByZero
  | nullReference
  | indexOutOfRange
  | keyNotFound (key : String)
  | overflow
  | type (cause : TypeFault)
  | wrongArity (name : String) (count : Nat)
  | wrongBounds
  | tooManyElements (limit : Nat)
  | tooDeep (limit : Nat)
  | thrown (text : String)
  | stepBudget (limit : Nat)
  | timeLimit (milliseconds : Nat)
  deriving DecidableEq, Repr, Inhabited

/-- The wording of a wrong use of a value. -/
def TypeFault.message : TypeFault → String
  | unbound name => s!"The name '{name}' is not bound"
  | notInvocable => "Expression is not invocable"
  | notHelper name => s!"'{name}' is not a helper"
  | notCondition construct found =>
    s!"Operator '{construct}' needs a bool condition, got '{found}'"
  | noConversion found target =>
    "Cannot implicitly convert type '" ++ found ++ "' to '" ++ target.word ++ "'"
  | noUnary op found =>
    "Operator '" ++ op.symbol ++ "' cannot be applied to operand of type '" ++ found ++ "'"
  | noBinary op left right =>
    "Operator '" ++ op.symbol ++ "' cannot be applied to operands of type '" ++ left ++
      "' and '" ++ right ++ "'"
  | notIterable found => s!"foreach cannot iterate over a value of type '{found}'"
  | notListIndex found => s!"Cannot index a list with a value of type '{found}'"
  | notMapKey found => s!"A map key must be a string, int or bool, not '{found}'"
  | noMember found name => s!"'{found}' does not contain a definition for '{name}'"
  | notIndexable found => s!"Cannot apply indexing to an expression of type '{found}'"
  | lengthReadOnly => "Property 'length' is read only"
  | stringReadOnly => "Strings are immutable"
  | membersReadOnly found => s!"Members of '{found}' are read only"
  | noLength found => s!"'{found}' has no length"
  | notText helper found => s!"Helper '{helper}' expects a string, got '{found}'"
  | notMap helper found => s!"Helper '{helper}' expects a map, got '{found}'"
  | notList helper found => s!"Helper '{helper}' expects a list, got '{found}'"
  | notNumber helper found => s!"Helper '{helper}' expects a number, got '{found}'"
  | notNumbers helper left right =>
    s!"Helper '{helper}' expects numbers, got '{left}' and '{right}'"
  | notBounds found => s!"Helper 'range' expects int bounds, got '{found}'"
  | notSearchable found sought => s!"Helper 'contains' cannot search '{found}' for '{sought}'"

namespace Fault

/-- The name of the kind of a fault. -/
def typeName : Fault → String
  | divideByZero => "DivideByZeroError"
  | nullReference => "NullReferenceError"
  | indexOutOfRange => "IndexOutOfRangeError"
  | keyNotFound _ => "KeyNotFoundError"
  | overflow => "OverflowError"
  | type _ => "TypeError"
  | wrongArity _ _ | wrongBounds => "ArgumentError"
  | tooManyElements _ | tooDeep _ => "CapacityExceededError"
  | thrown _ => "ScriptError"
  | stepBudget _ | timeLimit _ => "TimeoutError"

/-- The wording of a fault. -/
def message : Fault → String
  | divideByZero => "Attempted to divide by zero."
  | nullReference => "Object reference not set to an instance of an object."
  | indexOutOfRange => "Index was outside the bounds of the array."
  | keyNotFound key => s!"The given key '{key}' was not present in the dictionary."
  | overflow => "Arithmetic operation resulted in an overflow."
  | type cause => cause.message
  | wrongArity name count => s!"Helper '{name}' does not take {count} arguments"
  | wrongBounds => "Helper 'range' takes one or two bounds"
  | tooManyElements limit => s!"Collection size exceeds the limit of {limit} elements."
  | tooDeep limit => s!"Collection nesting exceeds the limit of {limit} levels."
  | thrown text => text
  | stepBudget limit => s!"Script exceeded the budget of {limit} steps."
  | timeLimit milliseconds => s!"Script exceeded the time limit of {milliseconds} ms."

end Fault

/-- Why a run ended without a result. -/
inductive Halt where
  | fault (fault : Fault)
  /-- A look-up in the host broke down with a text. -/
  | breakdown (text : String)
  deriving DecidableEq, Repr, Inhabited

end Snippet.Run
