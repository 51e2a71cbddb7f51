import Snippet.Source.Diagnostic
import Snippet.Value.Basic

/-!
# What an evaluation came to

A snippet does not compile, or it fails while it runs, or it succeeds with a value or without one.
Times are counted in milliseconds where they were taken.
-/

namespace Snippet

/-- The stages at which an evaluation can fail. -/
inductive Stage where
  | compilation
  | execution
  deriving DecidableEq, Repr, Inhabited

/-- The name of a stage in reports. -/
def Stage.name : Stage → String
  | compilation => "Compilation"
  | execution => "Execution"

/-- What ended a running snippet. -/
structure Exception where
  typeName : String
  message : String
  deriving DecidableEq, Repr, Inhabited

/-- The kind of an exception and its message. -/
def Exception.text (e : Exception) : String :=
  e.typeName ++ ": " ++ e.message

/-- A time that was taken or not. -/
abbrev Time :=
  Option UInt64

/-- What stands for a time that was not taken. -/
def notMeasured : Int := -1

/-- A time as a signed number of 64 bits. -/
def Time.shown (t : Time) : Int :=
  match t with
  | some ms => ms.toInt64.toInt
  | none => notMeasured

/-- The outcome of an evaluation. -/
inductive Outcome where
  | compileFailure (diagnostics : List Diagnostic) (compileTime : Time)
  | runtimeFailure (exception : Exception) (compileTime : Time)
  | success (value : Option Value) (compileTime execTime : Time)
  deriving Repr, Inhabited

namespace Outcome

/-- The failure of a snippet with these messages, which are put in the order of their places. -/
def ofDiagnostics (diagnostics : List Diagnostic) (compileTime : Time) : Outcome :=
  .compileFailure (Diagnostic.sort diagnostics) compileTime

/-- A short name of an outcome. -/
def label : Outcome → String
  | compileFailure _ _ => "compile_failure"
  | runtimeFailure _ _ => "runtime_failure"
  | success _ _ _ => "success"

/-- Whether the snippet succeeded. -/
def isSuccess : Outcome → Bool
  | success _ _ _ => true
  | _ => false

/-- The stage at which the snippet failed. -/
def failedStage? : Outcome → Option Stage
  | compileFailure _ _ => some .compilation
  | runtimeFailure _ _ => some .execution
  | success _ _ _ => none

/-- The messages of the compile stage. -/
def diagnostics : Outcome → List Diagnostic
  | compileFailure diagnostics _ => diagnostics
  | _ => []

/-- What ended the snippet. -/
def exception? : Outcome → Option Exception
  | runtimeFailure exception _ => some exception
  | _ => none

/-- The value of the snippet. -/
def value? : Outcome → Option Value
  | success value _ _ => value
  | _ => none

/-- The time that compiling took. -/
def compileTime : Outcome → Time
  | compileFailure _ t | runtimeFailure _ t | success _ t _ => t

/-- The time that running took. -/
def execTime : Outcome → Time
  | success _ _ t => t
  | _ => none

/-- The same outcome with other times. A failure has no time of running. -/
def withTimes (compileTime execTime : Time) : Outcome → Outcome
  | compileFailure diagnostics _ => compileFailure diagnostics compileTime
  | runtimeFailure exception _ => runtimeFailure exception compileTime
  | success value _ _ => success value compileTime execTime

end Outcome

end Snippet
