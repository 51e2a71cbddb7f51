/-!
# The life of an evaluation

An evaluation is compiled first. A script is then executed; a template is rendered. Four states
are final.
-/

namespace Snippet

/-- The state of an evaluation. -/
inductive Lifecycle where
  | pending
  | compiling
  | compileFailed
  | executing
  | runtimeFailed
  | succeeded
  | rendered
  deriving DecidableEq, Repr, Inhabited

namespace Lifecycle

/-- Every state. -/
def all : List Lifecycle :=
  [.pending, .compiling, .compileFailed, .executing, .runtimeFailed, .succeeded, .rendered]

/-- The name of a state in messages. -/
def name : Lifecycle → String
  | pending => "Pending"
  | compiling => "Compiling"
  | compileFailed => "CompileFailed"
  | executing => "Executing"
  | runtimeFailed => "RuntimeFailed"
  | succeeded => "Succeeded"
  | rendered => "Rendered"

/-- The state of a name. -/
def ofName? (name : String) : Option Lifecycle :=
  all.find? (·.name == name)

/-- Whether an evaluation ends in this state. -/
def isFinal : Lifecycle → Bool
  | compileFailed | runtimeFailed | succeeded | rendered => true
  | _ => false

/-- The steps of an evaluation. -/
def allows : Lifecycle → Lifecycle → Bool
  | pending, compiling => true
  | compiling, compileFailed | compiling, executing | compiling, rendered => true
  | executing, runtimeFailed | executing, succeeded => true
  | _, _ => false

/-- A step that evaluations do not have. -/
structure BadStep where
  source : Lifecycle
  target : Lifecycle
  deriving DecidableEq, Repr

/-- The wording of a step that evaluations do not have. -/
def BadStep.message (s : BadStep) : String :=
  "cannot move from " ++ s.source.name ++ " to " ++ s.target.name

/-- Takes a step. -/
def advance (s t : Lifecycle) : Except BadStep Lifecycle :=
  if s.allows t then .ok t else .error ⟨s, t⟩

/-- Exactly the final states are left by no step. -/
theorem isFinal_iff (s : Lifecycle) : s.isFinal = true ↔ ∀ t, s.allows t = false := by
  cases s <;> simp [isFinal, allows]
  · exact ⟨.compiling, rfl⟩
  · exact ⟨.executing, rfl⟩
  · exact ⟨.succeeded, rfl⟩

end Lifecycle

end Snippet
