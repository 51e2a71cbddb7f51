import Snippet.Host.Context
import Snippet.Run.Operator

/-!
# The state of a run

A run counts its steps, holds the local variables of the blocks it is in, and sends replies. It is
bounded in three ways: by a budget of steps, by the clock, and by the host, which may cancel it.
The clock and the host are looked at in every 1024th step only, so a run depends on them through
one answer for each of these steps.

Whatever ends a run, the state behind it is part of the answer.
-/

namespace Snippet.Run

open Script (DeclType)

/-- The bounds of a run. -/
structure Limits where
  maxSteps : Nat
  /-- The time limit in milliseconds. -/
  timeout : Nat
  /-- The greatest number of elements of a collection, and of characters of a text. -/
  maxElements : Nat
  deriving DecidableEq, Repr, Inhabited

/-- What a run is given. -/
structure Setting where
  limits : Limits
  context : Context
  /-- Whether the host has cancelled the run before its start. -/
  cancelled : Bool
  /-- Whether the time limit has passed at the step with this number. -/
  late : Nat → Bool

/-- A local variable. -/
structure Slot where
  name : String
  type : DeclType
  value : Value
  deriving Repr, Inhabited

/-- The state of a run. -/
structure Machine where
  steps : Nat
  /-- The local variables, by blocks from the innermost outwards, newest first in each. -/
  scopes : List (List Slot)
  outbox : Outbox
  deriving Repr, Inhabited

/-- A computation that changes the state of a run and may end it. -/
abbrev Step (α : Type) :=
  EStateM Halt Machine α

/-- Ends the run with a fault. -/
def fail {α : Type} (fault : Fault) : Step α :=
  throw (.fault fault)

/-- The value of a computation on values, or its fault. -/
def lift {α : Type} (result : Except Fault α) : Step α :=
  match result with
  | .ok a => pure a
  | .error fault => fail fault

/-- The answer of the host, or the end of the run by its breakdown. -/
def ask {α : Type} (answer : HostAnswer α) : Step α :=
  match answer with
  | .ok a => pure a
  | .error text => throw (.breakdown text)

/-- The steps from one look at the clock to the next. -/
def clockInterval : Nat := 1024

/-- Counts one step and looks at the bounds. -/
def tick (setting : Setting) : Step Unit := do
  let steps := (← get).steps + 1
  modify fun m ↦ { m with steps }
  if setting.limits.maxSteps < steps then
    fail (.stepBudget setting.limits.maxSteps)
  else if steps % clockInterval = 0 ∧ (setting.late steps ∨ setting.cancelled) then
    fail (.timeLimit setting.limits.timeout)

/-- The variable of a name: the newest of the innermost block that has one. -/
def findSlot? (name : String) (scopes : List (List Slot)) : Option Slot :=
  scopes.findSome? fun scope ↦ scope.find? (·.name == name)

/-- Sets the value of the newest variable of a name in one block. -/
def setInScope (name : String) (value : Value) : List Slot → List Slot
  | [] => []
  | slot :: rest =>
    if slot.name = name then { slot with value } :: rest else slot :: setInScope name value rest

/-- Sets the value of the variable that `findSlot?` finds. -/
def setSlot (name : String) (value : Value) : List (List Slot) → List (List Slot)
  | [] => []
  | scope :: rest =>
    if scope.any (·.name == name) then setInScope name value scope :: rest
    else scope :: setSlot name value rest

/-- The variable of a name. -/
def lookup (name : String) : Step Slot := do
  match findSlot? name (← get).scopes with
  | some slot => return slot
  | none => fail (.type (.unbound name))

/-- Sets the value of the variable of a name. -/
def store (name : String) (value : Value) : Step Unit :=
  modify fun m ↦ { m with scopes := setSlot name value m.scopes }

/-- Adds a variable to the innermost block. -/
def declare (name : String) (type : DeclType) (value : Value) : Step Unit := do
  let value ← lift (coerce type value)
  modify fun m ↦
    match m.scopes with
    -- a run always has a block open
    | [] => m
    | scope :: rest => { m with scopes := (⟨name, type, value⟩ :: scope) :: rest }

/-- Runs a computation in a block of its own, which is left however the computation ends. -/
def inBlock {α : Type} (x : Step α) : Step α := fun m ↦
  match x { m with scopes := [] :: m.scopes } with
  | .ok a m => .ok a { m with scopes := m.scopes.tail }
  | .error e m => .error e { m with scopes := m.scopes.tail }

end Snippet.Run
