import Snippet.Run.Library
import Snippet.Run.Path
import Snippet.Script.Tree

/-!
# Running a script

Every statement, every expression and every round of a `foreach` costs one step. Since each round
of a `while` evaluates its condition, the rest of the budget bounds the number of rounds, and a
run ends for every script.

Statements end in a `Flow`: they go on, leave or repeat a loop, or return a value. Outside of any
loop the first two of these do nothing.
-/

namespace Snippet.Run

open Script (Accessor BinaryOp Builtin DeclType Expr Literal Program Stmt)

/-- How a statement ends. -/
inductive Flow where
  | normal
  | breakLoop
  | continueLoop
  | returned (value : Value)
  deriving Repr, Inhabited

/-- The value of a literal. -/
def literalValue : Literal → Value
  | .null => .null
  | .bool b => .bool b
  | .int i => .int i
  | .float x => .float x
  | .string s => .string s

/-- The value of a map literal's key. -/
def literalKey (v : Value) : Except Fault String :=
  match v.key? with
  | some key => .ok key
  | none => .error (.type (.notMapKey v.typeName))

/-- Refuses a literal of too many elements before it is evaluated. -/
def checkLength (setting : Setting) (length : Nat) : Step Unit :=
  if setting.limits.maxElements < length then fail (.tooManyElements setting.limits.maxElements)
  else pure ()

/-- Calls the builtin of a name. Its arguments are evaluated once it is known that there is one. -/
def invoke (setting : Setting) (name : String) (args : Step (List Value)) : Step Value := do
  match Builtin.ofName? name with
  | none => fail (.type (.notHelper name))
  | some builtin =>
    let args ← args
    if builtin.accepts args.length then callBuiltin setting builtin args
    else fail (.wrongArity name args.length)

mutual

/-- Evaluates an expression. -/
def eval (setting : Setting) : Expr → Step Value
  | .literal _ value => do
    tick setting
    return literalValue value
  | .name _ name => do
    tick setting
    return (← lookup name).value
  | .list _ items => do
    tick setting
    checkLength setting items.length
    lift (shaped setting.limits.maxElements (.list (← evalItems setting items)))
  | .map _ entries => do
    tick setting
    checkLength setting entries.length
    lift (shaped setting.limits.maxElements (.map (← evalEntries setting [] entries)))
  | .unary _ op operand => do
    tick setting
    lift (applyUnary op (← eval setting operand))
  | .binary _ op lhs rhs => do
    tick setting
    let left ← eval setting lhs
    match op with
    | .and =>
      if ← lift (truth "&&" left) then
        return .bool (← lift (truth "&&" (← eval setting rhs)))
      else return .bool false
    | .or =>
      if ← lift (truth "||" left) then return .bool true
      else return .bool (← lift (truth "||" (← eval setting rhs)))
    | op => lift (apply setting.limits.maxElements op left (← eval setting rhs))
  | .ternary _ cond yes no => do
    tick setting
    if ← lift (truth "?:" (← eval setting cond)) then eval setting yes else eval setting no
  | .call _ callee args => do
    tick setting
    match callee with
    | .name _ name => invoke setting name (evalItems setting args)
    | .member _ target field =>
      let receiver ← eval setting target
      invoke setting field.name do return receiver :: (← evalItems setting args)
    | _ => fail (.type .notInvocable)
  | .index _ target index => do
    tick setting
    let target ← eval setting target
    lift (readIndex target (← eval setting index))
  | .member _ target field => do
    tick setting
    lift (readMember (← eval setting target) field.name)

/-- Evaluates expressions from left to right. -/
def evalItems (setting : Setting) : List Expr → Step (List Value)
  | [] => return []
  | e :: rest => do
    let v ← eval setting e
    return v :: (← evalItems setting rest)

/-- Evaluates the entries of a map literal behind those of `entries`. A key that comes again keeps
its place and takes the new value. -/
def evalEntries (setting : Setting) (entries : List (String × Value)) :
    List (Expr × Expr) → Step (List (String × Value))
  | [] => return entries
  | (k, v) :: rest => do
    let key ← lift (literalKey (← eval setting k))
    let value ← eval setting v
    evalEntries setting (putEntry key value entries) rest

end

/-- Evaluates the indices of a path. -/
def evalPath (setting : Setting) : List Accessor → Step (List PathKey)
  | [] => return []
  | .index e :: rest => do
    let v ← eval setting e
    return .index v :: (← evalPath setting rest)
  | .member field :: rest => do
    return .member field.name :: (← evalPath setting rest)

/-- The value that an assignment stores at the end of its path. -/
def assignedValue (setting : Setting) (root : String) (keys : List PathKey)
    (op : Script.AssignOp) (value : Value) : Step Value := do
  match op.binary? with
  | none => return value
  | some op =>
    let current ← lift (readPath (← lookup root).value keys)
    lift (apply setting.limits.maxElements op current value)

/-- Executes an assignment. A collection that is stored inside another one is held to the limits
together with it. -/
def assign (setting : Setting) (root : String) (path : List Accessor) (op : Script.AssignOp)
    (value : Expr) : Step Unit := do
  let keys ← evalPath setting path
  let value ← eval setting value
  let value ← assignedValue setting root keys op value
  let slot ← lookup root
  match keys with
  | [] => store root (← lift (coerce slot.type value))
  | keys =>
    let updated ← lift (writePath setting.limits.maxElements value keys slot.value)
    -- the value is stored before the limits are looked at; a fault ends the run anyway
    store root updated
    if value.isCollection then
      let _ ← lift (shaped setting.limits.maxElements updated)

/-- Repeats a loop body while a condition holds, for at most `rounds` rounds. -/
def repeatWhile (setting : Setting) (cond : Step Bool) (body : Step Flow) : Nat → Step Flow
  | 0 => fail (.stepBudget setting.limits.maxSteps)
  | rounds + 1 => do
    if ← cond then
      match ← body with
      | .breakLoop => return .normal
      | .returned v => return .returned v
      | _ => repeatWhile setting cond body rounds
    else return .normal

/-- The items over which a loop runs. -/
def itemsOf (limit : Nat) : Value → Except Fault (List Value)
  | .list items => .ok items
  | .map entries => .ok (entries.map fun (k, v) ↦ .entry k v limit)
  | .string s => .ok (s.toList.map fun c ↦ .string (String.singleton c))
  | .null => .error .nullReference
  | v => .error (.type (.notIterable v.typeName))

/-- Runs a loop body once for each item, with the item bound to a variable. -/
def forItems (setting : Setting) (name : String) (type : DeclType) (body : Step Flow) :
    List Value → Step Flow
  | [] => return .normal
  | item :: rest => do
    tick setting
    match ← inBlock (do declare name type item; body) with
    | .breakLoop => return .normal
    | .returned v => return .returned v
    | _ => forItems setting name type body rest

/-- The fault of throwing a value. -/
def thrown (limit : Nat) : Value → Fault
  | .null => .nullReference
  | v => .thrown (v.toText limit)

mutual

/-- Executes a statement. -/
def exec (setting : Setting) : Stmt → Step Flow
  | .declare _ type name init => do
    tick setting
    let value ← match init with
      | some init => eval setting init
      | none => pure (defaultFor type)
    declare name.name type value
    return .normal
  | .assign _ root path op value => do
    tick setting
    assign setting root.name path op value
    return .normal
  | .expression _ value => do
    tick setting
    let _ ← eval setting value
    return .normal
  | .block _ body => do
    tick setting
    inBlock (execBlock setting body)
  | .ifElse _ cond yes no => do
    tick setting
    if ← lift (truth "if" (← eval setting cond)) then inBlock (exec setting yes)
    else
      match no with
      | some no => inBlock (exec setting no)
      | none => return .normal
  | .whileLoop _ cond body => do
    tick setting
    -- each round takes a step, so the budget ends the run before the rounds do
    let rounds := setting.limits.maxSteps - (← get).steps + 1
    repeatWhile setting (do lift (truth "while" (← eval setting cond)))
      (inBlock (exec setting body)) rounds
  | .forEach _ type binding items body => do
    tick setting
    let items ← lift (itemsOf setting.limits.maxElements (← eval setting items))
    forItems setting binding.name type (exec setting body) items
  | .returnWith _ value => do
    tick setting
    match value with
    | some value => return .returned (← eval setting value)
    | none => return .returned .null
  | .throwWith _ value => do
    tick setting
    fail (thrown setting.limits.maxElements (← eval setting value))
  | .breakLoop _ => do
    tick setting
    return .breakLoop
  | .continueLoop _ => do
    tick setting
    return .continueLoop
  | .empty _ => do
    tick setting
    return .normal

/-- Executes statements until one of them does not simply go on. -/
def execBlock (setting : Setting) : List Stmt → Step Flow
  | [] => return .normal
  | s :: rest => do
    match ← exec setting s with
    | .normal => execBlock setting rest
    | flow => return flow

end

/-- Executes the statements of a whole script. A loop control outside of a loop does nothing. -/
def execAll (setting : Setting) : List Stmt → Step (Option Value)
  | [] => return none
  | s :: rest => do
    match ← exec setting s with
    | .returned v => return some v
    | _ => execAll setting rest

/-- The value of a script: what it returns, else that of its last expression, else null. -/
def execProgram (setting : Setting) (program : Program) : Step Value := do
  match ← execAll setting program.statements with
  | some v => return v
  | none =>
    match program.tail with
    | some e => eval setting e
    | none => return .null

/-- The state in which a run starts. -/
def Machine.start (outbox : Outbox) : Machine :=
  ⟨0, [[]], outbox⟩

/-- What a run ends with. -/
structure Ending where
  /-- The value of the script, if it has one, or what ended it. -/
  result : Except Halt (Option Value)
  machine : Machine
  deriving Inhabited

/-- A script whose value is null has none. -/
def produced : Value → Option Value
  | .null => none
  | v => some v

/-- Runs a script. -/
def run (setting : Setting) (program : Program) (outbox : Outbox) : Ending :=
  match execProgram setting program (.start outbox) with
  | .ok v m => ⟨.ok (produced v), m⟩
  | .error halt m => ⟨.error halt, m⟩

end Snippet.Run
