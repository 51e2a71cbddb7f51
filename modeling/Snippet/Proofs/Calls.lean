import Snippet.Proofs.Execution

/-!
# Calls of builtins

A run reaches its host through the builtins that it calls. This module lists these calls in the
order in which they are made, with their arguments and without looking at the reply channel
(`calls` for an expression, `callsIn` for what a run executes). What the channel holds behind a run
can then be told from the list: one line for each call of `emitReply` (`linesOf`, `Outbox.emitAll`).

A `Log` depends on the state in which a computation starts, because the branches do that are taken.
It follows the computation: behind its first part comes the log of the second, if the first has a
value.
-/

namespace Snippet

/-- Sends texts one after the other. -/
def Outbox.emitAll (o : Outbox) (texts : List String) : Outbox :=
  texts.foldl emit o

namespace Outbox

@[simp]
theorem emitAll_nil (o : Outbox) : o.emitAll [] = o :=
  rfl

theorem emitAll_append (o : Outbox) (texts texts' : List String) :
    o.emitAll (texts ++ texts') = (o.emitAll texts).emitAll texts' :=
  List.foldl_append

/-- A channel that accepts messages holds exactly these texts behind what it held before. -/
theorem emitAll_of_accepts {o : Outbox} (h : o.accepts = true) (texts : List String) :
    (o.emitAll texts).sent.toList = o.sent.toList ++ texts.map Message.ofText := by
  induction texts generalizing o with
  | nil => rw [emitAll_nil, List.map_nil, List.append_nil]
  | cons text rest ih =>
    rw [emitAll, List.foldl_cons, ← emitAll, ih (by rw [emit_of_accepts h]; exact h),
      emit_of_accepts h, Array.toList_push, List.append_assoc]
    rfl

/-- One that refuses them holds what it held before. -/
theorem emitAll_of_refuses {o : Outbox} (h : o.accepts = false) (texts : List String) :
    o.emitAll texts = o := by
  induction texts with
  | nil => rfl
  | cons text rest ih => rw [emitAll, List.foldl_cons, emit_of_refuses h, ← emitAll, ih]

end Outbox

namespace Run

open Script (Accessor Builtin Expr Program Stmt)

variable {α β : Type} {setting : Setting} {m : Machine}

/-- A call of a builtin. -/
structure Call where
  builtin : Builtin
  args : List Value

/-- The line that a call sends, if it sends one. -/
def Call.line? (limit : Nat) (c : Call) : Option String :=
  if c.builtin = .emitReply then some (replyText limit c.args) else none

/-- The lines that some calls send. -/
def linesOf (limit : Nat) (calls : List Call) : List String :=
  calls.filterMap (Call.line? limit)

theorem linesOf_append (limit : Nat) (calls calls' : List Call) :
    linesOf limit (calls ++ calls') = linesOf limit calls ++ linesOf limit calls' :=
  List.filterMap_append

/-! ### Logs -/

/-- The calls that a computation makes, by the state in which it starts. -/
abbrev Log :=
  Machine → List Call

namespace Log

/-- A computation that calls nothing. -/
def none : Log :=
  fun _ ↦ []

/-- The calls behind a computation that calls nothing. -/
def behind (x : Step α) (g : α → Log) : Log := fun m ↦
  match x m with
  | .ok a m => g a m
  | .error _ _ => []

/-- The calls of a computation, and those behind it. -/
def andThen (ℓ : Log) (x : Step α) (g : α → Log) : Log := fun m ↦
  ℓ m ++ behind x g m

@[simp]
theorem andThen_none (ℓ : Log) (x : Step α) : ℓ.andThen x (fun _ ↦ none) = ℓ := by
  funext m
  rw [andThen, behind]
  cases x m <;> exact List.append_nil _

end Log

/-- The calls of an invocation: those of its arguments, and its own. -/
def invokeCalls (name : String) (ℓ : Log) (args : Step (List Value)) : Log :=
  match Builtin.ofName? name with
  | none => .none
  | some b => ℓ.andThen args fun vs _ ↦ if b.accepts vs.length then [⟨b, vs⟩] else []

mutual

/-- The calls that an expression makes. -/
def calls (setting : Setting) : Expr → Log
  | .literal _ _ | .name _ _ => .none
  | .list _ items =>
    .behind (tick setting) fun _ ↦ .behind (checkLength setting items.length) fun _ ↦
      itemCalls setting items
  | .map _ entries =>
    .behind (tick setting) fun _ ↦ .behind (checkLength setting entries.length) fun _ ↦
      entryCalls setting [] entries
  | .unary _ _ operand => .behind (tick setting) fun _ ↦ calls setting operand
  | .binary _ op lhs rhs =>
    .behind (tick setting) fun _ ↦ (calls setting lhs).andThen (eval setting lhs) fun left ↦
      match op with
      | .and => .behind (lift (truth "&&" left)) fun holds ↦
          if holds then calls setting rhs else .none
      | .or => .behind (lift (truth "||" left)) fun holds ↦
          if holds then .none else calls setting rhs
      | _ => calls setting rhs
  | .ternary _ cond yes no =>
    .behind (tick setting) fun _ ↦ (calls setting cond).andThen (eval setting cond) fun v ↦
      .behind (lift (truth "?:" v)) fun holds ↦
        if holds then calls setting yes else calls setting no
  | .call _ callee args =>
    .behind (tick setting) fun _ ↦
      match callee with
      | .name _ name => invokeCalls name (itemCalls setting args) (evalItems setting args)
      | .member _ target field =>
        (calls setting target).andThen (eval setting target) fun receiver ↦
          invokeCalls field.name (itemCalls setting args) do
            return receiver :: (← evalItems setting args)
      | _ => .none
  | .index _ target index =>
    .behind (tick setting) fun _ ↦ (calls setting target).andThen (eval setting target) fun _ ↦
      calls setting index
  | .member _ target _ => .behind (tick setting) fun _ ↦ calls setting target

/-- The calls of expressions from left to right. -/
def itemCalls (setting : Setting) : List Expr → Log
  | [] => .none
  | e :: rest => (calls setting e).andThen (eval setting e) fun _ ↦ itemCalls setting rest

/-- The calls of the entries of a map, behind those of `entries`. -/
def entryCalls (setting : Setting) (entries : List (String × Value)) : List (Expr × Expr) → Log
  | [] => .none
  | (k, v) :: rest =>
    (calls setting k).andThen (eval setting k) fun key ↦
      .behind (lift (literalKey key)) fun key ↦
        (calls setting v).andThen (eval setting v) fun value ↦
          entryCalls setting (putEntry key value entries) rest

end

/-- The calls of the indices of a path. -/
def pathCalls (setting : Setting) : List Accessor → Log
  | [] => .none
  | .index e :: rest => (calls setting e).andThen (eval setting e) fun _ ↦ pathCalls setting rest
  | .member _ :: rest => pathCalls setting rest

/-! ### Calls in a run -/

/-- The calls that a statement makes itself. The condition of a `while` belongs to the rounds. -/
def ownCalls (setting : Setting) : Stmt → Log
  | .declare _ _ _ (some e) | .expression _ e | .ifElse _ e _ _ | .forEach _ _ _ e _
  | .returnWith _ (some e) | .throwWith _ e => .behind (tick setting) fun _ ↦ calls setting e
  | .assign _ _ path _ value =>
    .behind (tick setting) fun _ ↦ (pathCalls setting path).andThen (evalPath setting path) fun _ ↦
      calls setting value
  | _ => .none

/-- The calls with which a loop comes to its next round. -/
def Loop.calls (setting : Setting) : Loop → Log
  | .whileTrue cond _ => Run.calls setting cond
  | .forEach _ _ _ _ => .none

/-- The calls that are made where a task is taken up. -/
def Task.calls (setting : Setting) : Task → Log
  | .stmt s => ownCalls setting s
  | .loop l => l.calls setting
  | _ => .none

/-- The calls in what a run executes, in the order in which they are made. -/
def callsIn (setting : Setting) (trace : List Execution) : List Call :=
  trace.flatMap fun e ↦ e.task.calls setting e.start

/-- The calls of the expression behind the statements, if the run comes to it. -/
def tailCalls (setting : Setting) (tail : Option Expr) : Ended Flow → List Call
  | .ok (.returned _) _ | .error _ _ => []
  | .ok _ m => tail.elim [] fun e ↦ calls setting e m

/-- A run of a script makes these calls. -/
def Makes (setting : Setting) (program : Program) (outbox : Outbox) (made : List Call) : Prop :=
  ∃ trace r, RunsOf setting program outbox trace r ∧
    made = callsIn setting trace ++ tailCalls setting program.tail r

end Run

end Snippet
