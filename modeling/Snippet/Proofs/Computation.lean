import Snippet.Proofs.Faults

/-!
# Computations of a run

A computation has a value or halts, and leaves a state behind either way (`after`). This module
gives the equations of the computations that a run is put together from, and the one argument
that every fact about the states of a run needs: a relation between states that holds across each
of them, and composes, holds across every expression and every statement.

Two such relations come in layers. A `Course` is kept by expressions, which count steps and send
replies and do nothing else. A `Passage` is also kept by statements, which declare variables, set
them, and open blocks.

* `Compositional.eval`: what holds of the parts of evaluation, and of sequences, holds of it.
* `Course.eval`: evaluation keeps every course.
* `Passage.exec`: execution keeps every passage.
* `lt_steps_of_eval`: an expression that has a value has cost a step.
* `scopes_eval`: expressions leave the variables alone.
-/

namespace Snippet.Run

open Script (Accessor Builtin DeclType Expr Stmt)

variable {α β : Type} {setting : Setting} {m m' : Machine}

/-- How a computation ended, with the state behind it. -/
abbrev Ended (α : Type) :=
  EStateM.Result Halt Machine α

/-- The state behind a computation, however it ended. -/
def after : Ended α → Machine
  | .ok _ m => m
  | .error _ m => m

@[simp]
theorem after_ok (a : α) (m : Machine) : after (.ok a m) = m :=
  rfl

@[simp]
theorem after_error (halt : Halt) (m : Machine) : after (.error halt m : Ended α) = m :=
  rfl

/-! ### Sequences -/

theorem bind_apply (x : Step α) (f : α → Step β) (m : Machine) :
    (x >>= f) m =
      match x m with
      | .ok a m => f a m
      | .error halt m => .error halt m := by
  show EStateM.bind x f m = _
  rw [EStateM.bind]
  cases x m <;> rfl

@[simp]
theorem pure_apply (a : α) (m : Machine) : (pure a : Step α) m = .ok a m :=
  rfl

theorem bind_of_ok {x : Step α} {a : α} (h : x m = .ok a m') (f : α → Step β) :
    (x >>= f) m = f a m' := by
  rw [bind_apply, h]

theorem bind_of_error {x : Step α} {halt : Halt} (h : x m = .error halt m') (f : α → Step β) :
    (x >>= f) m = .error halt m' := by
  rw [bind_apply, h]

/-- A sequence has a value if both of its parts have one. -/
theorem bind_eq_ok_iff {x : Step α} {f : α → Step β} {b : β} :
    (x >>= f) m = .ok b m' ↔ ∃ a m₁, x m = .ok a m₁ ∧ f a m₁ = .ok b m' := by
  rw [bind_apply]
  constructor
  · intro h
    rcases hx : x m with ⟨a, m₁⟩ | ⟨halt, m₁⟩
    · rw [hx] at h
      exact ⟨a, m₁, rfl, h⟩
    · rw [hx] at h
      cases h
  · rintro ⟨a, m₁, hx, hf⟩
    rw [hx]
    exact hf

/-- A sequence halts in its first part, or behind it. -/
theorem bind_eq_error_iff {x : Step α} {f : α → Step β} {halt : Halt} :
    (x >>= f) m = .error halt m' ↔
      x m = .error halt m' ∨ ∃ a m₁, x m = .ok a m₁ ∧ f a m₁ = .error halt m' := by
  rw [bind_apply]
  rcases hx : x m with ⟨a, m₁⟩ | ⟨halt', m₁⟩
  · refine ⟨fun h ↦ .inr ⟨a, m₁, rfl, h⟩, ?_⟩
    rintro (⟨⟨⟩⟩ | ⟨_, _, ⟨⟩, h⟩)
    exact h
  · constructor
    · rintro ⟨⟩
      exact .inl rfl
    · rintro (⟨⟨⟩⟩ | ⟨_, _, ⟨⟩, -⟩)
      rfl

/-- Two sequences with one first part agree if they agree behind each value of it. -/
theorem bind_apply_congr {x : Step α} {f g : α → Step β}
    (h : ∀ a m', x m = .ok a m' → f a m' = g a m') : (x >>= f) m = (x >>= g) m := by
  rw [bind_apply, bind_apply]
  rcases hx : x m with ⟨a, m'⟩ | ⟨halt, m'⟩
  · exact h a m' hx
  · rfl

theorem lift_apply (result : Except Fault α) (m : Machine) :
    lift result m =
      match result with
      | .ok a => .ok a m
      | .error fault => .error (.fault fault) m := by
  cases result <;> rfl

@[simp]
theorem lift_eq_ok_iff {result : Except Fault α} {a : α} :
    lift result m = .ok a m' ↔ result = .ok a ∧ m = m' := by
  cases result <;> simp [lift_apply]

@[simp]
theorem after_lift (result : Except Fault α) (m : Machine) : after (lift result m) = m := by
  cases result <;> rfl

@[simp]
theorem after_ask (answer : HostAnswer α) (m : Machine) : after (ask answer m) = m := by
  cases answer <;> rfl

/-! ### Steps and variables -/

/-- The state with one more step. -/
def Machine.ticked (m : Machine) : Machine :=
  { m with steps := m.steps + 1 }

@[simp]
theorem Machine.ticked_steps (m : Machine) : m.ticked.steps = m.steps + 1 :=
  rfl

@[simp]
theorem Machine.ticked_scopes (m : Machine) : m.ticked.scopes = m.scopes :=
  rfl

theorem tick_apply (setting : Setting) (m : Machine) :
    tick setting m =
      if setting.limits.maxSteps < m.steps + 1 then
        .error (.fault (.stepBudget setting.limits.maxSteps)) m.ticked
      else if (m.steps + 1) % clockInterval = 0 ∧
          (setting.late (m.steps + 1) ∨ setting.cancelled) then
        .error (.fault (.timeLimit setting.limits.timeout)) m.ticked
      else .ok () m.ticked := by
  show (if setting.limits.maxSteps < m.steps + 1 then _ else _ : Step Unit) m.ticked = _
  split
  · rfl
  · split <;> rfl

@[simp]
theorem after_tick (setting : Setting) (m : Machine) : after (tick setting m) = m.ticked := by
  rw [tick_apply]
  split
  · rfl
  · split <;> rfl

/-- A step that is counted is within the budget. -/
theorem tick_eq_ok {u : Unit} (h : tick setting m = .ok u m') :
    m.steps + 1 ≤ setting.limits.maxSteps ∧ m' = m.ticked := by
  have hm : m' = m.ticked := by
    rw [← after_tick setting m, h, after_ok]
  rw [tick_apply] at h
  split at h
  · cases h
  · exact ⟨by omega, hm⟩

/-- What has a value behind a step has it from the state with that step. -/
theorem ok_of_tick {f : Unit → Step α} {a : α} (h : (tick setting >>= f) m = .ok a m') :
    f () m.ticked = .ok a m' := by
  obtain ⟨_, _, htick, hf⟩ := bind_eq_ok_iff.1 h
  obtain ⟨-, rfl⟩ := tick_eq_ok htick
  exact hf

theorem lookup_apply (name : String) (m : Machine) :
    lookup name m =
      match findSlot? name m.scopes with
      | some slot => .ok slot m
      | none => .error (.fault (.type (.unbound name))) m := by
  show (match findSlot? name m.scopes with
    | some slot => pure slot
    | none => fail (.type (.unbound name)) : Step Slot) m = _
  cases findSlot? name m.scopes <;> rfl

@[simp]
theorem lookup_eq_ok_iff {name : String} {slot : Slot} :
    lookup name m = .ok slot m' ↔ findSlot? name m.scopes = some slot ∧ m = m' := by
  rw [lookup_apply]
  cases findSlot? name m.scopes <;> simp

@[simp]
theorem after_lookup (name : String) (m : Machine) : after (lookup name m) = m := by
  rw [lookup_apply]
  cases findSlot? name m.scopes <;> rfl

/-- The scopes with one more variable in the innermost block. -/
def addSlot (slot : Slot) : List (List Slot) → List (List Slot)
  | [] => []
  | scope :: rest => (slot :: scope) :: rest

theorem declare_apply (name : String) (type : DeclType) (value : Value) (m : Machine) :
    declare name type value m =
      match coerce type value with
      | .ok v => .ok () { m with scopes := addSlot ⟨name, type, v⟩ m.scopes }
      | .error fault => .error (.fault fault) m := by
  rw [declare, bind_apply, lift_apply]
  rcases coerce type value with fault | v
  · rfl
  · show EStateM.Result.ok () _ = _
    rcases m with ⟨steps, _ | ⟨scope, rest⟩, outbox⟩ <;> rfl

/-- A declaration that ends has bound the converted value. -/
theorem declare_eq_ok {name : String} {type : DeclType} {value : Value} {u : Unit}
    (h : declare name type value m = .ok u m') :
    ∃ v, coerce type value = .ok v ∧
      m' = { m with scopes := addSlot ⟨name, type, v⟩ m.scopes } := by
  rw [declare_apply] at h
  rcases hcoerce : coerce type value with fault | v
  · rw [hcoerce] at h
    cases h
  · rw [hcoerce] at h
    cases h
    exact ⟨v, rfl, rfl⟩

/-- A helper does nothing to the state. -/
theorem callBuiltin_of_helper {b : Builtin} (h : b.origin = .helper) (args : List Value) :
    callBuiltin setting b args = lift (helperValue setting.limits.maxElements b args) := by
  cases b <;> first | rfl | cases h

/-! ### Blocks -/

/-- The state inside a new block. -/
def Machine.enter (m : Machine) : Machine :=
  { m with scopes := [] :: m.scopes }

/-- The state behind the innermost block. -/
def Machine.leave (m : Machine) : Machine :=
  { m with scopes := m.scopes.tail }

@[simp]
theorem Machine.enter_scopes (m : Machine) : m.enter.scopes = [] :: m.scopes :=
  rfl

@[simp]
theorem Machine.leave_scopes (m : Machine) : m.leave.scopes = m.scopes.tail :=
  rfl

/-- What a block ends with: what its inside ends with, the block left. -/
def leaving : Ended α → Ended α
  | .ok a m => .ok a m.leave
  | .error halt m => .error halt m.leave

@[simp]
theorem after_leaving (r : Ended α) : after (leaving r) = (after r).leave := by
  cases r <;> rfl

theorem inBlock_apply (x : Step α) (m : Machine) : inBlock x m = leaving (x m.enter) := by
  show (match x m.enter with | .ok _ _ => _ | .error _ _ => _) = _
  cases x m.enter <;> rfl

/-! ### Relations that hold across a computation -/

/-- Every run of a computation leads from a state to one that `R` relates to it. -/
def Moves (R : Machine → Machine → Prop) (x : Step α) : Prop :=
  ∀ m, R m (after (x m))

theorem Moves.of_ok {R : Machine → Machine → Prop} {x : Step α} {a : α} (h : Moves R x)
    (hx : x m = .ok a m') : R m m' := by
  rw [← after_ok a m', ← hx]
  exact h m

theorem Moves.of_error {R : Machine → Machine → Prop} {x : Step α} {halt : Halt} (h : Moves R x)
    (hx : x m = .error halt m') : R m m' := by
  rw [← after_error (α := α) halt m', ← hx]
  exact h m

theorem Moves.ite {R : Machine → Machine → Prop} {p : Prop} [Decidable p] {x y : Step α}
    (hx : Moves R x) (hy : Moves R y) : Moves R (if p then x else y) := by
  split
  · exact hx
  · exact hy

/-- A relation between states that composes and holds across everything that an expression does
to the state. -/
structure Course (R : Machine → Machine → Prop) : Prop where
  refl : ∀ m, R m m
  trans : ∀ {m₁ m₂ m₃}, R m₁ m₂ → R m₂ m₃ → R m₁ m₃
  tick : ∀ m, R m m.ticked
  emit : ∀ m text, R m { m with outbox := m.outbox.emit text }

/-- A course that also holds across everything that a statement does to the state. -/
structure Passage (R : Machine → Machine → Prop) : Prop extends Course R where
  store : ∀ m name value, R m { m with scopes := setSlot name value m.scopes }
  declare : ∀ m slot, R m { m with scopes := addSlot slot m.scopes }
  block : ∀ {m m'}, R m.enter m' → R m m'.leave

/-- A computation that counts a step and then moves along `R`. -/
def Counts (setting : Setting) (R : Machine → Machine → Prop) (x : Step α) : Prop :=
  ∃ rest : Step α, x = (do tick setting; rest) ∧ Moves R rest

namespace Course

variable {R : Machine → Machine → Prop} (hR : Course R)
include hR

theorem pure (a : α) : Moves R (pure a : Step α) :=
  fun m ↦ hR.refl m

theorem fail (fault : Fault) : Moves R (fail fault : Step α) :=
  fun m ↦ hR.refl m

theorem lift (result : Except Fault α) : Moves R (lift result) := fun m ↦ by
  rw [after_lift]
  exact hR.refl m

theorem lookup (name : String) : Moves R (lookup name) := fun m ↦ by
  rw [after_lookup]
  exact hR.refl m

theorem count (setting : Setting) : Moves R (Run.tick setting) := fun m ↦ by
  rw [after_tick]
  exact hR.tick m

theorem bind {x : Step α} {f : α → Step β} (hx : Moves R x) (hf : ∀ a, Moves R (f a)) :
    Moves R (x >>= f) := by
  intro m
  have h := hx m
  rw [bind_apply]
  rcases hxm : x m with ⟨a, m₁⟩ | ⟨halt, m₁⟩
  · rw [hxm] at h
    exact hR.trans h (hf a m₁)
  · rw [hxm] at h
    exact h

theorem callBuiltin (setting : Setting) (b : Builtin) (args : List Value) :
    Moves R (callBuiltin setting b args) := by
  cases b with
  | emitReply => exact hR.bind (fun m ↦ hR.emit m _) fun _ ↦ hR.pure _
  | brandingAccent =>
    refine hR.bind (fun m ↦ ?_) fun color ↦ ?_
    · rw [after_ask]
      exact hR.refl m
    · cases color <;> exact hR.pure _
  | invokerIdentity => exact hR.pure _
  | _ =>
    rw [callBuiltin_of_helper rfl]
    exact hR.lift _

end Course

/-! ### What holds of evaluation -/

/-- A property of a computation, or of some that differ in their settings only, that holds of the
computations from which evaluation is put together, and of sequences. The settings have the same
limit on elements. Of computations on values only those are asked for that have no fault about
time, and of calls those with a number of arguments that the builtin takes. -/
structure Compositional {ι : Type} (setting : ι → Setting) (limit : Nat)
    (P : ∀ {α : Type}, (ι → Step α) → Prop) : Prop where
  limits : ∀ i, (setting i).limits.maxElements = limit
  lift : ∀ {α} {result : Except Fault α}, Prompt result → P fun _ ↦ lift result
  lookup : ∀ name, P fun _ ↦ lookup name
  tick : P fun i ↦ tick (setting i)
  callBuiltin : ∀ {b : Builtin} {args : List Value}, b.accepts args.length = true →
    P fun i ↦ callBuiltin (setting i) b args
  bind : ∀ {α β} {x : ι → Step α} {f : ι → α → Step β}, P x → (∀ a, P fun i ↦ f i a) →
    P fun i ↦ x i >>= f i

namespace Compositional

variable {ι : Type} {setting : ι → Setting} {limit : Nat} {P : ∀ {α : Type}, (ι → Step α) → Prop}
  (hP : Compositional setting limit P)
include hP

theorem pure (a : α) : P fun _ ↦ (pure a : Step α) :=
  hP.lift (.ok a)

theorem fail {fault : Fault} (h : fault.isTimeout = false) : P fun _ ↦ (fail fault : Step α) :=
  hP.lift (.error h)

theorem perform {result : Except Fault α} (h : Operational result) : P fun _ ↦ Run.lift result :=
  hP.lift h.prompt

omit hP in
theorem branch {p : Prop} [Decidable p] {x y : ι → Step α} (hx : P x) (hy : P y) :
    P fun i ↦ if p then x i else y i := by
  split
  · exact hx
  · exact hy

theorem checkLength (length : Nat) : P fun i ↦ checkLength (setting i) length := by
  simp only [Run.checkLength, hP.limits]
  exact branch (hP.fail rfl) (hP.pure ())

theorem invoke (name : String) {args : ι → Step (List Value)} (hargs : P args) :
    P fun i ↦ invoke (setting i) name (args i) := by
  simp only [Run.invoke]
  cases Builtin.ofName? name with
  | none => exact hP.fail rfl
  | some b =>
    refine hP.bind hargs fun args ↦ ?_
    split
    · exact hP.callBuiltin ‹_›
    · exact hP.fail rfl

/-- What counts a step and then does something with the property has the property. -/
theorem of_counts {x : ι → Step α}
    (h : ∃ rest : ι → Step α, (∀ i, x i = do Run.tick (setting i); rest i) ∧ P rest) : P x := by
  obtain ⟨rest, heq, hrest⟩ := h
  rw [funext heq]
  exact hP.bind hP.tick fun _ ↦ hrest

mutual

/-- Evaluation counts a step and has the property behind it. The induction on expressions is done
here for all such properties. -/
theorem counts_eval : ∀ e, ∃ rest : ι → Step Value,
    (∀ i, Run.eval (setting i) e = do Run.tick (setting i); rest i) ∧ P rest
  | .literal _ _ => ⟨_, fun _ ↦ rfl, hP.pure _⟩
  | .name _ name => ⟨_, fun _ ↦ rfl, hP.bind (hP.lookup name) fun _ ↦ hP.pure _⟩
  | .list _ items => by
    refine ⟨_, fun i ↦ by rw [Run.eval, hP.limits], ?_⟩
    exact hP.bind (hP.checkLength _) fun _ ↦ hP.bind (evalItems items) fun _ ↦
      hP.perform (operational_shaped _)
  | .map _ entries => by
    refine ⟨_, fun i ↦ by rw [Run.eval, hP.limits], ?_⟩
    exact hP.bind (hP.checkLength _) fun _ ↦ hP.bind (evalEntries entries []) fun _ ↦
      hP.perform (operational_shaped _)
  | .unary _ _ operand =>
    ⟨_, fun _ ↦ rfl, hP.bind (hP.of_counts (counts_eval operand)) fun _ ↦
      hP.perform (operational_applyUnary _ _)⟩
  | .binary _ op lhs rhs => by
    have hrhs := hP.of_counts (counts_eval rhs)
    have htruth (construct : String) (v : Value) :=
      hP.perform (operational_truth construct v)
    refine ⟨_, fun i ↦ by rw [Run.eval.eq_def], ?_⟩
    refine hP.bind (hP.of_counts (counts_eval lhs)) fun left ↦ ?_
    split
    · refine hP.bind (htruth _ _) fun _ ↦ branch ?_ (hP.pure _)
      exact hP.bind hrhs fun _ ↦ hP.bind (htruth _ _) fun _ ↦ hP.pure _
    · refine hP.bind (htruth _ _) fun _ ↦ branch (hP.pure _) ?_
      exact hP.bind hrhs fun _ ↦ hP.bind (htruth _ _) fun _ ↦ hP.pure _
    · simp only [hP.limits]
      exact hP.bind hrhs fun _ ↦ hP.perform (operational_apply _ _ _)
  | .ternary _ cond yes no => by
    have hyes := hP.of_counts (counts_eval yes)
    have hno := hP.of_counts (counts_eval no)
    exact ⟨_, fun _ ↦ rfl, hP.bind (hP.of_counts (counts_eval cond)) fun _ ↦
      hP.bind (hP.perform (operational_truth _ _)) fun _ ↦ branch hyes hno⟩
  | .call _ callee args => by
    have hargs := evalItems args
    refine ⟨_, fun i ↦ by rw [Run.eval.eq_def], ?_⟩
    cases callee with
    | name _ name => exact hP.invoke name hargs
    | member _ target field =>
      exact hP.bind (hP.of_counts (counts_eval target)) fun _ ↦
        hP.invoke field.name (hP.bind hargs fun _ ↦ hP.pure _)
    | _ => exact hP.fail rfl
  | .index _ target index => by
    have hindex := hP.of_counts (counts_eval index)
    exact ⟨_, fun _ ↦ rfl, hP.bind (hP.of_counts (counts_eval target)) fun _ ↦
      hP.bind hindex fun _ ↦ hP.perform (operational_readIndex _ _)⟩
  | .member _ target _ =>
    ⟨_, fun _ ↦ rfl, hP.bind (hP.of_counts (counts_eval target)) fun _ ↦
      hP.perform (operational_readMember _ _)⟩

theorem evalItems : ∀ es, P fun i ↦ Run.evalItems (setting i) es
  | [] => hP.pure _
  | e :: rest =>
    hP.bind (hP.of_counts (counts_eval e)) fun _ ↦ hP.bind (evalItems rest) fun _ ↦ hP.pure _

theorem evalEntries : ∀ es entries, P fun i ↦ Run.evalEntries (setting i) entries es
  | [], _ => hP.pure _
  | (k, v) :: rest, _ =>
    hP.bind (hP.of_counts (counts_eval k)) fun _ ↦
      hP.bind (hP.perform (operational_literalKey _)) fun _ ↦
        hP.bind (hP.of_counts (counts_eval v)) fun _ ↦ evalEntries rest _

end

/-- Evaluation has the property. -/
theorem eval (e : Expr) : P fun i ↦ Run.eval (setting i) e :=
  hP.of_counts (hP.counts_eval e)

/-- So has the evaluation of the indices of a path. -/
theorem evalPath : ∀ path, P fun i ↦ Run.evalPath (setting i) path
  | [] => hP.pure _
  | .index e :: rest => hP.bind (hP.eval e) fun _ ↦ hP.bind (evalPath rest) fun _ ↦ hP.pure _
  | .member _ :: rest => hP.bind (evalPath rest) fun _ ↦ hP.pure _

/-- And the computation of the value that an assignment stores. -/
theorem assignedValue (root : String) (keys : List PathKey) (op : Script.AssignOp)
    (value : Value) : P fun i ↦ Run.assignedValue (setting i) root keys op value := by
  simp only [Run.assignedValue, hP.limits]
  cases op.binary? with
  | none => exact hP.pure _
  | some op =>
    exact hP.bind (hP.lookup root) fun _ ↦ hP.bind (hP.perform (operational_readPath _ _)) fun _ ↦
      hP.perform (operational_apply _ _ _)

end Compositional

namespace Course

variable {R : Machine → Machine → Prop} (hR : Course R)
include hR

/-- Moving along a course is such a property. -/
theorem compositional (setting : Setting) :
    Compositional (fun _ : Unit ↦ setting) setting.limits.maxElements fun x ↦ Moves R (x ()) where
  limits _ := rfl
  lift _ := hR.lift _
  lookup name := hR.lookup name
  tick := hR.count setting
  callBuiltin _ := hR.callBuiltin setting _ _
  bind hx hf := hR.bind hx hf

/-- Evaluation counts a step and keeps every course behind it. -/
theorem counts_eval (setting : Setting) (e : Expr) : Counts setting R (Run.eval setting e) := by
  obtain ⟨rest, heq, hrest⟩ := (hR.compositional setting).counts_eval e
  exact ⟨rest (), heq (), hrest⟩

/-- Evaluation keeps every course. -/
theorem eval (setting : Setting) (e : Expr) : Moves R (Run.eval setting e) :=
  (hR.compositional setting).eval e

/-- So does the evaluation of the indices of a path. -/
theorem evalPath (setting : Setting) (path : List Accessor) :
    Moves R (Run.evalPath setting path) :=
  (hR.compositional setting).evalPath path

theorem assignedValue (setting : Setting) (root : String) (keys : List PathKey)
    (op : Script.AssignOp) (value : Value) :
    Moves R (assignedValue setting root keys op value) :=
  (hR.compositional setting).assignedValue root keys op value

/-- An assignment keeps a course that storing keeps. -/
theorem assign (hstore : ∀ name value, Moves R (store name value)) (setting : Setting)
    (root : String) (path : List Accessor) (op : Script.AssignOp) (value : Expr) :
    Moves R (assign setting root path op value) := by
  refine hR.bind (hR.evalPath setting path) fun keys ↦ hR.bind (hR.eval setting value) fun v ↦
    hR.bind (hR.assignedValue setting root keys op v) fun w ↦ hR.bind (hR.lookup root) fun slot ↦ ?_
  split
  · exact hR.bind (hR.lift _) fun _ ↦ hstore _ _
  · refine hR.bind (hR.lift _) fun updated ↦ hR.bind (hstore _ _) fun _ ↦ .ite ?_ (hR.pure _)
    exact hR.bind (hR.lift _) fun _ ↦ hR.pure _

/-- A loop keeps a course that its rounds keep. -/
theorem repeatWhile (setting : Setting) {cond : Step Bool} {body : Step Flow}
    (hcond : Moves R cond) (hbody : Moves R body) (rounds : Nat) :
    Moves R (repeatWhile setting cond body rounds) := by
  induction rounds with
  | zero => exact hR.fail _
  | succ rounds ih =>
    refine hR.bind hcond fun _ ↦ .ite (hR.bind hbody fun flow ↦ ?_) (hR.pure _)
    cases flow with
    | breakLoop => exact hR.pure _
    | returned v => exact hR.pure _
    | normal => exact ih
    | continueLoop => exact ih

theorem forItems (setting : Setting) {name : String} {type : DeclType} {body : Step Flow}
    (hround : ∀ item, Moves R (inBlock (do declare name type item; body))) (items : List Value) :
    Moves R (forItems setting name type body items) := by
  induction items with
  | nil => exact hR.pure _
  | cons item rest ih =>
    refine hR.bind (hR.count _) fun _ ↦ hR.bind (hround item) fun flow ↦ ?_
    cases flow with
    | breakLoop => exact hR.pure _
    | returned v => exact hR.pure _
    | normal => exact ih
    | continueLoop => exact ih

end Course

namespace Passage

variable {R : Machine → Machine → Prop} (hR : Passage R)
include hR

theorem inBlock {x : Step α} (hx : Moves R x) : Moves R (inBlock x) := fun m ↦ by
  rw [inBlock_apply, after_leaving]
  exact hR.block (hx m.enter)

theorem declare' (name : String) (type : DeclType) (value : Value) :
    Moves R (Run.declare name type value) := fun m ↦ by
  rw [declare_apply]
  split
  · exact hR.declare m _
  · exact hR.refl m

theorem assign' (setting : Setting) (root : String) (path : List Accessor)
    (op : Script.AssignOp) (value : Expr) : Moves R (Run.assign setting root path op value) :=
  hR.assign (fun name value m ↦ hR.store m name value) setting root path op value

theorem forItems' (setting : Setting) (name : String) (type : DeclType) {body : Step Flow}
    (hbody : Moves R body) (items : List Value) :
    Moves R (Run.forItems setting name type body items) :=
  hR.forItems setting (fun _ ↦ hR.inBlock (hR.bind (hR.declare' _ _ _) fun _ ↦ hbody)) items

mutual

/-- Execution keeps every passage. -/
theorem exec (setting : Setting) : ∀ s, Moves R (Run.exec setting s)
  | .declare _ type name init => by
    have hrest (value) : Moves R (do Run.declare name.name type value; return Flow.normal) :=
      hR.bind (hR.declare' _ _ _) fun _ ↦ hR.pure _
    refine hR.bind (hR.count _) fun _ ↦ ?_
    cases init with
    | some init => exact hR.bind (hR.eval setting init) hrest
    | none => exact hR.bind (hR.pure _) hrest
  | .assign _ _ _ _ _ =>
    hR.bind (hR.count _) fun _ ↦ hR.bind (hR.assign' _ _ _ _ _) fun _ ↦ hR.pure _
  | .expression _ _ =>
    hR.bind (hR.count _) fun _ ↦ hR.bind (hR.eval _ _) fun _ ↦ hR.pure _
  | .block _ body => hR.bind (hR.count _) fun _ ↦ hR.inBlock (execBlock setting body)
  | .ifElse _ _ yes no => by
    have hyes := exec setting yes
    rw [Run.exec.eq_def]
    refine hR.bind (hR.count _) fun _ ↦ hR.bind (hR.eval _ _) fun _ ↦
      hR.bind (hR.lift _) fun _ ↦ .ite (hR.inBlock hyes) ?_
    cases no with
    | some no => exact hR.inBlock (exec setting no)
    | none => exact hR.pure _
  | .whileLoop _ _ body => by
    have hbody := exec setting body
    rw [Run.exec.eq_def]
    refine hR.bind (hR.count _) fun _ ↦ hR.bind (fun m ↦ hR.refl m) fun _ ↦ ?_
    exact hR.repeatWhile setting (hR.bind (hR.eval _ _) fun _ ↦ hR.lift _) (hR.inBlock hbody) _
  | .forEach _ _ _ _ body => by
    have hbody := exec setting body
    exact hR.bind (hR.count _) fun _ ↦ hR.bind (hR.eval _ _) fun _ ↦
      hR.bind (hR.lift _) fun _ ↦ hR.forItems' _ _ _ hbody _
  | .returnWith _ value => by
    refine hR.bind (hR.count _) fun _ ↦ ?_
    cases value with
    | some value => exact hR.bind (hR.eval _ _) fun _ ↦ hR.pure _
    | none => exact hR.pure _
  | .throwWith _ _ => hR.bind (hR.count _) fun _ ↦ hR.bind (hR.eval _ _) fun _ ↦ hR.fail _
  | .breakLoop _ => hR.bind (hR.count _) fun _ ↦ hR.pure _
  | .continueLoop _ => hR.bind (hR.count _) fun _ ↦ hR.pure _
  | .empty _ => hR.bind (hR.count _) fun _ ↦ hR.pure _

/-- So does the execution of statements one after the other. -/
theorem execBlock (setting : Setting) : ∀ ss, Moves R (Run.execBlock setting ss)
  | [] => hR.pure _
  | s :: rest => by
    refine hR.bind (exec setting s) fun flow ↦ ?_
    cases flow with
    | normal => exact execBlock setting rest
    | breakLoop => exact hR.pure _
    | continueLoop => exact hR.pure _
    | returned v => exact hR.pure _

end

end Passage

/-! ### Parts that have a value -/

theorem checkLength_eq_ok {n : Nat} {u : Unit} (h : checkLength setting n m = .ok u m') :
    n ≤ setting.limits.maxElements ∧ m' = m := by
  rw [checkLength] at h
  split at h
  · cases h
  · cases h
    exact ⟨by omega, rfl⟩

theorem truth_eq_ok {construct : String} {v : Value} {b : Bool} (h : truth construct v = .ok b) :
    v = .bool b := by
  cases v <;> cases h
  rfl

theorem invoke_eq_ok {name : String} {args : Step (List Value)} {v : Value}
    (h : invoke setting name args m = .ok v m') :
    ∃ b vs m₁, Builtin.ofName? name = some b ∧ args m = .ok vs m₁ ∧ b.accepts vs.length = true ∧
      callBuiltin setting b vs m₁ = .ok v m' := by
  rw [invoke] at h
  rcases hname : Builtin.ofName? name with - | b
  · rw [hname] at h
    cases h
  · rw [hname] at h
    obtain ⟨vs, m₁, hargs, h⟩ := bind_eq_ok_iff.1 h
    split at h
    · exact ⟨b, vs, m₁, rfl, hargs, ‹_›, h⟩
    · cases h

theorem evalItems_cons_eq_ok {e : Expr} {rest : List Expr} {vs : List Value}
    (h : evalItems setting (e :: rest) m = .ok vs m') :
    ∃ v m₁ vs', eval setting e m = .ok v m₁ ∧ evalItems setting rest m₁ = .ok vs' m' ∧
      vs = v :: vs' := by
  obtain ⟨v, m₁, hv, h⟩ := bind_eq_ok_iff.1 h
  obtain ⟨vs', m₂, hvs, hpure⟩ := bind_eq_ok_iff.1 h
  cases hpure
  exact ⟨v, m₁, vs', hv, hvs, rfl⟩

theorem length_of_evalItems {es : List Expr} {vs : List Value}
    (h : evalItems setting es m = .ok vs m') : vs.length = es.length := by
  induction es generalizing m vs with
  | nil =>
    cases h
    rfl
  | cons e rest ih =>
    obtain ⟨v, m₁, vs', -, hvs, rfl⟩ := evalItems_cons_eq_ok h
    rw [List.length_cons, List.length_cons, ih hvs]

/-! ### Time and replies -/

/-- A later state of a run: no step is taken back, and no reply. -/
def Progress (m m' : Machine) : Prop :=
  m.steps ≤ m'.steps ∧ m.outbox.sent.toList <+: m'.outbox.sent.toList

/-- Sending a text leaves what was sent before. -/
theorem sent_prefix_emit (o : Outbox) (text : String) :
    o.sent.toList <+: (o.emit text).sent.toList := by
  rcases h : o.accepts with - | -
  · have heq : o.emit text = o := Outbox.emit_of_refuses h text
    exact heq.symm ▸ List.prefix_refl _
  · rw [Outbox.emit_of_accepts h, Array.toList_push]
    exact List.prefix_append _ _

/-- Everything that a run does leads to a later state. -/
theorem passage_progress : Passage Progress where
  refl _ := ⟨Nat.le_refl _, List.prefix_refl _⟩
  trans h₁ h₂ := ⟨Nat.le_trans h₁.1 h₂.1, h₁.2.trans h₂.2⟩
  tick _ := ⟨Nat.le_succ _, List.prefix_refl _⟩
  emit _ _ := ⟨Nat.le_refl _, sent_prefix_emit _ _⟩
  store _ _ _ := ⟨Nat.le_refl _, List.prefix_refl _⟩
  declare _ _ := ⟨Nat.le_refl _, List.prefix_refl _⟩
  block h := h

/-- An expression that has a value has cost a step of the budget. -/
theorem lt_steps_of_eval {e : Expr} {v : Value} (h : eval setting e m = .ok v m') :
    m.steps < setting.limits.maxSteps ∧ m.steps < m'.steps := by
  obtain ⟨rest, heq, hrest⟩ := passage_progress.counts_eval setting e
  rw [heq, bind_eq_ok_iff] at h
  obtain ⟨_, m₁, htick, h⟩ := h
  obtain ⟨hle, rfl⟩ := tick_eq_ok htick
  have hm := (hrest m.ticked).1
  rw [h, after_ok, Machine.ticked_steps] at hm
  exact ⟨hle, hm⟩

/-! ### Variables in expressions -/

/-- Keeping the variables as they are is a course. -/
theorem course_scopes : Course fun m m' ↦ m'.scopes = m.scopes where
  refl _ := rfl
  trans h₁ h₂ := h₂.trans h₁
  tick _ := rfl
  emit _ _ := rfl

/-- Expressions leave the variables alone, however their evaluation ends. -/
theorem scopes_eval (setting : Setting) (e : Expr) (m : Machine) :
    (after (eval setting e m)).scopes = m.scopes :=
  course_scopes.eval setting e m

end Snippet.Run
