import Snippet.Proofs.Computation
import Snippet.Proofs.Places

/-!
# Apart from time and place

Two things go along with a run that the script cannot see: the places in its tree, and the number
of steps that have been counted.

* Nothing looks at places. A tree is executed like the same tree without them (`exec_bare`).
* The bounds of a run look at the steps, and may end it. A computation that is not ended so comes
  to the same from all states that differ in their steps only. `ComesTo` says what it comes to, and
  `timeless_eval` that every expression comes to something.

So two computations that take different numbers of steps can be compared by what they come to. Where
one of them is ended by its bounds there is nothing to compare, and `ComesTo` says nothing.
-/

namespace Snippet

open Script

/-! ### Places -/

namespace Script.Expr

theorem length_bareAll (es : List Expr) : (bareAll es).length = es.length := by
  induction es with
  | nil => rfl
  | cons e rest ih => rw [bareAll, List.length_cons, List.length_cons, ih]

theorem length_bareEntries (es : List (Expr × Expr)) :
    (bareEntries es).length = es.length := by
  induction es with
  | nil => rfl
  | cons e rest ih => rw [bareEntries, List.length_cons, List.length_cons, ih]

end Script.Expr

namespace Run

variable {α β : Type} {setting : Setting} {m m' : Machine}

mutual

theorem eval_bare (setting : Setting) : ∀ e : Expr, eval setting e.bare = eval setting e
  | .literal _ _ => rfl
  | .name _ _ => rfl
  | .list _ items => by
    rw [Expr.bare, eval, eval, Expr.length_bareAll, evalItems_bareAll setting items]
  | .map _ entries => by
    rw [Expr.bare, eval, eval, Expr.length_bareEntries, evalEntries_bareEntries setting entries]
  | .unary _ _ operand => by rw [Expr.bare, eval, eval, eval_bare setting operand]
  | .binary _ op lhs rhs => by
    rw [Expr.bare, eval.eq_def, eval.eq_def]
    dsimp only
    rw [eval_bare setting lhs, eval_bare setting rhs]
  | .ternary _ cond yes no => by
    rw [Expr.bare, eval, eval, eval_bare setting cond, eval_bare setting yes,
      eval_bare setting no]
  | .call _ callee args => by
    have hargs := evalItems_bareAll setting args
    cases callee with
    | name _ _ => rw [Expr.bare, Expr.bare, eval, eval, hargs]
    | member _ target field =>
      rw [Expr.bare, Expr.bare, eval, eval, hargs, eval_bare setting target]
      rfl
    | _ => rfl
  | .index _ target index => by
    rw [Expr.bare, eval, eval, eval_bare setting target, eval_bare setting index]
  | .member _ target _ => by
    rw [Expr.bare, eval, eval, eval_bare setting target]
    rfl

theorem evalItems_bareAll (setting : Setting) :
    ∀ es, evalItems setting (Expr.bareAll es) = evalItems setting es
  | [] => rfl
  | e :: rest => by
    rw [Expr.bareAll, evalItems, evalItems, eval_bare setting e, evalItems_bareAll setting rest]

theorem evalEntries_bareEntries (setting : Setting) :
    ∀ es entries, evalEntries setting entries (Expr.bareEntries es) =
      evalEntries setting entries es
  | [], _ => rfl
  | (k, v) :: rest, entries => by
    rw [Expr.bareEntries, evalEntries, evalEntries, eval_bare setting k, eval_bare setting v]
    simp only [evalEntries_bareEntries setting rest]

end

theorem evalPath_map_bare (setting : Setting) (path : List Accessor) :
    evalPath setting (path.map Accessor.bare) = evalPath setting path := by
  induction path with
  | nil => rfl
  | cons a rest ih =>
    cases a with
    | index e => rw [List.map_cons, Accessor.bare, evalPath, evalPath, eval_bare, ih]
    | member field =>
      rw [List.map_cons, Accessor.bare, evalPath, evalPath, ih]
      rfl

mutual

/-- **Places do not matter.** A statement without its places is executed as it is with them. -/
theorem exec_bare (setting : Setting) : ∀ s : Stmt, exec setting s.bare = exec setting s
  | .declare _ _ _ none => rfl
  | .declare _ type name (some init) => by
    rw [Stmt.bare, Option.map_some, exec, exec]
    dsimp only
    rw [eval_bare]
    rfl
  | .assign _ root path op value => by
    rw [Stmt.bare, exec, exec, assign, assign, evalPath_map_bare, eval_bare]
    rfl
  | .expression _ value => by rw [Stmt.bare, exec, exec, eval_bare]
  | .block _ body => by rw [Stmt.bare, exec, exec, execBlock_bareAll setting body]
  | .ifElse _ cond yes none => by
    rw [Stmt.bare, Stmt.bareOption, exec, exec, eval_bare, exec_bare setting yes]
  | .ifElse _ cond yes (some no) => by
    rw [Stmt.bare, Stmt.bareOption, exec, exec, eval_bare, exec_bare setting yes,
      exec_bare setting no]
  | .whileLoop _ cond body => by rw [Stmt.bare, exec, exec, eval_bare, exec_bare setting body]
  | .forEach _ type binding items body => by
    rw [Stmt.bare, exec, exec, eval_bare, exec_bare setting body]
    rfl
  | .returnWith _ none => rfl
  | .returnWith _ (some value) => by
    rw [Stmt.bare, Option.map_some, exec, exec, eval_bare]
  | .throwWith _ value => by rw [Stmt.bare, exec, exec, eval_bare]
  | .breakLoop _ => rfl
  | .continueLoop _ => rfl
  | .empty _ => rfl

/-- So are statements one after the other. -/
theorem execBlock_bareAll (setting : Setting) :
    ∀ ss, execBlock setting (Stmt.bareAll ss) = execBlock setting ss
  | [] => rfl
  | s :: rest => by
    rw [Stmt.bareAll, execBlock, execBlock, exec_bare setting s, execBlock_bareAll setting rest]

end

/-! ### Time -/

/-- What a state holds besides the number of its steps. -/
structure Scene where
  scopes : List (List Slot)
  outbox : Outbox

/-- The state with this scene and a number of steps. -/
def Scene.machine (σ : Scene) (steps : Nat) : Machine :=
  ⟨steps, σ.scopes, σ.outbox⟩

/-- The scene of a state. -/
def Machine.scene (m : Machine) : Scene :=
  ⟨m.scopes, m.outbox⟩

/-- What a computation ended with, if it has a value, and the scene that it left. -/
def outcome : Ended α → Option (α × Scene)
  | .ok a m => some (a, m.scene)
  | .error _ _ => none

/-- Of two computations with one outcome both have a value or none, and they leave the same
variables and have sent the same replies. -/
theorem same_of_outcome_eq {r r' : Ended α} (h : outcome r' = outcome r) :
    ((∃ a m, r = .ok a m) ↔ ∃ a m, r' = .ok a m) ∧
      ∀ a a' m m', r = .ok a m → r' = .ok a' m' →
        m'.scopes = m.scopes ∧ m'.outbox = m.outbox := by
  constructor
  · cases r <;> cases r' <;> simp [outcome] at h ⊢
  · rintro a a' m m' rfl rfl
    obtain ⟨-, hscene⟩ := Prod.mk.inj (Option.some.inj h)
    exact Scene.mk.inj hscene

/-- A computation ended because its steps or its time were used up. -/
inductive TimedOut : Ended α → Prop
  | stepBudget {n m} : TimedOut (.error (.fault (.stepBudget n)) m)
  | timeLimit {n m} : TimedOut (.error (.fault (.timeLimit n)) m)

/-- What is timed out in its first part is timed out. -/
theorem TimedOut.bind {x : Step α} (h : TimedOut (x m)) (f : α → Step β) :
    TimedOut ((x >>= f) m) := by
  generalize hr : x m = r at h
  cases h <;> rw [bind_of_error hr]
  · exact .stepBudget
  · exact .timeLimit

/-- Whatever the number of steps, `x` has this outcome from the scene `σ`, if it is not timed
out. -/
def ComesTo (x : Step α) (σ : Scene) (o : Option (α × Scene)) : Prop :=
  ∀ n, TimedOut (x (σ.machine n)) ∨ outcome (x (σ.machine n)) = o

/-- The outcome of a computation does not depend on the steps. -/
def Timeless (x : Step α) : Prop :=
  ∀ σ, ∃ o, ComesTo x σ o

/-- The outcome of a result that leaves the scene as it is. -/
def still (σ : Scene) (result : Except Fault α) : Option (α × Scene) :=
  result.toOption.map (·, σ)

namespace ComesTo

variable {x : Step α} {f : α → Step β} {σ σ' : Scene} {o : Option (β × Scene)}

theorem pure (a : α) (σ : Scene) : ComesTo (pure a) σ (some (a, σ)) :=
  fun _ ↦ .inr rfl

theorem fail (fault : Fault) (σ : Scene) : ComesTo (fail fault : Step α) σ none :=
  fun _ ↦ .inr rfl

theorem lift (result : Except Fault α) (σ : Scene) : ComesTo (lift result) σ (still σ result) := by
  cases result with
  | ok a => exact .pure a σ
  | error fault => exact .fail fault σ

theorem lookup (name : String) (σ : Scene) :
    ComesTo (lookup name) σ ((findSlot? name σ.scopes).map (·, σ)) := by
  intro n
  have hscopes : (σ.machine n).scopes = σ.scopes := rfl
  rw [lookup_apply, hscopes]
  cases findSlot? name σ.scopes <;> exact .inr rfl

/-- A step that is not the last one leaves the scene as it is. -/
theorem tick (setting : Setting) (σ : Scene) : ComesTo (tick setting) σ (some ((), σ)) := by
  intro n
  rw [tick_apply]
  split
  · exact .inl .stepBudget
  · split
    · exact .inl .timeLimit
    · exact .inr rfl

theorem bind {a : α} (hx : ComesTo x σ (some (a, σ'))) (hf : ComesTo (f a) σ' o) :
    ComesTo (x >>= f) σ o := by
  intro n
  obtain htime | hok := hx n
  · exact .inl (htime.bind f)
  · rcases hr : x (σ.machine n) with ⟨a', m⟩ | ⟨halt, m⟩
    · rw [hr] at hok
      cases hok
      rw [bind_of_ok hr]
      exact hf m.steps
    · rw [hr] at hok
      cases hok

/-- Behind a computation that halts nothing happens. -/
theorem bind_none (hx : ComesTo x σ none) : ComesTo (x >>= f) σ none := by
  intro n
  obtain htime | hhalt := hx n
  · exact .inl (htime.bind f)
  · rcases hr : x (σ.machine n) with ⟨a, m⟩ | ⟨halt, m⟩
    · rw [hr] at hhalt
      cases hhalt
    · rw [bind_of_error hr]
      exact .inr rfl

/-- A sequence of which the first part leaves the scene as it is. -/
theorem bind_of_still {r : Except Fault α} (hx : ComesTo x σ (still σ r))
    (hok : ∀ a, r = .ok a → ComesTo (f a) σ o) (herror : ∀ fault, r = .error fault → o = none) :
    ComesTo (x >>= f) σ o := by
  cases r with
  | ok a => exact hx.bind (hok a rfl)
  | error fault =>
    rw [herror fault rfl]
    exact hx.bind_none

/-- A sequence of which both parts do. -/
theorem bind_still {r : Except Fault α} {g : α → Except Fault β}
    (hx : ComesTo x σ (still σ r)) (hf : ∀ a, ComesTo (f a) σ (still σ (g a))) :
    ComesTo (x >>= f) σ (still σ (r >>= g)) := by
  refine hx.bind_of_still ?_ ?_
  · rintro a rfl
    exact hf a
  · rintro fault rfl
    rfl

end ComesTo

namespace Timeless

theorem pure (a : α) : Timeless (pure a : Step α) :=
  fun σ ↦ ⟨_, .pure a σ⟩

theorem lift (result : Except Fault α) : Timeless (lift result) :=
  fun σ ↦ ⟨_, .lift result σ⟩

theorem lookup (name : String) : Timeless (lookup name) :=
  fun σ ↦ ⟨_, .lookup name σ⟩

theorem tick (setting : Setting) : Timeless (tick setting) :=
  fun σ ↦ ⟨_, .tick setting σ⟩

theorem bind {x : Step α} {f : α → Step β} (hx : Timeless x) (hf : ∀ a, Timeless (f a)) :
    Timeless (x >>= f) := by
  intro σ
  obtain ⟨_ | ⟨a, σ'⟩, h⟩ := hx σ
  · exact ⟨none, h.bind_none⟩
  · obtain ⟨o, ho⟩ := hf a σ'
    exact ⟨o, h.bind ho⟩

/-- A timeless computation comes to a value or to none. What it does to the scene of every state,
it does to this one. -/
theorem comesTo {x : Step α} (hx : Timeless x) {R : Scene → Scene → Prop}
    (hR : Moves (fun m m' ↦ R m.scene m'.scene) x) (σ : Scene) :
    ComesTo x σ none ∨ ∃ a σ', ComesTo x σ (some (a, σ')) ∧ R σ σ' := by
  obtain ⟨_ | ⟨a, σ'⟩, h⟩ := hx σ
  · exact .inl h
  · by_cases htime : ∀ n, TimedOut (x (σ.machine n))
    · exact .inl fun n ↦ .inl (htime n)
    · obtain ⟨n, hn⟩ := Classical.not_forall.1 htime
      have hok := (h n).resolve_left hn
      have hkeeps := hR (σ.machine n)
      rcases hr : x (σ.machine n) with ⟨a', m⟩ | ⟨halt, m⟩
      · rw [hr] at hok hkeeps
        cases hok
        exact .inr ⟨a, _, h, hkeeps⟩
      · rw [hr] at hok
        cases hok

/-! ### Expressions -/

theorem callBuiltin (setting : Setting) (b : Builtin) (args : List Value) :
    Timeless (callBuiltin setting b args) := by
  cases b with
  | emitReply =>
    let text := replyText setting.limits.maxElements args
    exact fun σ ↦ ⟨some (.null, { σ with outbox := σ.outbox.emit text }), fun _ ↦ .inr rfl⟩
  | brandingAccent =>
    refine bind (fun σ ↦ ?_) fun color ↦ ?_
    · cases setting.context.accent with
      | ok color => exact ⟨_, .pure color σ⟩
      | error text => exact ⟨none, fun _ ↦ .inr rfl⟩
    · cases color <;> exact pure _
  | invokerIdentity => exact pure _
  | _ =>
    rw [callBuiltin_of_helper rfl]
    exact lift _

theorem compositional (setting : Setting) :
    Compositional (fun _ : Unit ↦ setting) setting.limits.maxElements
      fun x ↦ Timeless (x ()) where
  limits _ := rfl
  lift _ := lift _
  lookup := lookup
  tick := tick setting
  callBuiltin _ := callBuiltin setting _ _
  bind := bind

/-- Every expression comes to something. -/
theorem eval (setting : Setting) (e : Expr) : Timeless (eval setting e) :=
  (compositional setting).eval e

end Timeless

end Run

end Snippet
