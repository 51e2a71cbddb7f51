import Snippet.Proofs.HostIndependence
import Snippet.Proofs.TimeAndPlace

/-!
# Compound assignments

`target o= e` does what `target = target o (e)` does, but not in the same order. The compound
assignment evaluates the indices of its target, then the expression, and reads the target last. The
expansion evaluates the indices twice, the second time to read the target, and reads it before the
expression.

* An index without calls may be evaluated twice. It comes to the same value and sends nothing
  (`comesTo_of_callFree`), whereas a reply in an index would be sent twice.
* The target may be read early, because no expression changes a variable (`comesTo_eval`).
* The target as an expression reads what its path reads (`comesTo_along`).

The expansion takes more steps, so the two are compared by what they come to apart from time
(`exists_comesTo_assign`). Where neither is ended by its bounds they do the same
(`compound_assignment`).
-/

namespace Snippet

namespace Script

mutual

/-- Whether there is no call in an expression. -/
def Expr.callFree : Expr → Bool
  | .literal _ _ | .name _ _ => true
  | .list _ items => callFreeAll items
  | .map _ entries => callFreeEntries entries
  | .unary _ _ operand => operand.callFree
  | .binary _ _ lhs rhs => lhs.callFree && rhs.callFree
  | .ternary _ cond yes no => cond.callFree && yes.callFree && no.callFree
  | .call _ _ _ => false
  | .index _ target i => target.callFree && i.callFree
  | .member _ target _ => target.callFree

/-- Whether there is no call in any of some expressions. -/
def Expr.callFreeAll : List Expr → Bool
  | [] => true
  | e :: rest => e.callFree && callFreeAll rest

/-- Whether there is no call in the entries of a map. -/
def Expr.callFreeEntries : List (Expr × Expr) → Bool
  | [] => true
  | (k, v) :: rest => k.callFree && v.callFree && callFreeEntries rest

end

/-- Whether there is no call in a step of a path. -/
def Accessor.callFree : Accessor → Bool
  | .index e => e.callFree
  | .member _ => true

/-- The expression that reads what a path leads to from the value of another one. -/
def Expr.along (target : Expr) : List Accessor → Expr
  | [] => target
  | .index e :: rest => along (.index noSpan target e) rest
  | .member field :: rest => along (.member noSpan target field) rest

/-- The assignment `root path = root path o (e)`. -/
def Stmt.expanded (root : Ident) (path : List Accessor) (o : BinaryOp) (e : Expr) : Stmt :=
  .assign noSpan root path .set
    (.binary noSpan o ((Expr.name noSpan root.name).along path) e)

end Script

namespace Run

open Script (Accessor AssignOp BinaryOp Expr Ident Stmt)

variable {α β : Type} {setting : Setting} {m m' : Machine} {σ : Scene}

/-! ### Expressions without calls -/

@[simp]
theorem Log.behind_none (x : Step α) : Log.behind x (fun _ ↦ none) = none := by
  funext m
  rw [behind]
  cases x m <;> rfl

mutual

theorem calls_of_callFree (setting : Setting) :
    ∀ e : Expr, e.callFree = true → calls setting e = .none
  | .literal _ _, _ => rfl
  | .name _ _, _ => rfl
  | .list _ items, h => by
    simp only [calls, itemCalls_of_callFree setting items h, Log.behind_none]
  | .map _ entries, h => by
    simp only [calls, entryCalls_of_callFree setting entries [] h, Log.behind_none]
  | .unary _ _ operand, h => by
    simp only [calls, calls_of_callFree setting operand h, Log.behind_none]
  | .binary _ op lhs rhs, h => by
    obtain ⟨hlhs, hrhs⟩ := Bool.and_eq_true_iff.1 h
    have hl := calls_of_callFree setting lhs hlhs
    have hr := calls_of_callFree setting rhs hrhs
    cases op <;>
      simp only [calls, hl, hr, ite_self, Log.behind_none, Log.andThen_none]
  | .ternary _ cond yes no, h => by
    obtain ⟨h, hno⟩ := Bool.and_eq_true_iff.1 h
    obtain ⟨hcond, hyes⟩ := Bool.and_eq_true_iff.1 h
    simp only [calls, calls_of_callFree setting cond hcond, calls_of_callFree setting yes hyes,
      calls_of_callFree setting no hno, ite_self, Log.behind_none, Log.andThen_none]
  | .index _ target index, h => by
    obtain ⟨htarget, hindex⟩ := Bool.and_eq_true_iff.1 h
    simp only [calls, calls_of_callFree setting target htarget,
      calls_of_callFree setting index hindex, Log.behind_none, Log.andThen_none]
  | .member _ target _, h => by
    simp only [calls, calls_of_callFree setting target h, Log.behind_none]

theorem itemCalls_of_callFree (setting : Setting) :
    ∀ es, Expr.callFreeAll es = true → itemCalls setting es = .none
  | [], _ => rfl
  | e :: rest, h => by
    obtain ⟨he, hrest⟩ := Bool.and_eq_true_iff.1 h
    simp only [itemCalls, calls_of_callFree setting e he,
      itemCalls_of_callFree setting rest hrest, Log.andThen_none]

theorem entryCalls_of_callFree (setting : Setting) :
    ∀ es entries, Expr.callFreeEntries es = true → entryCalls setting entries es = .none
  | [], _, _ => rfl
  | (k, v) :: rest, _, h => by
    obtain ⟨h, hrest⟩ := Bool.and_eq_true_iff.1 h
    obtain ⟨hk, hv⟩ := Bool.and_eq_true_iff.1 h
    simp only [entryCalls, calls_of_callFree setting k hk, calls_of_callFree setting v hv,
      entryCalls_of_callFree setting rest _ hrest, Log.behind_none, Log.andThen_none]

end

/-- An expression that calls nothing changes nothing but the number of steps. -/
theorem scene_of_callFree {e : Expr} (h : e.callFree = true) :
    Moves (fun m m' ↦ m'.scene = m.scene) (eval setting e) := by
  intro m
  have hscopes := scopes_eval setting e m
  have habreast : Abreast _ _ setting _ := abreast_of_alike (c := setting.context) ⟨rfl, rfl⟩
  have hsends := (Parallel.eval (k := 0) habreast e (fun _ _ ↦ trivial) m m ⟨rfl, rfl⟩).sends
  rw [calls_of_callFree setting e h] at hsends
  have houtbox : (after (eval setting e m)).outbox = m.outbox := hsends
  rw [Machine.scene, Machine.scene, hscopes, houtbox]

/-- It comes to a value or to none, and leaves the scene as it is. -/
theorem comesTo_of_callFree (setting : Setting) {e : Expr} (h : e.callFree = true) (σ : Scene) :
    ComesTo (eval setting e) σ none ∨ ∃ v, ComesTo (eval setting e) σ (some (v, σ)) := by
  obtain hnone | ⟨v, _, hsome, rfl⟩ :=
    (Timeless.eval setting e).comesTo (R := fun σ σ' ↦ σ' = σ) (scene_of_callFree h) σ
  · exact .inl hnone
  · exact .inr ⟨v, hsome⟩

/-- Any other expression may send replies, but does not change variables. -/
theorem comesTo_eval (setting : Setting) (e : Expr) (σ : Scene) :
    ComesTo (eval setting e) σ none ∨
      ∃ v σ', ComesTo (eval setting e) σ (some (v, σ')) ∧ σ'.scopes = σ.scopes :=
  (Timeless.eval setting e).comesTo (R := fun σ σ' ↦ σ'.scopes = σ.scopes)
    (scopes_eval setting e) σ

/-! ### Reading along a path -/

/-- The value of a variable, or the fault of a name that has none. -/
def valueOf (name : String) (scopes : List (List Slot)) : Except Fault Value :=
  match findSlot? name scopes with
  | some slot => .ok slot.value
  | none => .error (.type (.unbound name))

theorem comesTo_lookup_value (name : String) {f : Value → Step β} {g : Value → Except Fault β}
    (hf : ∀ v, ComesTo (f v) σ (still σ (g v))) :
    ComesTo (do f (← lookup name).value) σ (still σ (valueOf name σ.scopes >>= g)) := by
  have hlookup := ComesTo.lookup name σ
  rw [valueOf]
  cases hslot : findSlot? name σ.scopes with
  | some slot =>
    rw [hslot] at hlookup
    exact hlookup.bind (hf slot.value)
  | none =>
    rw [hslot] at hlookup
    exact hlookup.bind_none

/-- A path without calls has keys, or halts. The expression that reads along it comes to what is
read by these keys. -/
theorem comesTo_along (setting : Setting) (σ : Scene) {path : List Accessor}
    (hpath : ∀ a ∈ path, a.callFree = true) :
    ComesTo (evalPath setting path) σ none ∨
      ∃ keys, ComesTo (evalPath setting path) σ (some (keys, σ)) ∧
        ∀ target r, ComesTo (eval setting target) σ (still σ r) →
          ComesTo (eval setting (target.along path)) σ (still σ (r >>= (readPath · keys))) := by
  induction path with
  | nil =>
    refine .inr ⟨[], .pure _ σ, fun target r h ↦ ?_⟩
    rwa [show r >>= (readPath · []) = r from bind_pure r]
  | cons a rest ih =>
    obtain ⟨ha, hrest⟩ := List.forall_mem_cons.1 hpath
    -- one more step in front of the rest: what it reads is the target of the rest
    have hcons {key : PathKey} {keys : List PathKey} (r : Except Fault Value) :
        (r >>= (readKey · key)) >>= (readPath · keys) = r >>= (readPath · (key :: keys)) :=
      bind_assoc r _ _
    cases a with
    | index e =>
      obtain he | ⟨v, he⟩ := comesTo_of_callFree setting (e := e) ha σ
      · exact .inl he.bind_none
      · obtain hkeys | ⟨keys, hkeys, halong⟩ := ih hrest
        · exact .inl (he.bind hkeys.bind_none)
        · refine .inr ⟨.index v :: keys, he.bind (hkeys.bind (.pure _ σ)), fun target r h ↦ ?_⟩
          rw [← hcons]
          refine halong (.index _ target e) _ ((ComesTo.tick setting σ).bind ?_)
          exact h.bind_still fun u ↦ he.bind (.lift _ σ)
    | member field =>
      obtain hkeys | ⟨keys, hkeys, halong⟩ := ih hrest
      · exact .inl hkeys.bind_none
      · refine .inr ⟨.member field.name :: keys, hkeys.bind (.pure _ σ), fun target r h ↦ ?_⟩
        rw [← hcons]
        refine halong (.member _ target field) _ ((ComesTo.tick setting σ).bind ?_)
        exact h.bind_still fun u ↦ .lift _ σ

/-! ### The value that is stored -/

variable {op : AssignOp} {o : BinaryOp} {root : String} {keys : List PathKey} {target e : Expr}

theorem assignedValue_of_binary? (hop : op.binary? = some o) (root : String)
    (keys : List PathKey) (v : Value) :
    assignedValue setting root keys op v = (do
      let current ← lift (readPath (← lookup root).value keys)
      lift (apply setting.limits.maxElements o current v)) := by
  rw [assignedValue, hop]

/-- The operators of compound assignments evaluate both of their sides. -/
theorem eval_binary_of_binary? (hop : op.binary? = some o) (span : Span) (lhs rhs : Expr) :
    eval setting (.binary span o lhs rhs) = (do
      tick setting
      let left ← eval setting lhs
      lift (apply setting.limits.maxElements o left (← eval setting rhs))) := by
  cases op <;> cases hop <;> rw [eval.eq_def]

/-- A compound assignment computes its value behind the expression on its right, from what the
variable holds then; the binary expression reads the target first. Both come to the same value. -/
theorem exists_comesTo_value (hop : op.binary? = some o) (span : Span)
    (htarget : ComesTo (eval setting target) σ
      (still σ (valueOf root σ.scopes >>= (readPath · keys)))) :
    ∃ out, ComesTo (do assignedValue setting root keys op (← eval setting e)) σ out ∧
      ComesTo (eval setting (.binary span o target e)) σ out := by
  rw [eval_binary_of_binary? hop]
  obtain he | ⟨v, σ', he, hscopes⟩ := comesTo_eval setting e σ
  · refine ⟨none, he.bind_none, (ComesTo.tick setting σ).bind ?_⟩
    exact htarget.bind_of_still (fun _ _ ↦ he.bind_none) fun _ _ ↦ rfl
  · refine ⟨still σ' (valueOf root σ.scopes >>= (readPath · keys) >>=
      (apply setting.limits.maxElements o · v)), he.bind ?_, (ComesTo.tick setting σ).bind ?_⟩
    · have hread (u : Value) : ComesTo (do
            lift (apply setting.limits.maxElements o (← lift (readPath u keys)) v)) σ'
          (still σ' (readPath u keys >>= (apply setting.limits.maxElements o · v))) :=
        (ComesTo.lift _ σ').bind_still fun _ ↦ .lift _ σ'
      rw [assignedValue_of_binary? hop, ← hscopes, bind_assoc]
      exact comesTo_lookup_value root hread
    · refine htarget.bind_of_still (fun current hread ↦ ?_) fun fault hread ↦ ?_
      · rw [hread]
        exact he.bind (.lift _ σ')
      · rw [hread]
        rfl

/-! ### Storing it -/

/-- Storing a value does not look at the steps. -/
theorem timeless_storeAt (setting : Setting) (root : String) (v : Value) (slot : Slot)
    (keys : List PathKey) : Timeless (storeAt setting root v slot keys) := by
  refine fun σ ↦ ⟨outcome (storeAt setting root v slot keys (σ.machine 0)), fun n ↦ .inr ?_⟩
  cases keys with
  | nil =>
    rw [storeAt.eq_def, storeAt.eq_def]
    dsimp only
    cases coerce slot.type v <;> rfl
  | cons key rest =>
    rw [storeAt.eq_def, storeAt.eq_def]
    dsimp only
    cases writePath setting.limits.maxElements v (key :: rest) slot.value with
    | error fault => rfl
    | ok updated =>
      dsimp only
      split
      · cases shaped setting.limits.maxElements updated <;> rfl
      · rfl

theorem exec_assign_eq (setting : Setting) (span : Span) (root : Ident) (path : List Accessor)
    (op : AssignOp) (e : Expr) :
    exec setting (.assign span root path op e) = (do
      tick setting
      let keys ← evalPath setting path
      let v ← (do assignedValue setting root.name keys op (← eval setting e))
      let slot ← lookup root.name
      storeAt setting root.name v slot keys
      return .normal) := by
  rw [exec, assign_eq, prepare]
  simp only [bind_assoc, pure_bind]

/-- An assignment that computes nothing stores what its expression comes to. -/
theorem eval_assignedValue_set (root : String) (keys : List PathKey) (e : Expr) :
    (do assignedValue setting root keys .set (← eval setting e)) = eval setting e :=
  bind_pure _

/-- A compound assignment and its expansion come to the same. -/
theorem exists_comesTo_assign (setting : Setting) (hop : op.binary? = some o) (span : Span)
    (root : Ident) {path : List Accessor} (hpath : ∀ a ∈ path, a.callFree = true) (e : Expr)
    (σ : Scene) :
    ∃ out, ComesTo (exec setting (.assign span root path op e)) σ out ∧
      ComesTo (exec setting (.expanded root path o e)) σ out := by
  rw [Stmt.expanded, exec_assign_eq, exec_assign_eq]
  have htick := ComesTo.tick setting σ
  obtain hkeys | ⟨keys, hkeys, halong⟩ := comesTo_along setting σ hpath
  · exact ⟨none, htick.bind hkeys.bind_none, htick.bind hkeys.bind_none⟩
  · have hname : ComesTo (eval setting (.name Script.noSpan root.name)) σ
        (still σ (valueOf root.name σ.scopes)) := by
      rw [← bind_pure (valueOf root.name σ.scopes)]
      exact htick.bind (comesTo_lookup_value root.name fun v ↦ .pure v σ)
    obtain ⟨out, hcompound, hexpanded⟩ :=
      exists_comesTo_value (e := e) hop Script.noSpan (halong _ _ hname)
    rw [← eval_assignedValue_set root.name keys] at hexpanded
    cases out with
    | none =>
      exact ⟨none, htick.bind (hkeys.bind hcompound.bind_none),
        htick.bind (hkeys.bind hexpanded.bind_none)⟩
    | some out =>
      obtain ⟨v, σ'⟩ := out
      have hstore (slot : Slot) : Timeless (do
          storeAt setting root.name v slot keys
          return Flow.normal) :=
        .bind (timeless_storeAt setting root.name v slot keys) fun _ ↦ .pure _
      obtain ⟨out, hout⟩ := (Timeless.lookup root.name).bind hstore σ'
      exact ⟨out, htick.bind (hkeys.bind (hcompound.bind hout)),
        htick.bind (hkeys.bind (hexpanded.bind hout))⟩

/-- **Compound assignments.** Take a compound assignment without calls in its indices, and its
expansion, at whatever places this stands. If neither of them is ended by its bounds, one completes
exactly if the other one does. Then they leave the same variables and have sent the same replies. -/
theorem compound_assignment {s : Stmt} {span : Span} {root : Ident} {path : List Accessor}
    (hop : op.binary? = some o) (hpath : ∀ a ∈ path, a.callFree = true)
    (hs : s.bare = (Stmt.expanded root path o e).bare)
    (htime : ¬ TimedOut (exec setting (.assign span root path op e) m))
    (htime' : ¬ TimedOut (exec setting s m)) :
    ((∃ flow m₁, exec setting (.assign span root path op e) m = .ok flow m₁) ↔
      ∃ flow m₂, exec setting s m = .ok flow m₂) ∧
    ∀ flow flow' m₁ m₂, exec setting (.assign span root path op e) m = .ok flow m₁ →
      exec setting s m = .ok flow' m₂ → m₂.scopes = m₁.scopes ∧ m₂.outbox = m₁.outbox := by
  have hexec : exec setting s = exec setting (.expanded root path o e) := by
    rw [← exec_bare, hs, exec_bare]
  obtain ⟨out, hcompound, hexpanded⟩ :=
    exists_comesTo_assign setting hop span root hpath e m.scene
  rw [← hexec] at hexpanded
  have hout := (hcompound m.steps).resolve_left htime
  have hout' := (hexpanded m.steps).resolve_left htime'
  exact same_of_outcome_eq (hout'.trans hout.symm)

/-- The script `xs[i].n += 3`. -/
def addingThree : Stmt :=
  .assign ⟨0, 13⟩ ⟨"xs", ⟨0, 2⟩⟩ [.index (.name ⟨3, 4⟩ "i"), .member ⟨"n", ⟨6, 7⟩⟩] .add
    (.literal ⟨11, 12⟩ (.int 3))

/-- The script `xs[i].n = xs[i].n + (3)`. -/
def addingThreeInFull : Stmt :=
  .assign ⟨0, 24⟩ ⟨"xs", ⟨0, 2⟩⟩ [.index (.name ⟨3, 4⟩ "i"), .member ⟨"n", ⟨6, 7⟩⟩] .set
    (.binary ⟨10, 23⟩ .add
      (.member ⟨10, 17⟩ (.index ⟨10, 15⟩ (.name ⟨10, 12⟩ "xs") (.name ⟨13, 14⟩ "i"))
        ⟨"n", ⟨16, 17⟩⟩)
      (.literal ⟨21, 22⟩ (.int 3)))

/-- A list of one map, and the index of it. -/
def oneCounter : Machine where
  steps := 0
  scopes := [[⟨"i", .int, .int 0⟩, ⟨"xs", .list, .list [.map [("n", .int 1)]]⟩]]
  outbox := .fresh true

/-- Both of these scripts count from one to four. -/
theorem compound_assignment_addingThree :
    ∃ m₁ m₂, exec (.untimed ⟨100, 1000, 10⟩) addingThree oneCounter = .ok .normal m₁ ∧
      exec (.untimed ⟨100, 1000, 10⟩) addingThreeInFull oneCounter = .ok .normal m₂ ∧
      (findSlot? "xs" m₁.scopes).map Slot.value = some (.list [.map [("n", .int 4)]]) ∧
      m₂.scopes = m₁.scopes ∧ m₂.outbox = m₁.outbox := by
  obtain ⟨m₁, h₁, hfour⟩ : ∃ m₁,
      exec (.untimed ⟨100, 1000, 10⟩) addingThree oneCounter = .ok .normal m₁ ∧
        (findSlot? "xs" m₁.scopes).map Slot.value = some (.list [.map [("n", .int 4)]]) :=
    ⟨_, rfl, rfl⟩
  obtain ⟨m₂, h₂⟩ : ∃ m₂, exec (.untimed ⟨100, 1000, 10⟩) addingThreeInFull oneCounter =
      .ok .normal m₂ := ⟨_, rfl⟩
  have htime {s : Stmt} {m' : Machine}
      (h : exec (.untimed ⟨100, 1000, 10⟩) s oneCounter = .ok .normal m') :
      ¬ TimedOut (exec (.untimed ⟨100, 1000, 10⟩) s oneCounter) := by
    rw [h]
    nofun
  obtain ⟨-, hsame⟩ :=
    compound_assignment (o := .add) rfl (by decide) rfl (htime h₁) (htime h₂)
  exact ⟨m₁, m₂, h₁, h₂, hfour, hsame _ _ _ _ h₁ h₂⟩

end Run

end Snippet
