import Snippet.Proofs.Calls
import Snippet.Proofs.Reports
import Snippet.Proofs.Scopes

/-!
# Runs side by side

Two runs of one script, from states that a relation keeps together. The contexts of the two may
differ as far as scripts cannot see it, and so may the values of some variables, as long as nothing
reads them. Then the runs do the same at every step: they end in the same way, in states that are
still together, and make the same calls.

* `Twins` says what the relation has to withstand.
* `Parallel.eval` is the induction on expressions, `Runs.parallel` the one on what a run executes.

Variables that may differ can be set, and such an assignment looks at their type. So the relation
keeps the types of all variables together, and the values of those only that may be read.
-/

namespace Snippet

/-- A script cannot tell these contexts from each other. -/
structure Context.Alike (c c' : Context) : Prop where
  invoker : c'.invoker = c.invoker
  accent : c'.accent = c.accent

namespace Run

open Script (Accessor AssignOp Builtin DeclType Expr Program Stmt)

variable {α β : Type} {setting : Setting} {m m' : Machine}

/-- A relation that keeps two states together, whatever a run does in both of them. It is indexed by
a number of blocks that is one more inside of a block. Variables may be read if their name is
`readable`. -/
structure Twins (readable : String → Prop) (R : Nat → Machine → Machine → Prop) : Prop where
  steps : ∀ {k m m'}, R k m m' → m'.steps = m.steps
  find : ∀ {k m m' name}, R k m m' → readable name →
    findSlot? name m'.scopes = findSlot? name m.scopes
  type : ∀ {k m m'} (name : String), R k m m' →
    (findSlot? name m'.scopes).map Slot.type = (findSlot? name m.scopes).map Slot.type
  tick : ∀ {k m m'}, R k m m' → R k m.ticked m'.ticked
  emit : ∀ {k m m'} (text : String), R k m m' →
    R k { m with outbox := m.outbox.emit text } { m' with outbox := m'.outbox.emit text }
  store : ∀ {k m m'} (name : String) (value : Value), R k m m' →
    R k (m.stored name value) (m'.stored name value)
  declare : ∀ {k m m'} (slot : Slot), R k m m' →
    R k { m with scopes := addSlot slot m.scopes } { m' with scopes := addSlot slot m'.scopes }
  enter : ∀ {k m m'}, R k m m' → R (k + 1) m.enter m'.enter
  leave : ∀ {k m m'}, R (k + 1) m m' → R k m.leave m'.leave

/-- Two computations ended in the same way, in states that `R` keeps together. -/
inductive Agree (R : Machine → Machine → Prop) : Ended α → Ended α → Prop
  | ok {a m m'} (h : R m m') : Agree R (.ok a m) (.ok a m')
  | error {halt m m'} (h : R m m') : Agree R (.error halt m) (.error halt m')

/-- Behind these calls the channel is the one that they lead to. -/
def Sends (limit : Nat) (made : List Call) (m m' : Machine) : Prop :=
  m'.outbox = m.outbox.emitAll (linesOf limit made)

/-- Two computations, from two states, end in the same way and make the same calls. -/
structure Together (limit : Nat) (R : Machine → Machine → Prop) (r r' : Ended α)
    (made made' : List Call) (m : Machine) : Prop where
  agree : Agree R r r'
  calls : made' = made
  sends : Sends limit made m (after r)

/-- From all states that `R` keeps together, two computations with their logs end in the same way
and make the same calls. -/
def Parallel (limit : Nat) (R : Machine → Machine → Prop) (x : Step α) (ℓ : Log)
    (x' : Step α) (ℓ' : Log) : Prop :=
  ∀ m m', R m m' → Together limit R (x m) (x' m') (ℓ m) (ℓ' m') m

/-- Two computations that call nothing. -/
abbrev Silent (limit : Nat) (R : Machine → Machine → Prop) (x x' : Step α) : Prop :=
  Parallel limit R x .none x' .none

namespace Parallel

variable {limit : Nat} {R : Machine → Machine → Prop} {x x' y y' : Step α} {ℓ ℓ' n n' : Log}
  {f f' : α → Step β} {g g' : α → Log}

theorem pure (a : α) : Silent limit R (pure a : Step α) (pure a) :=
  fun _ _ hm ↦ ⟨.ok hm, rfl, rfl⟩

theorem fail (fault : Fault) : Silent limit R (fail fault : Step α) (fail fault) :=
  fun _ _ hm ↦ ⟨.error hm, rfl, rfl⟩

theorem lift (result : Except Fault α) : Silent limit R (lift result) (lift result) := by
  cases result with
  | ok a => exact .pure a
  | error fault => exact .fail fault

theorem ite {p : Prop} [Decidable p] (hx : Parallel limit R x ℓ x' ℓ')
    (hy : Parallel limit R y n y' n') :
    Parallel limit R (if p then x else y) (if p then ℓ else n) (if p then x' else y')
      (if p then ℓ' else n') := by
  split
  · exact hx
  · exact hy

theorem choose {p : Prop} [Decidable p] (hx : Silent limit R x x') (hy : Silent limit R y y') :
    Silent limit R (if p then x else y) (if p then x' else y') := by
  split
  · exact hx
  · exact hy

/-- In a sequence the calls of the second part come behind those of the first. -/
theorem bind (hx : Parallel limit R x ℓ x' ℓ')
    (hf : ∀ a, Parallel limit R (f a) (g a) (f' a) (g' a)) :
    Parallel limit R (x >>= f) (ℓ.andThen x g) (x' >>= f') (ℓ'.andThen x' g') := by
  intro m m' hm
  obtain ⟨hagree, hcalls, hsends⟩ := hx m m' hm
  rw [bind_apply, bind_apply, Log.andThen, Log.andThen, Log.behind, Log.behind, hcalls]
  generalize x m = r, x' m' = r' at hagree hsends
  cases hagree with
  | ok hm₁ =>
    rename_i a m₁ m₁'
    obtain ⟨hagree', hcalls', hsends'⟩ := hf a m₁ m₁' hm₁
    refine ⟨hagree', congrArg _ hcalls', ?_⟩
    rw [Sends, linesOf_append, Outbox.emitAll_append, ← hsends]
    exact hsends'
  | error hm₁ =>
    rw [List.append_nil]
    exact ⟨.error hm₁, rfl, hsends⟩

/-- The calls of a sequence of which the first part calls nothing. -/
theorem behind (hx : Silent limit R x x')
    (hf : ∀ a, Parallel limit R (f a) (g a) (f' a) (g' a)) :
    Parallel limit R (x >>= f) (.behind x g) (x' >>= f') (.behind x' g') :=
  hx.bind hf

/-- The calls of a sequence of which the second part calls nothing. -/
theorem before (hx : Parallel limit R x ℓ x' ℓ') (hf : ∀ a, Silent limit R (f a) (f' a)) :
    Parallel limit R (x >>= f) ℓ (x' >>= f') ℓ' := by
  have h := hx.bind hf
  rwa [Log.andThen_none, Log.andThen_none] at h

end Parallel

/-- Setting a variable as a whole looks at its type only. -/
theorem assign_set (setting : Setting) (root : String) (value : Expr) :
    assign setting root [] .set value = (do
      let v ← eval setting value
      let slot ← lookup root
      store root (← lift (coerce slot.type v))) :=
  rfl

/-! ### Expressions -/

/-- Every name that is read may be read. -/
def Admitted (readable : String → Prop) (read : String → Bool) : Prop :=
  ∀ x, read x = true → readable x

namespace Admitted

variable {readable : String → Prop} {read read' : String → Bool}

theorem left (h : Admitted readable fun x ↦ read x || read' x) : Admitted readable read :=
  fun x hx ↦ h x (Bool.or_eq_true_iff.2 (.inl hx))

theorem right (h : Admitted readable fun x ↦ read x || read' x) : Admitted readable read' :=
  fun x hx ↦ h x (Bool.or_eq_true_iff.2 (.inr hx))

end Admitted

/-- What two runs side by side have in common: a relation that keeps their states together, and
contexts that a script cannot tell from each other. -/
structure Abreast (readable : String → Prop) (R : Nat → Machine → Machine → Prop)
    (setting setting' : Setting) : Prop where
  twins : Twins readable R
  limits : setting'.limits = setting.limits
  cancelled : setting'.cancelled = setting.cancelled
  late : setting'.late = setting.late
  context : setting.context.Alike setting'.context

section

variable {readable : String → Prop} {R : Nat → Machine → Machine → Prop} {setting' : Setting}
  {limit k : Nat}

namespace Parallel

theorem tick (h : Abreast readable R setting setting') :
    Silent limit (R k) (tick setting) (tick setting') := by
  intro m m' hm
  have hm' := h.twins.tick hm
  rw [tick_apply, tick_apply, h.limits, h.cancelled, h.late, h.twins.steps hm]
  split
  · exact ⟨.error hm', rfl, rfl⟩
  · split
    · exact ⟨.error hm', rfl, rfl⟩
    · exact ⟨.ok hm', rfl, rfl⟩

theorem checkLength (h : Abreast readable R setting setting') (length : Nat) :
    Silent limit (R k) (checkLength setting length) (checkLength setting' length) := by
  rw [Run.checkLength, Run.checkLength, h.limits]
  split
  · exact .fail _
  · exact .pure _

theorem lookup (h : Abreast readable R setting setting') {name : String} (hname : readable name) :
    Silent limit (R k) (lookup name) (lookup name) := by
  intro m m' hm
  rw [lookup_apply, lookup_apply, h.twins.find hm hname]
  cases findSlot? name m.scopes with
  | some slot => exact ⟨.ok hm, rfl, rfl⟩
  | none => exact ⟨.error hm, rfl, rfl⟩

/-- A call of another builtin than `emitReply` sends nothing. -/
theorem quiet {b : Builtin} (hb : b ≠ .emitReply) (args : List Value) {x x' : Step α}
    (hx : Silent limit (R k) x x') :
    Parallel limit (R k) x (fun _ ↦ [⟨b, args⟩]) x' (fun _ ↦ [⟨b, args⟩]) := by
  intro m m' hm
  obtain ⟨hagree, -, hsends⟩ := hx m m' hm
  have hline : Call.line? limit ⟨b, args⟩ = none := if_neg hb
  refine ⟨hagree, rfl, ?_⟩
  rw [Sends, linesOf, List.filterMap_cons_none hline]
  exact hsends

/-- A builtin sees of the context what the two contexts have in common, and nothing of the
channel. -/
theorem callBuiltin (h : Abreast readable R setting setting') (b : Builtin) (args : List Value) :
    Parallel setting.limits.maxElements (R k) (callBuiltin setting b args) (fun _ ↦ [⟨b, args⟩])
      (callBuiltin setting' b args) (fun _ ↦ [⟨b, args⟩]) := by
  cases b with
  | emitReply =>
    intro m m' hm
    rw [Run.callBuiltin, Run.callBuiltin, h.limits]
    exact ⟨.ok (h.twins.emit _ hm), rfl, rfl⟩
  | invokerIdentity =>
    refine quiet (by nofun) args ?_
    rw [Run.callBuiltin, Run.callBuiltin, h.context.invoker]
    exact .pure _
  | brandingAccent =>
    refine quiet (by nofun) args ?_
    rw [Run.callBuiltin, Run.callBuiltin, h.context.accent]
    refine .before (fun m m' hm ↦ ?_) fun color ↦ ?_
    · cases setting.context.accent with
      | ok color => exact ⟨.ok hm, rfl, rfl⟩
      | error text => exact ⟨.error hm, rfl, rfl⟩
    · cases color with
      | some c => exact .pure _
      | none => exact .pure _
  | _ =>
    refine quiet (by nofun) args ?_
    rw [callBuiltin_of_helper rfl, callBuiltin_of_helper rfl, h.limits]
    exact .lift _

theorem invoke (h : Abreast readable R setting setting') (name : String)
    {args args' : Step (List Value)} {ℓ ℓ' : Log}
    (hargs : Parallel setting.limits.maxElements (R k) args ℓ args' ℓ') :
    Parallel setting.limits.maxElements (R k) (invoke setting name args) (invokeCalls name ℓ args)
      (invoke setting' name args') (invokeCalls name ℓ' args') := by
  rw [Run.invoke, Run.invoke, invokeCalls, invokeCalls]
  cases Builtin.ofName? name with
  | none => exact .fail _
  | some b =>
    refine hargs.bind fun vs ↦ ?_
    cases b.accepts vs.length with
    | true => exact callBuiltin h b vs
    | false => exact .fail _

mutual

/-- Expressions do the same side by side, if they read only what may be read. -/
theorem eval (h : Abreast readable R setting setting') : ∀ e : Expr,
    Admitted readable (e.mentions ·) →
    Parallel setting.limits.maxElements (R k) (eval setting e) (calls setting e)
      (eval setting' e) (calls setting' e)
  | .literal _ _, _ => .before (tick h) fun _ ↦ .pure _
  | .name _ name, he =>
    .before (tick h) fun _ ↦ .before (lookup h (he name (beq_self_eq_true _))) fun _ ↦ .pure _
  | .list _ items, he => by
    have hitems := evalItems h items he
    rw [Run.eval, Run.eval, Run.calls, Run.calls, h.limits]
    exact .behind (tick h) fun _ ↦ .behind (checkLength h _) fun _ ↦ .before hitems fun _ ↦ .lift _
  | .map _ entries, he => by
    have hentries := evalEntries h entries [] he
    rw [Run.eval, Run.eval, Run.calls, Run.calls, h.limits]
    exact .behind (tick h) fun _ ↦ .behind (checkLength h _) fun _ ↦ .before hentries fun _ ↦
      .lift _
  | .unary _ _ operand, he =>
    .behind (tick h) fun _ ↦ .before (eval h operand he) fun _ ↦ .lift _
  | .binary _ op lhs rhs, he => by
    have hlhs := eval h lhs he.left
    have hrhs := eval h rhs he.right
    rw [Run.eval.eq_def, Run.eval.eq_def, Run.calls.eq_def, Run.calls.eq_def]
    refine .behind (tick h) fun _ ↦ hlhs.bind fun left ↦ ?_
    cases op with
    | and =>
      refine .behind (.lift _) fun _ ↦ .ite ?_ (.pure _)
      exact .before hrhs fun _ ↦ .before (.lift _) fun _ ↦ .pure _
    | or =>
      refine .behind (.lift _) fun _ ↦ .ite (.pure _) ?_
      exact .before hrhs fun _ ↦ .before (.lift _) fun _ ↦ .pure _
    | _ =>
      rw [h.limits]
      exact .before hrhs fun _ ↦ .lift _
  | .ternary _ cond yes no, he => by
    have hcond := eval h cond he.left.left
    have hyes := eval h yes he.left.right
    have hno := eval h no he.right
    exact .behind (tick h) fun _ ↦ hcond.bind fun _ ↦ .behind (.lift _) fun _ ↦ .ite hyes hno
  | .call _ callee args, he => by
    have hargs := evalItems h args he.left
    rw [Run.eval.eq_def, Run.eval.eq_def, Run.calls.eq_def, Run.calls.eq_def]
    refine .behind (tick h) fun _ ↦ ?_
    cases callee with
    | name _ name => exact invoke h name hargs
    | member _ target field =>
      have htarget := eval h target he.right
      exact htarget.bind fun _ ↦ invoke h field.name (.before hargs fun _ ↦ .pure _)
    | _ => exact .fail _
  | .index _ target index, he => by
    have htarget := eval h target he.left
    have hindex := eval h index he.right
    exact .behind (tick h) fun _ ↦ htarget.bind fun _ ↦ .before hindex fun _ ↦ .lift _
  | .member _ target _, he => .behind (tick h) fun _ ↦ .before (eval h target he) fun _ ↦ .lift _

/-- So do expressions one after the other. -/
theorem evalItems (h : Abreast readable R setting setting') : ∀ es : List Expr,
    Admitted readable (Script.anyMentions · es) →
    Parallel setting.limits.maxElements (R k) (evalItems setting es) (itemCalls setting es)
      (evalItems setting' es) (itemCalls setting' es)
  | [], _ => .pure _
  | e :: rest, hes =>
    .bind (eval h e hes.left) fun _ ↦ .before (evalItems h rest hes.right) fun _ ↦ .pure _

/-- And the entries of a map. -/
theorem evalEntries (h : Abreast readable R setting setting') :
    ∀ (es : List (Expr × Expr)) (entries : List (String × Value)),
    Admitted readable (Script.entriesMention · es) →
    Parallel setting.limits.maxElements (R k) (evalEntries setting entries es)
      (entryCalls setting entries es) (evalEntries setting' entries es)
      (entryCalls setting' entries es)
  | [], _, _ => .pure _
  | (k, v) :: rest, _, hes => by
    have hk := eval h k hes.left.left
    have hv := eval h v hes.left.right
    exact hk.bind fun _ ↦ .behind (.lift _) fun _ ↦ hv.bind fun _ ↦
      evalEntries h rest _ hes.right

end

theorem evalPath (h : Abreast readable R setting setting') : ∀ path : List Accessor,
    Admitted readable (Script.pathMentions · path) →
    Parallel setting.limits.maxElements (R k) (evalPath setting path) (pathCalls setting path)
      (evalPath setting' path) (pathCalls setting' path)
  | [], _ => .pure _
  | .index e :: rest, hpath =>
    .bind (eval h e hpath.left) fun _ ↦ .before (evalPath h rest hpath.right) fun _ ↦ .pure _
  | .member _ :: rest, hpath => .before (evalPath h rest hpath) fun _ ↦ .pure _

/-! ### Statements -/

theorem declare (h : Abreast readable R setting setting') (name : String) (type : DeclType)
    (value : Value) :
    Silent setting.limits.maxElements (R k) (declare name type value)
      (declare name type value) := by
  intro m m' hm
  rw [declare_apply, declare_apply]
  cases coerce type value with
  | ok v => exact ⟨.ok (h.twins.declare ⟨name, type, v⟩ hm), rfl, rfl⟩
  | error fault => exact ⟨.error hm, rfl, rfl⟩

theorem store (h : Abreast readable R setting setting') (name : String) (value : Value) :
    Silent limit (R k) (store name value) (store name value) :=
  fun _ _ hm ↦ ⟨.ok (h.twins.store name value hm), rfl, rfl⟩

/-- A variable that is only set is looked up for its type. -/
theorem overwrite (h : Abreast readable R setting setting') (name : String) (value : Value) :
    Silent limit (R k)
      (do
        let slot ← Run.lookup name
        Run.store name (← Run.lift (coerce slot.type value)))
      (do
        let slot ← Run.lookup name
        Run.store name (← Run.lift (coerce slot.type value))) := by
  intro m m' hm
  have htype := h.twins.type name hm
  rw [bind_apply, bind_apply, lookup_apply, lookup_apply]
  rcases hslot : findSlot? name m.scopes with - | slot
  · rw [hslot, Option.map_none, Option.map_eq_none_iff] at htype
    rw [htype]
    exact ⟨.error hm, rfl, rfl⟩
  · rw [hslot, Option.map_some, Option.map_eq_some_iff] at htype
    obtain ⟨slot', hslot', heq⟩ := htype
    rw [hslot']
    dsimp only
    rw [heq]
    exact Parallel.before (.lift _) (fun _ ↦ store h name _) m m' hm

theorem assignedValue (h : Abreast readable R setting setting') {root : String}
    (hroot : readable root) (keys : List PathKey) (op : AssignOp) (value : Value) :
    Silent limit (R k) (assignedValue setting root keys op value)
      (assignedValue setting' root keys op value) := by
  rw [Run.assignedValue, Run.assignedValue, h.limits]
  split
  · exact .pure _
  · exact .before (lookup h hroot) fun _ ↦ .before (.lift _) fun _ ↦ .lift _

/-- An assignment reads its variable unless it only sets it. -/
theorem assign (h : Abreast readable R setting setting') (root : Script.Ident)
    (path : List Accessor) (op : AssignOp) (value : Expr)
    (hread : Admitted readable (Script.assignmentMentions · root path op value)) :
    Parallel setting.limits.maxElements (R k) (assign setting root.name path op value)
      ((pathCalls setting path).andThen (Run.evalPath setting path) fun _ ↦ calls setting value)
      (assign setting' root.name path op value)
      ((pathCalls setting' path).andThen (Run.evalPath setting' path) fun _ ↦
        calls setting' value) := by
  have hvalue := eval h (k := k) value hread.left.left
  by_cases hop : op = .set ∧ path.isEmpty
  · obtain ⟨rfl, hpath⟩ := hop
    obtain rfl := List.isEmpty_iff.1 hpath
    rw [assign_set, assign_set]
    exact .before hvalue fun v ↦ overwrite h root.name v
  · have hroot : readable root.name := hread.right root.name (by
      rw [AssignOp.overwrites, decide_eq_false hop]
      exact beq_self_eq_true _)
    refine .bind (evalPath h path hread.left.right) fun keys ↦ .before hvalue fun v ↦ ?_
    refine .before (assignedValue h hroot keys op v) fun w ↦ .before (lookup h hroot) fun slot ↦ ?_
    rw [h.limits]
    split
    · exact .before (.lift _) fun _ ↦ store h _ _
    · refine .before (.lift _) fun updated ↦ .before (store h _ _) fun _ ↦ ?_
      split
      · exact .before (.lift _) fun _ ↦ .pure _
      · exact .pure _

/-- What a statement does itself. -/
theorem begin (h : Abreast readable R setting setting') {s : Stmt}
    (hs : Admitted readable (s.mentions ·)) :
    Parallel setting.limits.maxElements (R k) (begin setting s) (ownCalls setting s)
      (begin setting' s) (ownCalls setting' s) := by
  have hdone {x x' : Step Flow} {ℓ ℓ' : Log}
      (hx : Parallel setting.limits.maxElements (R k) x ℓ x' ℓ') :
      Parallel setting.limits.maxElements (R k) (do return .done (← x) : Step Task) ℓ
        (do return .done (← x')) ℓ' :=
    .before hx fun _ ↦ .pure _
  cases s with
  | declare _ type name init =>
    refine hdone ?_
    cases init with
    | none =>
      exact .before (tick h) fun _ ↦ .before (.pure _) fun _ ↦ .before (declare h _ _ _) fun _ ↦
        .pure _
    | some init =>
      exact .behind (tick h) fun _ ↦ .before (eval h init hs) fun _ ↦
        .before (declare h _ _ _) fun _ ↦ .pure _
  | assign _ root path op value =>
    exact hdone (.behind (tick h) fun _ ↦ .before (assign h root path op value hs) fun _ ↦ .pure _)
  | expression _ value =>
    exact hdone (.behind (tick h) fun _ ↦ .before (eval h value hs) fun _ ↦ .pure _)
  | block _ body => exact .before (tick h) fun _ ↦ .pure _
  | ifElse _ cond yes no =>
    have hcond : Admitted readable (cond.mentions ·) := by
      cases no with
      | none => exact hs.left
      | some no => exact hs.left.left
    rw [Run.begin.eq_def, Run.begin.eq_def]
    refine .behind (tick h) fun _ ↦ .before (eval h cond hcond) fun _ ↦
      .before (.lift _) fun _ ↦ .choose (.pure _) ?_
    cases no with
    | none => exact .pure _
    | some no => exact .pure _
  | whileLoop _ cond body => exact .before (tick h) fun _ ↦ .pure _
  | forEach _ type binding items body =>
    rw [Run.begin, Run.begin, h.limits]
    exact .behind (tick h) fun _ ↦ .before (eval h items hs.left) fun _ ↦
      .before (.lift _) fun _ ↦ .pure _
  | returnWith _ value =>
    refine hdone ?_
    cases value with
    | none => exact .before (tick h) fun _ ↦ .pure _
    | some value => exact .behind (tick h) fun _ ↦ .before (eval h value hs) fun _ ↦ .pure _
  | throwWith _ value =>
    refine hdone ?_
    rw [Run.exec, Run.exec, h.limits]
    exact .behind (tick h) fun _ ↦ .before (eval h value hs) fun _ ↦ .fail _
  | breakLoop _ => exact hdone (.before (tick h) fun _ ↦ .pure _)
  | continueLoop _ => exact hdone (.before (tick h) fun _ ↦ .pure _)
  | empty _ => exact hdone (.before (tick h) fun _ ↦ .pure _)

end Parallel

/-- Whether a name is read in a task. -/
def Task.mentions (x : String) : Task → Bool
  | .stmt s => s.mentions x
  | .list _ rest => Script.stmtsMention x rest
  | .inner t => t.mentions x
  | .bound _ _ _ body => body.mentions x
  | .loop (.whileTrue cond body) => cond.mentions x || body.mentions x
  | .loop (.forEach _ _ _ body) => body.mentions x
  | .done _ => false

/-- What leads to the next round of a loop. -/
theorem Parallel.next (h : Abreast readable R setting setting') {l : Loop}
    (hl : Admitted readable ((Task.loop l).mentions ·)) :
    Parallel setting.limits.maxElements (R k) (l.next setting) (l.calls setting)
      (l.next setting') (l.calls setting') := by
  cases l with
  | whileTrue cond body =>
    refine .before (.before (eval h cond hl.left) fun _ ↦ .lift _) fun _ ↦ ?_
    exact .choose (.pure _) (.pure _)
  | forEach name type items body =>
    cases items with
    | nil => exact .pure _
    | cons item rest => exact .before (tick h) fun _ ↦ .pure _

/-- A task that a statement leaves reads nothing that the statement does not read. -/
theorem Begun.admitted {s : Stmt} {t : Task} (h : Begun setting m m' s t)
    (hs : Admitted readable (s.mentions ·)) : Admitted readable (t.mentions ·) := by
  cases h with
  | done => exact fun _ ↦ nofun
  | block => exact hs
  | yes =>
    rename_i no
    cases no with
    | none => exact hs.right
    | some no => exact hs.left.right
  | no => exact hs.right
  | whileLoop => exact hs
  | forEach _ _ => exact hs.right

/-- Nor does a round of a loop, or the loop behind it. -/
theorem Loop.admitted_next {l l' : Loop} {t : Task}
    (hl : Admitted readable ((Task.loop l).mentions ·))
    (h : l.next setting m = .ok (some (t, l')) m') :
    Admitted readable (t.mentions ·) ∧ Admitted readable ((Task.loop l').mentions ·) := by
  cases round_of_next h with
  | whileTrue => exact ⟨hl.right, hl⟩
  | forEach => exact ⟨hl, hl⟩

/-! ### Runs -/

theorem callsIn_cons (setting : Setting) (e : Execution) (trace : List Execution) :
    callsIn setting (e :: trace) = e.task.calls setting e.start ++ callsIn setting trace :=
  List.flatMap_cons

theorem callsIn_append (setting : Setting) (trace trace' : List Execution) :
    callsIn setting (trace ++ trace') = callsIn setting trace ++ callsIn setting trace' :=
  List.flatMap_append

@[simp]
theorem callsIn_singleton (setting : Setting) (e : Execution) :
    callsIn setting [e] = e.task.calls setting e.start :=
  (callsIn_cons setting e []).trans (List.append_nil _)

namespace Together

variable {R₁ R₂ : Machine → Machine → Prop} {made made' made₁ made₁' : List Call} {m₁ : Machine}

theorem of_ok {a : α} {r' : Ended α} (h : Together limit R₁ (.ok a m₁) r' made made' m) :
    ∃ m₁', r' = .ok a m₁' ∧ R₁ m₁ m₁' := by
  obtain ⟨hagree, -, -⟩ := h
  cases hagree with
  | ok hm => exact ⟨_, rfl, hm⟩

theorem of_error {halt : Halt} {r' : Ended α}
    (h : Together limit R₁ (.error halt m₁) r' made made' m) :
    ∃ m₁', r' = .error halt m₁' ∧
      Together limit R₁ (.error halt m₁ : Ended β) (.error halt m₁') made made' m := by
  obtain ⟨hagree, hcalls, hsends⟩ := h
  cases hagree with
  | error hm => exact ⟨_, rfl, .error hm, hcalls, hsends⟩

/-- What follows a first part that has a value. -/
theorem append {a : α} {r' : Ended α} {r₁ r₁' : Ended β}
    (h : Together limit R₁ (.ok a m₁) r' made made' m)
    (h' : Together limit R₂ r₁ r₁' made₁ made₁' m₁) :
    Together limit R₂ r₁ r₁' (made ++ made₁) (made' ++ made₁') m where
  agree := h'.agree
  calls := by rw [h.calls, h'.calls]
  sends := by
    rw [Sends, linesOf_append, Outbox.emitAll_append, ← h.sends]
    exact h'.sends

/-- The blocks of two tasks are left together. -/
theorem leaving (h : Abreast readable R setting setting') {r r' : Ended Flow}
    (hr : Together limit (R (k + 1)) r r' made made' m.enter) :
    Together limit (R k) (leaving r) (leaving r') made made' m where
  agree := by
    cases hr.agree with
    | ok hm => exact .ok (h.twins.leave hm)
    | error hm => exact .error (h.twins.leave hm)
  calls := hr.calls
  sends := by
    rw [Sends, after_leaving]
    exact hr.sends

end Together

/-- A first part that has a value has it on both sides. -/
theorem Parallel.of_ok {x x' : Step α} {ℓ ℓ' : Log} {a : α} {m₁ : Machine}
    (hx : Parallel limit (R k) x ℓ x' ℓ') (hm : R k m m') (heq : x m = .ok a m₁) :
    ∃ m₁', x' m' = .ok a m₁' ∧ R k m₁ m₁' ∧
      Together limit (R k) (.ok a m₁) (x' m') (ℓ m) (ℓ' m') m := by
  have h := hx m m' hm
  rw [heq] at h
  obtain ⟨m₁', heq', hm₁⟩ := h.of_ok
  exact ⟨m₁', heq', hm₁, h⟩

theorem Parallel.of_error {x x' : Step α} {ℓ ℓ' : Log} {halt : Halt} {m₁ : Machine}
    (hx : Parallel limit (R k) x ℓ x' ℓ') (hm : R k m m') (heq : x m = .error halt m₁) :
    ∃ m₁', x' m' = .error halt m₁' ∧
      Together limit (R k) (.error halt m₁ : Ended β) (.error halt m₁') (ℓ m) (ℓ' m') m := by
  have h := hx m m' hm
  rw [heq] at h
  exact h.of_error

/-- What an execution shows of itself: its task, and the steps counted before and behind it. -/
def Execution.stamp (e : Execution) : Task × Nat × Nat :=
  (e.task, e.start.steps, (after e.result).steps)

/-- The stamps of two runs agree if those behind the first ones do. -/
theorem stamps_cons (h : Abreast readable R setting setting') {t : Task} {r r' : Ended Flow}
    {trace trace' : List Execution} (hm : R k m m') (hr : Agree (R k) r r')
    (htrace : trace'.map Execution.stamp = trace.map Execution.stamp) :
    (⟨t, m', r'⟩ :: trace').map Execution.stamp = (⟨t, m, r⟩ :: trace).map Execution.stamp := by
  have hbehind : (after r').steps = (after r).steps := by
    cases hr with
    | ok hm₁ => exact h.twins.steps hm₁
    | error hm₁ => exact h.twins.steps hm₁
  rw [List.map_cons, List.map_cons, Execution.stamp, Execution.stamp, h.twins.steps hm, hbehind,
    htrace]

/-- **Two runs side by side** do the same: what one executes, the other executes too, in the same
way and with the same calls. -/
theorem Runs.parallel (h : Abreast readable R setting setting') {t : Task}
    {trace : List Execution} {r : Ended Flow} (hrun : Runs setting t m trace r)
    (ht : Admitted readable (t.mentions ·)) (hm : R k m m') :
    ∃ trace' r', Runs setting' t m' trace' r' ∧
      trace'.map Execution.stamp = trace.map Execution.stamp ∧
      Together setting.limits.maxElements (R k) r r' (callsIn setting trace)
        (callsIn setting' trace') m := by
  induction hrun generalizing k m' with
  | done => exact ⟨_, _, .done, stamps_cons h hm (.ok hm) rfl, .ok hm, rfl, rfl⟩
  | stmt hbegin _ ih =>
    obtain ⟨m₁', hbegin', hm₁, hown⟩ := (Parallel.begin h ht).of_ok hm hbegin
    obtain ⟨trace', r', hrun', hstamps, hrest⟩ := ih ((begun_of_begin hbegin).admitted ht) hm₁
    exact ⟨_, r', .stmt hbegin' hrun', stamps_cons h hm hrest.agree hstamps, hown.append hrest⟩
  | stmtHalts hbegin =>
    obtain ⟨m₁', hbegin', hown⟩ := (Parallel.begin h ht).of_error hm hbegin
    refine ⟨_, _, .stmtHalts hbegin', stamps_cons h hm hown.agree rfl, ?_⟩
    rw [callsIn_singleton, callsIn_singleton]
    exact hown
  | inner _ ih =>
    obtain ⟨trace', r', hrun', hstamps, hrest⟩ := ih ht (h.twins.enter hm)
    have hleft := hrest.leaving h
    exact ⟨_, _, .inner hrun', stamps_cons h hm hleft.agree hstamps, hleft⟩
  | bound hdeclare _ ih =>
    obtain ⟨m₁', hdeclare', hm₁, hown⟩ := (Parallel.declare h _ _ _).of_ok hm hdeclare
    obtain ⟨trace', r', hrun', hstamps, hrest⟩ := ih ht hm₁
    exact ⟨_, r', .bound hdeclare' hrun', stamps_cons h hm hrest.agree hstamps, hown.append hrest⟩
  | boundHalts hdeclare =>
    obtain ⟨m₁', hdeclare', hown⟩ := (Parallel.declare h _ _ _).of_error hm hdeclare
    exact ⟨_, _, .boundHalts hdeclare', stamps_cons h hm hown.agree rfl, hown⟩
  | listEnds => exact ⟨_, _, .listEnds, stamps_cons h hm (.ok hm) rfl, .ok hm, rfl, rfl⟩
  | listNext _ hflow _ ih ih' =>
    obtain ⟨trace₁, r₁, hrun₁, hstamps₁, hfirst⟩ := ih ht.left hm
    obtain ⟨m₁', rfl, hm₁⟩ := hfirst.of_ok
    obtain ⟨trace', r', hrun', hstamps, hrest⟩ := ih' ht.right hm₁
    refine ⟨_, r', .listNext hrun₁ hflow hrun', stamps_cons h hm hrest.agree ?_, ?_⟩
    · rw [List.map_append, List.map_append, hstamps₁, hstamps]
    · rw [callsIn_cons, callsIn_cons, callsIn_append, callsIn_append]
      exact hfirst.append hrest
  | listLeft _ hflow ih =>
    obtain ⟨trace₁, r₁, hrun₁, hstamps, hfirst⟩ := ih ht.left hm
    obtain ⟨m₁', rfl, hm₁⟩ := hfirst.of_ok
    exact ⟨_, _, .listLeft hrun₁ hflow, stamps_cons h hm hfirst.agree hstamps, hfirst⟩
  | listHalts _ ih =>
    obtain ⟨trace₁, r₁, hrun₁, hstamps, hfirst⟩ := ih ht.left hm
    obtain ⟨m₁', rfl, hfirst⟩ := hfirst.of_error
    exact ⟨_, _, .listHalts hrun₁, stamps_cons h hm hfirst.agree hstamps, hfirst⟩
  | loopEnds hnext =>
    obtain ⟨m₁', hnext', hm₁, hown⟩ := (Parallel.next h ht).of_ok hm hnext
    refine ⟨_, _, .loopEnds hnext', stamps_cons h hm (.ok hm₁) rfl, .ok hm₁, ?_, ?_⟩
    · rw [callsIn_singleton, callsIn_singleton]
      exact hown.calls
    · rw [callsIn_singleton]
      exact hown.sends
  | loopHalts hnext =>
    obtain ⟨m₁', hnext', hown⟩ := (Parallel.next h ht).of_error hm hnext
    refine ⟨_, _, .loopHalts hnext', stamps_cons h hm hown.agree rfl, ?_⟩
    rw [callsIn_singleton, callsIn_singleton]
    exact hown
  | loopNext hnext _ hflow _ ih ih' =>
    obtain ⟨hround, hloop⟩ := Loop.admitted_next ht hnext
    obtain ⟨m₁', hnext', hm₁, hown⟩ := (Parallel.next h ht).of_ok hm hnext
    obtain ⟨trace₁, r₁, hrun₁, hstamps₁, hfirst⟩ := ih hround hm₁
    obtain ⟨m₂', rfl, hm₂⟩ := hfirst.of_ok
    obtain ⟨trace', r', hrun', hstamps, hrest⟩ := ih' hloop hm₂
    refine ⟨_, r', .loopNext hnext' hrun₁ hflow hrun', stamps_cons h hm hrest.agree ?_, ?_⟩
    · rw [List.map_append, List.map_append, hstamps₁, hstamps]
    · rw [callsIn_cons, callsIn_cons, callsIn_append, callsIn_append]
      exact hown.append (hfirst.append hrest)
  | loopLeft hnext _ hflow ih =>
    obtain ⟨m₁', hnext', hm₁, hown⟩ := (Parallel.next h ht).of_ok hm hnext
    obtain ⟨trace₁, r₁, hrun₁, hstamps, hfirst⟩ := ih (Loop.admitted_next ht hnext).1 hm₁
    obtain ⟨m₂', rfl, hm₂⟩ := hfirst.of_ok
    exact ⟨_, _, .loopLeft hnext' hrun₁ hflow, stamps_cons h hm (.ok hm₂) hstamps,
      hown.append ⟨.ok hm₂, hfirst.calls, hfirst.sends⟩⟩
  | loopBroken hnext _ ih =>
    obtain ⟨m₁', hnext', hm₁, hown⟩ := (Parallel.next h ht).of_ok hm hnext
    obtain ⟨trace₁, r₁, hrun₁, hstamps, hfirst⟩ := ih (Loop.admitted_next ht hnext).1 hm₁
    obtain ⟨m₂', rfl, hfirst⟩ := hfirst.of_error
    have hboth := hown.append hfirst
    exact ⟨_, _, .loopBroken hnext' hrun₁, stamps_cons h hm hboth.agree hstamps, hboth⟩

theorem Agree.refl {R : Machine → Machine → Prop} (hR : ∀ m, R m m) (r : Ended α) :
    Agree R r r := by
  cases r with
  | ok a m => exact .ok (hR m)
  | error halt m => exact .error (hR m)

/-- A list of statements ends in the same way side by side. -/
theorem Agree.execList (h : Abreast readable R setting setting') (top : Bool) {ss : List Stmt}
    (hss : Admitted readable (Script.stmtsMention · ss)) (hm : R k m m') :
    Agree (R k) (execList setting top ss m) (Run.execList setting' top ss m') := by
  obtain ⟨trace, r, hrun⟩ := Ends.list top (Ends.of_stmts setting ss) m
  obtain ⟨trace', r', hrun', -, htogether⟩ := hrun.parallel h hss hm
  have heq : r = Run.execList setting top ss m := hrun.result_eq
  have heq' : r' = Run.execList setting' top ss m' := hrun'.result_eq
  rw [← heq, ← heq']
  exact htogether.agree

/-! ### The end of a script -/

/-- The expression behind the statements does the same side by side. -/
theorem Parallel.atEnd (h : Abreast readable R setting setting') {tail : Option Expr}
    (htail : ∀ e, tail = some e → Admitted readable (e.mentions ·)) (flow : Flow) :
    Parallel setting.limits.maxElements (R k) (atEnd setting tail flow)
      (fun m ↦ tailCalls setting tail (.ok flow m)) (Run.atEnd setting' tail flow)
      (fun m ↦ tailCalls setting' tail (.ok flow m)) := by
  have hbehind : Parallel setting.limits.maxElements (R k) (Run.atEnd setting tail .normal)
      (fun m ↦ tailCalls setting tail (.ok .normal m)) (Run.atEnd setting' tail .normal)
      (fun m ↦ tailCalls setting' tail (.ok .normal m)) := by
    cases tail with
    | none => exact .pure Value.null
    | some e => exact .eval h e (htail e rfl)
  cases flow with
  | returned v => exact .pure v
  | normal => exact hbehind
  | breakLoop => exact hbehind
  | continueLoop => exact hbehind

/-- Two scripts end in the same way. -/
structure EndAlike (R : Machine → Machine → Prop) (ending ending' : Ending) : Prop where
  result : ending'.result = ending.result
  machine : R ending.machine ending'.machine

theorem Agree.ending {R : Machine → Machine → Prop} {r r' : Ended Value} (h : Agree R r r') :
    EndAlike R (ending r) (Run.ending r') := by
  cases h with
  | ok hm => exact ⟨rfl, hm⟩
  | error hm => exact ⟨rfl, hm⟩

/-- Scripts whose statements end in the same way end in the same way. -/
theorem Agree.conclude (h : Abreast readable R setting setting') {tail : Option Expr}
    (htail : ∀ e, tail = some e → Admitted readable (e.mentions ·)) {r r' : Ended Flow}
    (hr : Agree (R k) r r') :
    EndAlike (R k) (conclude setting tail r) (Run.conclude setting' tail r') := by
  cases hr with
  | error hm => exact ⟨rfl, hm⟩
  | ok hm =>
    rw [conclude_ok, conclude_ok]
    exact (Parallel.atEnd h htail _ _ _ hm).agree.ending

/-- And where these make the same calls, the whole scripts do. -/
theorem Together.conclude (h : Abreast readable R setting setting') {tail : Option Expr}
    (htail : ∀ e, tail = some e → Admitted readable (e.mentions ·)) {r r' : Ended Flow}
    {made made' : List Call}
    (hr : Together setting.limits.maxElements (R k) r r' made made' m) :
    EndAlike (R k) (conclude setting tail r) (Run.conclude setting' tail r') ∧
      made' ++ tailCalls setting' tail r' = made ++ tailCalls setting tail r ∧
      Sends setting.limits.maxElements (made ++ tailCalls setting tail r) m
        (Run.conclude setting tail r).machine := by
  refine ⟨hr.agree.conclude h htail, ?_⟩
  obtain ⟨hagree, hcalls, hsends⟩ := hr
  cases hagree with
  | error hm =>
    rw [tailCalls, tailCalls, List.append_nil, List.append_nil]
    exact ⟨hcalls, hsends⟩
  | ok hm =>
    rename_i flow m₁ m₁'
    have hend := Parallel.atEnd h htail flow m₁ m₁' hm
    have hall : Together setting.limits.maxElements (R k) _ _ _ _ m :=
      Together.append ⟨.ok hm, hcalls, hsends⟩ hend
    refine ⟨hall.calls, ?_⟩
    rw [conclude_ok, machine_ending]
    exact hall.sends

end

end Run

end Snippet
