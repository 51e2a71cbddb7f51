import Snippet.Proofs.Faults
import Snippet.Proofs.Scopes
import Snippet.Proofs.WellScoped

/-!
# Evaluation where names are known

What a well-scoped expression or statement does where the names that are known are those of
variables (`Covers`): it halts in no way that the checks could have prevented, and the names are
still those of variables behind it (`Steady`).

* `passage_names`: names are only ever added to the innermost block. No statement takes one away.
* `Steady.eval`: well-scoped expressions are steady.
* `Steady.begin`: so is what a well-scoped statement does itself.

The known names are one list, so nothing is said about the blocks in which they were declared. The
checks and the run need not agree on blocks: a `foreach` has two of them in the checks and one in
the run.
-/

namespace Snippet.Run

open Script (Accessor AssignOp Builtin DeclType Expr Stmt)

variable {α β : Type} {setting : Setting} {m m' : Machine} {known : List String} {inLoop : Bool}
  {scopes : List (List Slot)} {name : String}

/-! ### Names -/

/-- Names are only ever added, and those of a block go when it ends. -/
theorem passage_names : Passage (Grows Slot.name) :=
  passage_grows fun _ _ ↦ rfl

/-- A block is open, and every known name is that of a variable. -/
structure Covers (known : List String) (scopes : List (List Slot)) : Prop where
  ne_nil : scopes ≠ []
  mem : ∀ name ∈ known, name ∈ (shown Slot.name scopes).flatten

namespace Covers

theorem start (outbox : Outbox) : Covers [] (Machine.start outbox).scopes where
  ne_nil := List.cons_ne_nil _ _
  mem _ := nofun

theorem enter (h : Covers known scopes) : Covers known ([] :: scopes) where
  ne_nil := List.cons_ne_nil _ _
  mem := h.mem

theorem grows (h : Covers known m.scopes) (hm : Grows Slot.name m m') :
    Covers known m'.scopes := by
  obtain ⟨added, heq⟩ := hm
  rcases hscopes : m.scopes with - | ⟨scope, rest⟩
  · exact absurd hscopes h.ne_nil
  · have hmem := h.mem
    rw [hscopes] at heq hmem
    refine ⟨fun hnil ↦ ?_, fun name hname ↦ ?_⟩
    · rw [hnil] at heq
      cases heq
    · rw [heq]
      show name ∈ (added ++ _) ++ _
      rw [List.append_assoc]
      exact List.mem_append_right _ (hmem name hname)

theorem addSlot (h : Covers known scopes) (slot : Slot) :
    Covers (slot.name :: known) (addSlot slot scopes) := by
  cases scopes with
  | nil => exact absurd rfl h.ne_nil
  | cons scope rest =>
    refine ⟨List.cons_ne_nil _ _, fun name hname ↦ ?_⟩
    obtain rfl | hname := List.mem_cons.1 hname
    · exact List.mem_append_left _ (.head _)
    · exact List.mem_cons_of_mem _ (h.mem name hname)

theorem exists_slot (h : Covers known scopes) (hname : name ∈ known) :
    ∃ slot, findSlot? name scopes = some slot := by
  obtain ⟨_, hnames, hmem⟩ := List.mem_flatten.1 (h.mem name hname)
  obtain ⟨scope, hscope, rfl⟩ := List.mem_map.1 hnames
  obtain ⟨slot, hslot, rfl⟩ := List.mem_map.1 hmem
  rw [← Option.isSome_iff_exists, findSlot?, List.findSome?_isSome_iff]
  refine ⟨scope, hscope, ?_⟩
  rw [List.find?_isSome]
  exact ⟨slot, hslot, beq_self_eq_true _⟩

end Covers

/-! ### Expressions -/

/-- The checks could not have prevented that a run ended so. -/
def Halt.Unpreventable : Halt → Prop
  | fault f => f.isPreventable = false
  | breakdown _ => True

/-- If this halts, the checks could not have prevented it. -/
def Safe (r : Ended α) : Prop :=
  ∀ halt m, r = .error halt m → halt.Unpreventable

/-- Where the known names are those of variables, this is safe and leaves them so. -/
def Steady (known : List String) (x : Step α) : Prop :=
  ∀ m, Covers known m.scopes → Safe (x m) ∧ Covers known (after (x m)).scopes

namespace Steady

theorem pure (a : α) : Steady known (pure a : Step α) :=
  fun _ hm ↦ ⟨nofun, hm⟩

theorem fail {fault : Fault} (h : fault.isPreventable = false) :
    Steady known (fail fault : Step α) := by
  refine fun m hm ↦ ⟨fun _ _ heq ↦ ?_, hm⟩
  cases heq
  exact h

theorem lift {result : Except Fault α} (h : Operational result) :
    Steady known (lift result) := by
  cases result with
  | ok a => exact .pure a
  | error fault => exact .fail (Fault.unpreventable_of_operational (h fault rfl))

theorem tick (setting : Setting) : Steady known (tick setting) := by
  intro m hm
  rw [after_tick, tick_apply]
  refine ⟨?_, hm⟩
  split
  · rintro _ _ ⟨⟩
    rfl
  · split
    · rintro _ _ ⟨⟩
      rfl
    · nofun

theorem lookup (h : name ∈ known) : Steady known (lookup name) := by
  intro m hm
  obtain ⟨slot, hslot⟩ := hm.exists_slot h
  rw [lookup_apply, hslot]
  exact ⟨nofun, hm⟩

theorem store (name : String) (value : Value) : Steady known (store name value) :=
  fun m hm ↦ ⟨nofun, hm.grows (passage_names.store m name value)⟩

theorem bind {x : Step α} {f : α → Step β} (hx : Steady known x)
    (hf : ∀ a m m', x m = .ok a m' → Steady known (f a)) : Steady known (x >>= f) := by
  intro m hm
  obtain ⟨hsafe, hm'⟩ := hx m hm
  rw [bind_apply]
  rcases hxm : x m with ⟨a, m'⟩ | ⟨halt, m'⟩
  · rw [hxm] at hm'
    exact hf a m m' hxm m' hm'
  · rw [hxm] at hsafe hm'
    refine ⟨fun _ _ heq ↦ ?_, hm'⟩
    cases heq
    exact hsafe halt m' rfl

theorem covers {x : Step α} {a : α} (h : Steady known x) (hm : Covers known m.scopes)
    (hx : x m = .ok a m') : Covers known m'.scopes := by
  have hm' := (h m hm).2
  rw [hx] at hm'
  exact hm'

theorem ite {p : Prop} [Decidable p] {x y : Step α} (hx : Steady known x)
    (hy : Steady known y) : Steady known (if p then x else y) := by
  split
  · exact hx
  · exact hy

theorem checkLength (setting : Setting) (length : Nat) :
    Steady known (checkLength setting length) :=
  .ite (.fail rfl) (.pure ())

theorem callBuiltin {b : Builtin} {args : List Value} (h : b.accepts args.length = true) :
    Steady known (callBuiltin setting b args) := by
  have hhelper : Operational (helperValue setting.limits.maxElements b args) :=
    operational_helperValue h
  cases b with
  | emitReply => exact .bind (fun m hm ↦ ⟨nofun, hm⟩) fun _ _ _ _ ↦ .pure _
  | invokerIdentity => exact .pure _
  | brandingAccent =>
    refine .bind (fun m hm ↦ ?_) fun color _ _ _ ↦ ?_
    · rw [after_ask]
      refine ⟨?_, hm⟩
      cases setting.context.accent with
      | ok _ => exact nofun
      | error _ =>
        rintro _ _ ⟨⟩
        trivial
    · cases color <;> exact .pure _
  | _ =>
    rw [callBuiltin_of_helper rfl]
    exact .lift hhelper

theorem invoke {b : Builtin} (hname : Builtin.ofName? name = some b) {args : Step (List Value)}
    (hargs : Steady known args)
    (haccepts : ∀ m vs m', args m = .ok vs m' → b.accepts vs.length = true) :
    Steady known (invoke setting name args) := by
  rw [Run.invoke, hname]
  refine hargs.bind fun vs m m' hvs ↦ ?_
  rw [if_pos (haccepts m vs m' hvs)]
  exact .callBuiltin (haccepts m vs m' hvs)

theorem evalItems {es : List Expr} (h : ∀ e ∈ es, Steady known (eval setting e)) :
    Steady known (evalItems setting es) := by
  induction es with
  | nil => exact .pure []
  | cons e rest ih =>
    obtain ⟨he, hrest⟩ := List.forall_mem_cons.1 h
    exact he.bind fun _ _ _ _ ↦ (ih hrest).bind fun _ _ _ _ ↦ .pure _

theorem evalEntries {es : List (Expr × Expr)}
    (hkeys : ∀ entry ∈ es, Steady known (eval setting entry.1))
    (hvalues : ∀ entry ∈ es, Steady known (eval setting entry.2))
    (entries : List (String × Value)) : Steady known (evalEntries setting entries es) := by
  induction es generalizing entries with
  | nil => exact .pure entries
  | cons entry rest ih =>
    obtain ⟨hkey, hkeys⟩ := List.forall_mem_cons.1 hkeys
    obtain ⟨hvalue, hvalues⟩ := List.forall_mem_cons.1 hvalues
    exact hkey.bind fun _ _ _ _ ↦ .bind (.lift (operational_literalKey _)) fun _ _ _ _ ↦
      hvalue.bind fun _ _ _ _ ↦ ih hkeys hvalues _

/-- Well-scoped expressions are safe. -/
theorem eval {e : Expr} (h : e.WellScoped known) : Steady known (eval setting e) := by
  induction h with
  | literal => exact .bind (.tick _) fun _ _ _ _ ↦ .pure _
  | name h => exact .bind (.tick _) fun _ _ _ _ ↦ .bind (.lookup h) fun _ _ _ _ ↦ .pure _
  | list _ ih =>
    exact .bind (.tick _) fun _ _ _ _ ↦ .bind (.checkLength _ _) fun _ _ _ _ ↦
      .bind (.evalItems ih) fun _ _ _ _ ↦ .lift (operational_shaped _)
  | map _ _ ihkeys ihvalues =>
    exact .bind (.tick _) fun _ _ _ _ ↦ .bind (.checkLength _ _) fun _ _ _ _ ↦
      .bind (.evalEntries ihkeys ihvalues _) fun _ _ _ _ ↦ .lift (operational_shaped _)
  | unary _ ih =>
    exact .bind (.tick _) fun _ _ _ _ ↦ ih.bind fun _ _ _ _ ↦ .lift (operational_applyUnary _ _)
  | binary _ _ ihlhs ihrhs =>
    have htruth (construct : String) {v : Value} : Steady known (Run.lift (truth construct v)) :=
      .lift (operational_truth construct v)
    refine .bind (.tick _) fun _ _ _ _ ↦ ihlhs.bind fun _ _ _ _ ↦ ?_
    split
    · refine (htruth _).bind fun _ _ _ _ ↦ .ite ?_ (.pure _)
      exact ihrhs.bind fun _ _ _ _ ↦ (htruth _).bind fun _ _ _ _ ↦ .pure _
    · refine (htruth _).bind fun _ _ _ _ ↦ .ite (.pure _) ?_
      exact ihrhs.bind fun _ _ _ _ ↦ (htruth _).bind fun _ _ _ _ ↦ .pure _
    · exact ihrhs.bind fun _ _ _ _ ↦ .lift (operational_apply _ _ _)
  | ternary _ _ _ ihcond ihyes ihno =>
    exact .bind (.tick _) fun _ _ _ _ ↦ ihcond.bind fun _ _ _ _ ↦
      .bind (.lift (operational_truth _ _)) fun _ _ _ _ ↦ .ite ihyes ihno
  | call hname haccepts _ ih =>
    refine .bind (.tick _) fun _ _ _ _ ↦ .invoke hname (.evalItems ih) fun m vs m' hvs ↦ ?_
    rw [length_of_evalItems hvs]
    exact haccepts
  | method hname haccepts _ _ ihtarget ih =>
    refine .bind (.tick _) fun _ _ _ _ ↦ ihtarget.bind fun receiver _ _ _ ↦ .invoke hname
      (.bind (.evalItems ih) fun _ _ _ _ ↦ .pure _) fun m vs m' hvs ↦ ?_
    obtain ⟨vs', m₁, hvs', hpure⟩ := bind_eq_ok_iff.1 hvs
    cases hpure
    rw [List.length_cons, length_of_evalItems hvs']
    exact haccepts
  | index _ _ ihtarget ihindex =>
    exact .bind (.tick _) fun _ _ _ _ ↦ ihtarget.bind fun _ _ _ _ ↦ ihindex.bind fun _ _ _ _ ↦
      .lift (operational_readIndex _ _)
  | member _ ih =>
    exact .bind (.tick _) fun _ _ _ _ ↦ ih.bind fun _ _ _ _ ↦ .lift (operational_readMember _ _)

/-! ### Statements -/

theorem evalPath {path : List Accessor} (h : ∀ e, .index e ∈ path → e.WellScoped known) :
    Steady known (evalPath setting path) := by
  induction path with
  | nil => exact .pure []
  | cons accessor rest ih =>
    have hrest := ih fun e he ↦ h e (.tail _ he)
    cases accessor with
    | member field => exact hrest.bind fun _ _ _ _ ↦ .pure _
    | index e =>
      exact (eval (h e (.head _))).bind fun _ _ _ _ ↦ hrest.bind fun _ _ _ _ ↦ .pure _

theorem assignedValue {root : String} (hroot : root ∈ known) (keys : List PathKey)
    (op : AssignOp) (value : Value) :
    Steady known (assignedValue setting root keys op value) := by
  rw [Run.assignedValue]
  split
  · exact .pure value
  · exact .bind (.lookup hroot) fun _ _ _ _ ↦ .bind (.lift (operational_readPath _ _))
      fun _ _ _ _ ↦ .lift (operational_apply _ _ _)

theorem assign {root : String} {path : List Accessor} {value : Expr} (hroot : root ∈ known)
    (hpath : ∀ e, .index e ∈ path → e.WellScoped known) (hvalue : value.WellScoped known)
    (op : AssignOp) : Steady known (assign setting root path op value) := by
  refine (evalPath hpath).bind fun keys _ _ _ ↦ (eval hvalue).bind fun v _ _ _ ↦
    (assignedValue hroot keys op v).bind fun w _ _ _ ↦ (lookup hroot).bind fun slot _ _ _ ↦ ?_
  split
  · exact .bind (.lift (operational_coerce _ _)) fun _ _ _ _ ↦ .store _ _
  · refine .bind (.lift (operational_writePath _ _ _)) fun _ _ _ _ ↦
      .bind (.store _ _) fun _ _ _ _ ↦ .ite ?_ (.pure _)
    exact .bind (.lift (operational_shaped _)) fun _ _ _ _ ↦ .pure _

theorem declare (name : String) (type : DeclType) (value : Value) :
    Steady known (declare name type value) := by
  intro m hm
  rw [declare_apply]
  rcases hcoerce : coerce type value with fault | v
  · refine ⟨fun _ _ heq ↦ ?_, hm⟩
    cases heq
    exact Fault.unpreventable_of_operational (operational_coerce type value fault hcoerce)
  · exact ⟨nofun, hm.grows (passage_names.declare m ⟨name, type, v⟩)⟩

/-- What a well-scoped statement does itself is safe. -/
theorem begin {s : Stmt} (h : s.WellScoped inLoop known) : Steady known (begin setting s) := by
  have hdone {x : Step Flow} (hx : Steady known x) :
      Steady known (do return .done (← x) : Step Task) :=
    hx.bind fun _ _ _ _ ↦ .pure _
  cases h with
  | declare hinit =>
    rename_i type name init
    have hrest (value : Value) :
        Steady known (do Run.declare name.name type value; return Flow.normal) :=
      .bind (.declare _ _ _) fun _ _ _ _ ↦ .pure _
    refine hdone (.bind (.tick _) fun _ _ _ _ ↦ ?_)
    cases init with
    | some init => exact (eval (hinit init rfl)).bind fun v _ _ _ ↦ hrest v
    | none => exact .bind (.pure _) fun v _ _ _ ↦ hrest v
  | assign hroot hpath hvalue =>
    exact hdone (.bind (.tick _) fun _ _ _ _ ↦
      (assign hroot hpath hvalue _).bind fun _ _ _ _ ↦ .pure _)
  | expression h =>
    exact hdone (.bind (.tick _) fun _ _ _ _ ↦ (eval h).bind fun _ _ _ _ ↦ .pure _)
  | block _ => exact .bind (.tick _) fun _ _ _ _ ↦ .pure _
  | ifElse hcond _ _ =>
    rw [Run.begin.eq_def]
    refine .bind (.tick _) fun _ _ _ _ ↦ (eval hcond).bind fun _ _ _ _ ↦
      .bind (.lift (operational_truth _ _)) fun _ _ _ _ ↦ .ite (.pure _) ?_
    split
    · exact .pure _
    · exact .pure _
  | whileLoop _ _ => exact .bind (.tick _) fun _ _ _ _ ↦ .pure _
  | forEach hitems _ =>
    exact .bind (.tick _) fun _ _ _ _ ↦ (eval hitems).bind fun _ _ _ _ ↦
      .bind (.lift (operational_itemsOf _)) fun _ _ _ _ ↦ .pure _
  | returnWith h =>
    rename_i value
    refine hdone (.bind (.tick _) fun _ _ _ _ ↦ ?_)
    cases value with
    | some value => exact (eval (h value rfl)).bind fun _ _ _ _ ↦ .pure _
    | none => exact .pure _
  | throwWith h =>
    exact hdone (.bind (.tick _) fun _ _ _ _ ↦ (eval h).bind fun _ _ _ _ ↦
      .fail (Fault.unpreventable_of_operational (isOperational_thrown _ _)))
  | breakLoop => exact hdone (.bind (.tick _) fun _ _ _ _ ↦ .pure _)
  | continueLoop => exact hdone (.bind (.tick _) fun _ _ _ _ ↦ .pure _)
  | empty => exact hdone (.bind (.tick _) fun _ _ _ _ ↦ .pure _)

/-- So is what leads a loop to its next round. -/
theorem next {l : Loop} (h : ∀ cond body, l = .whileTrue cond body → cond.WellScoped known) :
    Steady known (l.next setting) := by
  cases l with
  | whileTrue cond body =>
    have htest : Steady known (test setting cond) :=
      (eval (h cond body rfl)).bind fun _ _ _ _ ↦ .lift (operational_truth _ _)
    exact htest.bind fun _ _ _ _ ↦ .ite (.pure _) (.pure _)
  | forEach name type items body =>
    cases items with
    | nil => exact .pure _
    | cons item rest => exact .bind (.tick _) fun _ _ _ _ ↦ .pure _

end Steady

end Snippet.Run
