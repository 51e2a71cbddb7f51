import Snippet.Proofs.Execution
import Snippet.Proofs.Paths

/-!
# Live locals

The variables of the blocks that a run is in, and what holds of all of them throughout a run.
Variables come about and change in three ways only: a declaration, a loop variable, and an
assignment. What each of these three keeps, the whole run keeps (`Runs.keeps`).

A statement that halts may leave less behind than one that ends: `Kept` speaks of both.
-/

namespace Snippet.Run

open Script (Accessor AssignOp DeclType Expr Ident Program Stmt)

variable {setting : Setting} {m m' : Machine} {scopes : List (List Slot)} {name : String}
  {value : Value} {slot : Slot}

/-! ### Reading and writing -/

theorem find?_setInScope {scope : List Slot} (h : scope.find? (·.name == name) = some slot) :
    (setInScope name value scope).find? (·.name == name) = some { slot with value } := by
  induction scope with
  | nil => cases h
  | cons first rest ih =>
    rw [List.find?_cons] at h
    rw [setInScope]
    by_cases hname : first.name = name
    · rw [if_pos hname]
      simp only [hname, beq_self_eq_true, Option.some.injEq] at h
      subst h
      simp [hname]
    · rw [if_neg hname, List.find?_cons]
      simp only [beq_eq_false_iff_ne.2 hname] at h ⊢
      exact ih h

theorem mem_setInScope {s : Slot} {scope : List Slot}
    (h : scope.find? (·.name == name) = some slot) (hs : s ∈ setInScope name value scope) :
    s ∈ scope ∨ s = { slot with value } := by
  induction scope with
  | nil => cases h
  | cons first rest ih =>
    rw [List.find?_cons] at h
    rw [setInScope] at hs
    by_cases hname : first.name = name
    · rw [if_pos hname] at hs
      simp only [hname, beq_self_eq_true, Option.some.injEq] at h
      obtain rfl | hs := List.mem_cons.1 hs
      · exact .inr (by rw [h])
      · exact .inl (.tail _ hs)
    · rw [if_neg hname] at hs
      simp only [beq_eq_false_iff_ne.2 hname] at h
      obtain rfl | hs := List.mem_cons.1 hs
      · exact .inl (.head _)
      · exact (ih h hs).imp_left (.tail _)

theorem setSlot_cons (name : String) (value : Value) (scope : List Slot)
    (rest : List (List Slot)) :
    setSlot name value (scope :: rest) =
      if (scope.find? (·.name == name)).isSome then setInScope name value scope :: rest
      else scope :: setSlot name value rest := by
  rw [setSlot, List.isSome_find?]

theorem findSlot?_cons (name : String) (scope : List Slot) (rest : List (List Slot)) :
    findSlot? name (scope :: rest) =
      (scope.find? (·.name == name)).or (findSlot? name rest) := by
  rw [findSlot?, List.findSome?_cons]
  cases scope.find? (·.name == name) <;> rfl

theorem mem_of_findSlot? (h : findSlot? name scopes = some slot) :
    ∃ scope ∈ scopes, slot ∈ scope := by
  obtain ⟨scope, hscope, hfind⟩ := List.exists_of_findSome?_eq_some h
  exact ⟨scope, hscope, List.mem_of_find?_eq_some hfind⟩

/-- Behind a write to a variable its name denotes the same variable, with the new value. -/
theorem findSlot?_setSlot (h : findSlot? name scopes = some slot) :
    findSlot? name (setSlot name value scopes) = some { slot with value } := by
  induction scopes with
  | nil => cases h
  | cons scope rest ih =>
    rw [findSlot?_cons] at h
    rw [setSlot_cons]
    rcases hscope : scope.find? (·.name == name) with - | s
    · rw [hscope, Option.none_or] at h
      rw [hscope, Option.isSome_none, if_neg Bool.false_ne_true, findSlot?_cons, hscope,
        Option.none_or]
      exact ih h
    · rw [hscope, Option.some_or, Option.some.injEq] at h
      subst h
      rw [hscope, Option.isSome_some, if_pos rfl, findSlot?_cons, find?_setInScope hscope,
        Option.some_or]

/-- A write changes the value of the one variable that its name denotes. -/
theorem mem_setSlot {s : Slot} {scope : List Slot} (h : findSlot? name scopes = some slot)
    (hscope : scope ∈ setSlot name value scopes) (hs : s ∈ scope) :
    (∃ scope ∈ scopes, s ∈ scope) ∨ s = { slot with value } := by
  induction scopes with
  | nil => cases h
  | cons first rest ih =>
    rw [findSlot?_cons] at h
    rw [setSlot_cons] at hscope
    rcases hfirst : first.find? (·.name == name) with - | found
    · rw [hfirst, Option.none_or] at h
      rw [hfirst, Option.isSome_none, if_neg Bool.false_ne_true] at hscope
      obtain rfl | hscope := List.mem_cons.1 hscope
      · exact .inl ⟨_, .head _, hs⟩
      · exact (ih h hscope).imp_left fun ⟨scope, hmem, hs⟩ ↦ ⟨scope, .tail _ hmem, hs⟩
    · rw [hfirst, Option.some_or, Option.some.injEq] at h
      subst h
      rw [hfirst, Option.isSome_some, if_pos rfl] at hscope
      obtain rfl | hscope := List.mem_cons.1 hscope
      · exact (mem_setInScope hfirst hs).imp_left fun hs ↦ ⟨_, .head _, hs⟩
      · exact .inl ⟨_, .tail _ hscope, hs⟩

@[simp]
theorem length_setSlot (name : String) (value : Value) (scopes : List (List Slot)) :
    (setSlot name value scopes).length = scopes.length := by
  induction scopes with
  | nil => rfl
  | cons scope rest ih =>
    rw [setSlot]
    split
    · rfl
    · rw [List.length_cons, List.length_cons, ih]

@[simp]
theorem length_addSlot (slot : Slot) (scopes : List (List Slot)) :
    (addSlot slot scopes).length = scopes.length := by
  cases scopes <;> rfl

/-! ### Open blocks -/

/-- Whatever a run does, as many blocks are open behind it as before. -/
theorem passage_depth : Passage fun m m' ↦ m'.scopes.length = m.scopes.length where
  refl _ := rfl
  trans h₁ h₂ := h₂.trans h₁
  tick _ := rfl
  emit _ _ := rfl
  store _ _ _ := length_setSlot _ _ _
  declare _ _ := length_addSlot _ _
  block h := by
    rw [Machine.leave_scopes, List.length_tail, h]
    rfl

/-- Whether a statement itself changes the variables, before it comes to the task it leaves. -/
def setsVariable : Stmt → Bool
  | .declare _ _ _ _ | .assign _ _ _ _ _ => true
  | _ => false

/-- What the other statements do themselves keeps every course. -/
theorem Course.begin {R : Machine → Machine → Prop} (hR : Course R) (setting : Setting) {s : Stmt}
    (h : setsVariable s = false) : Moves R (begin setting s) := by
  have hdone {x : Step Flow} (hx : Moves R x) : Moves R (do return .done (← x) : Step Task) :=
    hR.bind hx fun _ ↦ hR.pure _
  cases s with
  | declare _ _ _ _ => cases h
  | assign _ _ _ _ _ => cases h
  | block _ _ => exact hR.bind (hR.count _) fun _ ↦ hR.pure _
  | whileLoop _ _ _ => exact hR.bind (hR.count _) fun _ ↦ hR.pure _
  | ifElse _ cond yes no =>
    rw [Run.begin.eq_def]
    refine hR.bind (hR.count _) fun _ ↦ hR.bind (hR.eval _ _) fun _ ↦
      hR.bind (hR.lift _) fun _ ↦ .ite (hR.pure _) ?_
    cases no <;> exact hR.pure _
  | forEach _ _ _ items _ =>
    exact hR.bind (hR.count _) fun _ ↦ hR.bind (hR.eval _ _) fun _ ↦
      hR.bind (hR.lift _) fun _ ↦ hR.pure _
  | expression _ _ =>
    exact hdone (hR.bind (hR.count _) fun _ ↦ hR.bind (hR.eval _ _) fun _ ↦ hR.pure _)
  | returnWith _ value =>
    refine hdone (hR.bind (hR.count _) fun _ ↦ ?_)
    cases value with
    | some value => exact hR.bind (hR.eval _ _) fun _ ↦ hR.pure _
    | none => exact hR.pure _
  | throwWith _ _ =>
    exact hdone (hR.bind (hR.count _) fun _ ↦ hR.bind (hR.eval _ _) fun _ ↦ hR.fail _)
  | breakLoop _ => exact hdone (hR.bind (hR.count _) fun _ ↦ hR.pure _)
  | continueLoop _ => exact hdone (hR.bind (hR.count _) fun _ ↦ hR.pure _)
  | empty _ => exact hdone (hR.bind (hR.count _) fun _ ↦ hR.pure _)

theorem Passage.begin {R : Machine → Machine → Prop} (hR : Passage R) (setting : Setting)
    (s : Stmt) : Moves R (begin setting s) := by
  rcases h : setsVariable s with - | -
  · exact hR.toCourse.begin setting h
  · cases s with
    | declare span type name init =>
      exact hR.bind (hR.exec setting (.declare span type name init)) fun _ ↦ hR.pure _
    | assign span root path op value =>
      exact hR.bind (hR.exec setting (.assign span root path op value)) fun _ ↦ hR.pure _
    | _ => cases h

/-- What leads a loop to its next round leaves the variables alone. -/
theorem scopes_next (setting : Setting) (l : Loop) :
    Moves (fun m m' ↦ m'.scopes = m.scopes) (l.next setting) := by
  have hR := course_scopes
  cases l with
  | whileTrue cond body =>
    exact hR.bind (hR.bind (hR.eval _ _) fun _ ↦ hR.lift _) fun _ ↦ .ite (hR.pure _) (hR.pure _)
  | forEach name type items body =>
    cases items with
    | nil => exact hR.pure _
    | cons item rest => exact hR.bind (hR.count _) fun _ ↦ hR.pure _

theorem Runs.depth_eq {t : Task} {trace : List Execution} {flow : Flow}
    (h : Runs setting t m trace (.ok flow m')) : m'.scopes.length = m.scopes.length :=
  (passage_depth.perform setting t).of_ok h.result_eq.symm

/-- At least this many blocks are open when something is taken up. -/
def DeepFrom (depth : Nat) (trace : List Execution) : Prop :=
  ∀ e ∈ trace, depth ≤ e.start.scopes.length

/-- What is executed on the way has at least the blocks open that are open at the start. -/
theorem Runs.depth_le {t : Task} {trace : List Execution} {r : Ended Flow}
    (h : Runs setting t m trace r) : DeepFrom m.scopes.length trace := by
  have hcons {t : Task} {m : Machine} {trace : List Execution} {r : Ended Flow}
      (h : DeepFrom m.scopes.length trace) : DeepFrom m.scopes.length (⟨t, m, r⟩ :: trace) :=
    List.forall_mem_cons.2 ⟨Nat.le_refl _, h⟩
  have hnil {depth : Nat} : DeepFrom depth [] := List.forall_mem_nil _
  have hfrom {depth depth' : Nat} {trace} (heq : depth' = depth) (h : DeepFrom depth' trace) :
      DeepFrom depth trace := by
    rw [← heq]
    exact h
  have hround {l : Loop} {m m' next} (hnext : l.next setting m = .ok next m') :
      m'.scopes.length = m.scopes.length :=
    congrArg List.length ((scopes_next setting l).of_ok hnext)
  induction h with
  | done => exact hcons hnil
  | stmt hbegin _ ih => exact hcons (hfrom ((passage_depth.begin setting _).of_ok hbegin) ih)
  | stmtHalts _ => exact hcons hnil
  | inner _ ih => exact hcons fun e he ↦ Nat.le_of_succ_le (ih e he)
  | bound hdeclare _ ih =>
    exact hcons (hfrom ((passage_depth.declare' _ _ _).of_ok hdeclare) ih)
  | boundHalts _ => exact hcons hnil
  | listEnds => exact hcons hnil
  | listNext h _ _ ih ih' =>
    exact hcons (List.forall_mem_append.2 ⟨ih, hfrom h.depth_eq ih'⟩)
  | listLeft _ _ ih => exact hcons ih
  | listHalts _ ih => exact hcons ih
  | loopEnds _ => exact hcons hnil
  | loopHalts _ => exact hcons hnil
  | loopNext hnext h _ _ ih ih' =>
    have hstart := hround hnext
    exact hcons (List.forall_mem_append.2
      ⟨hfrom hstart ih, hfrom (h.depth_eq.trans hstart) ih'⟩)
  | loopLeft hnext _ _ ih => exact hcons (hfrom (hround hnext) ih)
  | loopBroken hnext _ ih => exact hcons (hfrom (hround hnext) ih)

/-! ### What is seen of the locals -/

section

variable {α : Type} {f : Slot → α}

/-- What `f` shows of the variables, by blocks from the innermost outwards. -/
def shown (f : Slot → α) (scopes : List (List Slot)) : List (List α) :=
  scopes.map (·.map f)

/-- The same with more in the innermost block. -/
def addShown (added : List α) : List (List α) → List (List α)
  | [] => []
  | scope :: rest => (added ++ scope) :: rest

@[simp]
theorem addShown_nil (scopes : List (List α)) : addShown [] scopes = scopes := by
  cases scopes <;> rfl

theorem addShown_addShown (added added' : List α) (scopes : List (List α)) :
    addShown added' (addShown added scopes) = addShown (added' ++ added) scopes := by
  cases scopes with
  | nil => rfl
  | cons scope rest => rw [addShown, addShown, addShown, List.append_assoc]

theorem flatten_addShown {scopes : List (List α)} (h : scopes ≠ []) (added : List α) :
    (addShown added scopes).flatten = added ++ scopes.flatten := by
  rcases scopes with - | ⟨scope, rest⟩
  · exact absurd rfl h
  · exact List.append_assoc added scope rest.flatten

theorem shown_setSlot (hf : ∀ slot value, f { slot with value } = f slot) (name : String)
    (value : Value) (scopes : List (List Slot)) :
    shown f (setSlot name value scopes) = shown f scopes := by
  have hscope (scope : List Slot) : (setInScope name value scope).map f = scope.map f := by
    induction scope with
    | nil => rfl
    | cons first rest ih =>
      rw [setInScope]
      split
      · rw [List.map_cons, List.map_cons, hf]
      · rw [List.map_cons, List.map_cons, ih]
  induction scopes with
  | nil => rfl
  | cons scope rest ih =>
    rw [setSlot]
    split
    · rw [shown, List.map_cons, hscope]
      rfl
    · rw [shown, List.map_cons]
      exact congrArg _ ih

theorem shown_addSlot (slot : Slot) (scopes : List (List Slot)) :
    shown f (addSlot slot scopes) = addShown [f slot] (shown f scopes) := by
  cases scopes <;> rfl

/-- The innermost block may have got more variables; the blocks around it have the same. -/
def Grows (f : Slot → α) (m m' : Machine) : Prop :=
  ∃ added, shown f m'.scopes = addShown added (shown f m.scopes)

theorem Grows.of_eq (h : shown f m'.scopes = shown f m.scopes) : Grows f m m' :=
  ⟨[], by rw [addShown_nil, h]⟩

/-- Behind a block the same is shown as before. -/
theorem Grows.leave (h : Grows f m.enter m') : shown f m'.leave.scopes = shown f m.scopes := by
  obtain ⟨added, h⟩ := h
  rw [Machine.leave_scopes, shown, List.map_tail]
  exact congrArg List.tail h

/-- What does not depend on values is only ever added to, and what a block has added goes when it
ends. -/
theorem passage_grows (hf : ∀ slot value, f { slot with value } = f slot) : Passage (Grows f) where
  refl _ := .of_eq rfl
  trans := by
    rintro m₁ m₂ m₃ ⟨added, h⟩ ⟨added', h'⟩
    exact ⟨added' ++ added, by rw [h', h, addShown_addShown]⟩
  tick _ := .of_eq rfl
  emit _ _ := .of_eq rfl
  store m name value := .of_eq (shown_setSlot hf name value m.scopes)
  declare m slot := ⟨[f slot], shown_addSlot slot m.scopes⟩
  block h := .of_eq h.leave

end

/-! ### What holds of every local -/

/-- Every live local is as `P` says. -/
def AllSlots (P : Slot → Prop) (scopes : List (List Slot)) : Prop :=
  ∀ scope ∈ scopes, ∀ slot ∈ scope, P slot

namespace AllSlots

variable {P Q : Slot → Prop}

theorem mono (hPQ : ∀ slot, P slot → Q slot) (h : AllSlots P scopes) : AllSlots Q scopes :=
  fun scope hscope slot hslot ↦ hPQ slot (h scope hscope slot hslot)

theorem start (outbox : Outbox) : AllSlots P (Machine.start outbox).scopes := by
  intro scope hscope slot hslot
  obtain rfl := List.mem_singleton.1 hscope
  cases hslot

theorem enter (h : AllSlots P scopes) : AllSlots P ([] :: scopes) := by
  intro scope hscope slot hslot
  obtain rfl | hscope := List.mem_cons.1 hscope
  · cases hslot
  · exact h scope hscope slot hslot

theorem tail (h : AllSlots P scopes) : AllSlots P scopes.tail :=
  fun scope hscope ↦ h scope (List.mem_of_mem_tail hscope)

theorem addSlot (h : AllSlots P scopes) (hslot : P slot) : AllSlots P (addSlot slot scopes) := by
  cases scopes with
  | nil => exact h
  | cons scope rest =>
    intro scope' hscope s hs
    obtain rfl | hscope := List.mem_cons.1 hscope
    · obtain rfl | hs := List.mem_cons.1 hs
      · exact hslot
      · exact h scope (.head _) s hs
    · exact h scope' (.tail _ hscope) s hs

theorem of_find (h : AllSlots P scopes) (hslot : findSlot? name scopes = some slot) : P slot := by
  obtain ⟨scope, hscope, hmem⟩ := mem_of_findSlot? hslot
  exact h scope hscope slot hmem

theorem setSlot (h : AllSlots P scopes) (hslot : findSlot? name scopes = some slot)
    (hvalue : P { slot with value }) : AllSlots P (setSlot name value scopes) := by
  intro scope hscope s hs
  obtain ⟨scope', hscope', hs'⟩ | rfl := mem_setSlot hslot hscope hs
  · exact h scope' hscope' s hs'
  · exact hvalue

end AllSlots

/-! ### Assignments -/

/-- What an assignment finds out before it stores anything. -/
structure Prepared where
  keys : List PathKey
  /-- The value to store at the end of the path. -/
  value : Value
  slot : Slot

/-- Evaluates the parts of an assignment. -/
def prepare (setting : Setting) (root : String) (path : List Accessor) (op : AssignOp)
    (value : Expr) : Step Prepared := do
  let keys ← evalPath setting path
  let v ← eval setting value
  let v ← assignedValue setting root keys op v
  let slot ← lookup root
  return ⟨keys, v, slot⟩

/-- The state with a new value of a variable. -/
def Machine.stored (root : String) (value : Value) (m : Machine) : Machine :=
  { m with scopes := setSlot root value m.scopes }

/-- Stores the value of an assignment. -/
def storeAt (setting : Setting) (root : String) (v : Value) (slot : Slot) :
    List PathKey → Step Unit
  | [], m =>
    match coerce slot.type v with
    | .ok w => .ok () (m.stored root w)
    | .error fault => .error (.fault fault) m
  | key :: rest, m =>
    match writePath setting.limits.maxElements v (key :: rest) slot.value with
    | .ok updated =>
      if v.isCollection then
        match shaped setting.limits.maxElements updated with
        | .ok _ => .ok () (m.stored root updated)
        | .error fault => .error (.fault fault) (m.stored root updated)
      else .ok () (m.stored root updated)
    | .error fault => .error (.fault fault) m

theorem course_prepare {R : Machine → Machine → Prop} (hR : Course R) (setting : Setting)
    (root : String) (path : List Accessor) (op : AssignOp) (value : Expr) :
    Moves R (prepare setting root path op value) :=
  hR.bind (hR.evalPath setting path) fun _ ↦ hR.bind (hR.eval setting value) fun _ ↦
    hR.bind (hR.assignedValue setting root _ op _) fun _ ↦ hR.bind (hR.lookup root) fun _ ↦
      hR.pure _

/-- An assignment prepares what it stores, and stores it. -/
theorem assign_eq (setting : Setting) (root : String) (path : List Accessor) (op : AssignOp)
    (value : Expr) :
    assign setting root path op value =
      prepare setting root path op value >>= fun p ↦
        storeAt setting root p.value p.slot p.keys := by
  funext m
  rw [assign, prepare, bind_assoc]
  refine bind_apply_congr fun keys m₁ _ ↦ ?_
  rw [bind_assoc]
  refine bind_apply_congr fun _ m₂ _ ↦ ?_
  rw [bind_assoc]
  refine bind_apply_congr fun v m₃ _ ↦ ?_
  rw [bind_assoc]
  refine bind_apply_congr fun slot m₄ _ ↦ ?_
  rw [pure_bind]
  cases keys with
  | nil =>
    show (lift (coerce slot.type v) >>= fun w ↦ store root w) m₄ =
      storeAt setting root v slot [] m₄
    rw [bind_apply, lift_apply, storeAt.eq_def]
    cases coerce slot.type v <;> rfl
  | cons key rest =>
    show (lift (writePath _ v (key :: rest) slot.value) >>= fun updated ↦ _) m₄ =
      storeAt setting root v slot (key :: rest) m₄
    rw [bind_apply, lift_apply, storeAt.eq_def]
    dsimp only
    rcases writePath _ v (key :: rest) slot.value with fault | updated
    · rfl
    · show (if v.isCollection then _ else _ : Step Unit) (m₄.stored root updated) = _
      dsimp only
      split
      · rw [bind_apply, lift_apply]
        cases shaped setting.limits.maxElements updated <;> rfl
      · rfl

/-- The variable of an assignment is the one that its name denotes. -/
theorem findSlot?_of_prepare {root : String} {path : List Accessor} {op : AssignOp} {value : Expr}
    {p : Prepared} (h : prepare setting root path op value m = .ok p m') :
    findSlot? root m'.scopes = some p.slot := by
  obtain ⟨_, _, -, h⟩ := bind_eq_ok_iff.1 h
  obtain ⟨_, _, -, h⟩ := bind_eq_ok_iff.1 h
  obtain ⟨_, _, -, h⟩ := bind_eq_ok_iff.1 h
  obtain ⟨_, _, hlookup, hpure⟩ := bind_eq_ok_iff.1 h
  cases hpure
  obtain ⟨hslot, rfl⟩ := lookup_eq_ok_iff.1 hlookup
  exact hslot

/-- An assignment that computes nothing evaluates its path, and then the value that it is to
store. -/
theorem prepare_set_eq_ok {root : String} {path : List Accessor} {e : Expr} {p : Prepared}
    (h : prepare setting root path .set e m = .ok p m') :
    ∃ m₁, evalPath setting path m = .ok p.keys m₁ ∧ eval setting e m₁ = .ok p.value m' := by
  obtain ⟨keys, m₁, hpath, h⟩ := bind_eq_ok_iff.1 h
  obtain ⟨v, m₂, heval, h⟩ := bind_eq_ok_iff.1 h
  obtain ⟨w, _, hw, h⟩ := bind_eq_ok_iff.1 h
  cases hw
  obtain ⟨slot, _, hlookup, hpure⟩ := bind_eq_ok_iff.1 h
  obtain ⟨-, rfl⟩ := lookup_eq_ok_iff.1 hlookup
  cases hpure
  exact ⟨m₁, hpath, heval⟩

theorem storeAt_eq_ok {root : String} {v : Value} {keys : List PathKey} {u : Unit}
    (h : storeAt setting root v slot keys m = .ok u m') :
    (keys = [] ∧ ∃ w, coerce slot.type v = .ok w ∧ m' = m.stored root w) ∨
      ∃ key rest updated, keys = key :: rest ∧
        writePath setting.limits.maxElements v keys slot.value = .ok updated ∧
        m' = m.stored root updated ∧
        (v.isCollection = true → ∃ w, shaped setting.limits.maxElements updated = .ok w) := by
  cases keys with
  | nil =>
    rw [storeAt.eq_def] at h
    dsimp only at h
    rcases hcoerce : coerce slot.type v with fault | w
    · rw [hcoerce] at h
      cases h
    · rw [hcoerce] at h
      cases h
      exact .inl ⟨rfl, w, rfl, rfl⟩
  | cons key rest =>
    rw [storeAt.eq_def] at h
    dsimp only at h
    refine .inr ⟨key, rest, ?_⟩
    rcases hwrite : writePath _ v (key :: rest) slot.value with fault | updated
    · rw [hwrite] at h
      cases h
    · rw [hwrite] at h
      dsimp only at h
      split at h
      · rcases hshaped : shaped setting.limits.maxElements updated with fault | w
        · rw [hshaped] at h
          cases h
        · rw [hshaped] at h
          cases h
          exact ⟨updated, rfl, rfl, rfl, fun _ ↦ ⟨w, hshaped⟩⟩
      · cases h
        exact ⟨updated, rfl, rfl, rfl, fun hcollection ↦ absurd hcollection ‹_›⟩

/-- A completed assignment has prepared what it stored. -/
theorem exec_assign_eq_ok {span : Span} {root : Ident} {path : List Accessor} {op : AssignOp}
    {e : Expr} {flow : Flow} (h : exec setting (.assign span root path op e) m = .ok flow m') :
    ∃ p m₁, prepare setting root.name path op e m.ticked = .ok p m₁ ∧
      storeAt setting root.name p.value p.slot p.keys m₁ = .ok () m' := by
  replace h := ok_of_tick h
  obtain ⟨_, _, hassign, hpure⟩ := bind_eq_ok_iff.1 h
  cases hpure
  rw [assign_eq, bind_eq_ok_iff] at hassign
  exact hassign

/-- A completed declaration has bound the converted value of its expression. -/
theorem exec_declare_eq_ok {span : Span} {type : DeclType} {name : Ident} {init : Option Expr}
    {flow : Flow} (h : exec setting (.declare span type name init) m = .ok flow m') :
    ∃ v w m₁, (∀ e, init = some e → eval setting e m.ticked = .ok v m₁) ∧
      (init = none → v = defaultFor type ∧ m₁ = m.ticked) ∧ coerce type v = .ok w ∧
      m' = { m₁ with scopes := addSlot ⟨name.name, type, w⟩ m₁.scopes } := by
  have hbind {v : Value} {m : Machine}
      (h : (do declare name.name type v; return Flow.normal : Step Flow) m = .ok flow m') :
      ∃ w, coerce type v = .ok w ∧
        m' = { m with scopes := addSlot ⟨name.name, type, w⟩ m.scopes } := by
    obtain ⟨_, _, hdeclare, hpure⟩ := bind_eq_ok_iff.1 h
    cases hpure
    exact declare_eq_ok hdeclare
  replace h := ok_of_tick h
  cases init with
  | some init =>
    obtain ⟨v, m₁, heval, h⟩ := bind_eq_ok_iff.1 h
    obtain ⟨w, hcoerce, rfl⟩ := hbind h
    exact ⟨v, w, m₁, fun _ he ↦ by cases he; exact heval,
      fun hnone ↦ absurd hnone (Option.some_ne_none _), hcoerce, rfl⟩
  | none =>
    obtain ⟨w, hcoerce, rfl⟩ := hbind h
    exact ⟨_, w, _, fun _ hsome ↦ absurd hsome.symm (Option.some_ne_none _), fun _ ↦ ⟨rfl, rfl⟩,
      hcoerce, rfl⟩

/-! ### What a run keeps -/

/-- The live locals are as `Good` says behind a computation that has a value, and as `Left` says
behind one that halts. -/
def Leaves {α : Type} (Good Left : Slot → Prop) : Ended α → Prop
  | .ok _ m => AllSlots Good m.scopes
  | .error _ m => AllSlots Left m.scopes

/-- Values that a task has still to bind to a loop variable. -/
def Task.Pending (Item : Value → Prop) : Task → Prop
  | .inner t => t.Pending Item
  | .bound _ _ item _ => Item item
  | .loop (.forEach _ _ items _) => ∀ item ∈ items, Item item
  | _ => True

/-- What declarations, loop variables and assignments keep, as far as the statements in question
are `Allowed`. -/
structure Kept (setting : Setting) (Allowed : Stmt → Machine → Prop) (Good Left : Slot → Prop)
    (Item : Value → Prop) : Prop where
  left : ∀ slot, Good slot → Left slot
  items : ∀ {m m' e v items}, AllSlots Good m.scopes → eval setting e m = .ok v m' →
    itemsOf setting.limits.maxElements v = .ok items → ∀ item ∈ items, Item item
  bind : ∀ {name type item v}, Item item → coerce type item = .ok v → Good ⟨name, type, v⟩
  declare : ∀ {span type name init m}, AllSlots Good m.scopes →
    Allowed (.declare span type name init) m →
    Leaves Good Left (exec setting (.declare span type name init) m)
  assign : ∀ {span root path op value m}, AllSlots Good m.scopes →
    Allowed (.assign span root path op value) m →
    Leaves Good Left (exec setting (.assign span root path op value) m)

section

variable {Allowed : Stmt → Machine → Prop} {Good Left : Slot → Prop} {Item : Value → Prop}

theorem Leaves.of_scopes {α : Type} (hleft : ∀ slot, Good slot → Left slot) {r : Ended α}
    (h : (after r).scopes = m.scopes) (hm : AllSlots Good m.scopes) : Leaves Good Left r := by
  rw [← h] at hm
  cases r with
  | ok _ _ => exact hm
  | error _ _ => exact hm.mono hleft

/-- A sequence leaves behind what its second part does, if the first only looks at variables. -/
theorem Leaves.bind {α β : Type} (hleft : ∀ slot, Good slot → Left slot) {x : Step α}
    {f : α → Step β} (hx : Moves (fun m m' ↦ m'.scopes = m.scopes) x)
    (hm : AllSlots Good m.scopes)
    (hf : ∀ a m', x m = .ok a m' → AllSlots Good m'.scopes → Leaves Good Left (f a m')) :
    Leaves Good Left ((x >>= f) m) := by
  have hscopes : (after (x m)).scopes = m.scopes := hx m
  rw [bind_apply]
  rcases hxm : x m with ⟨a, m'⟩ | ⟨halt, m'⟩
  · rw [hxm, after_ok] at hscopes
    exact hf a m' hxm (hscopes ▸ hm)
  · rw [hxm] at hscopes
    exact .of_scopes hleft hscopes hm

theorem Leaves.map {α β : Type} {x : Step α} (f : α → β) (h : Leaves Good Left (x m)) :
    Leaves Good Left ((do return f (← x)) m) := by
  rw [bind_apply]
  cases hx : x m <;> rw [hx] at h <;> exact h

namespace Kept

variable (hk : Kept setting Allowed Good Left Item)
include hk

theorem begin {s : Stmt} {r : Ended Task} (h : Run.begin setting s m = r)
    (hm : AllSlots Good m.scopes) (hs : Allowed s m) : Leaves Good Left r := by
  rw [← h]
  cases s with
  | declare _ _ _ _ => exact .map Task.done (hk.declare hm hs)
  | assign _ _ _ _ _ => exact .map Task.done (hk.assign hm hs)
  | _ => exact .of_scopes hk.left (course_scopes.begin setting rfl m) hm

theorem pending {s : Stmt} {t : Task} (hm : AllSlots Good m.scopes)
    (h : Run.begin setting s m = .ok t m') : t.Pending Item := by
  cases begun_of_begin h with
  | forEach heval hitems => exact hk.items (m := m.ticked) hm heval hitems
  | _ => trivial

theorem declareItem {name : String} {type : DeclType} {item : Value} {r : Ended Unit}
    (h : Run.declare name type item m = r) (hm : AllSlots Good m.scopes) (hitem : Item item) :
    Leaves Good Left r := by
  rw [← h, declare_apply]
  rcases hcoerce : coerce type item with fault | v
  · exact hm.mono hk.left
  · exact hm.addSlot (hk.bind hitem hcoerce)

theorem next {l : Loop} {r : Ended (Option (Task × Loop))} (h : l.next setting m = r)
    (hm : AllSlots Good m.scopes) : Leaves Good Left r := by
  rw [← h]
  exact .of_scopes hk.left (scopes_next setting l m) hm

end Kept

/-- A round binds an item of its loop, and the loop behind it the items behind that one. -/
theorem Loop.pending_next {l l' : Loop} {t : Task} (hl : (Task.loop l).Pending Item)
    (h : l.next setting m = .ok (some (t, l')) m') :
    t.Pending Item ∧ (Task.loop l').Pending Item := by
  cases round_of_next h with
  | whileTrue => exact ⟨trivial, trivial⟩
  | forEach => exact ⟨hl _ (.head _), fun item hitem ↦ hl item (.tail _ hitem)⟩

theorem Leaves.leaving {r : Ended Flow} (h : Leaves Good Left r) :
    Leaves Good Left (leaving r) := by
  cases r with
  | ok _ _ => exact h.tail
  | error _ _ => exact h.tail

/-- What declarations, loop variables and assignments keep, every run keeps: in every state in
which something is taken up, in every state in which it ends, and in the last one. -/
theorem Runs.keeps (hk : Kept setting Allowed Good Left Item) {t : Task} {trace : List Execution}
    {r : Ended Flow} (h : Runs setting t m trace r) (hm : AllSlots Good m.scopes)
    (ht : t.Pending Item)
    (hallowed : ∀ e ∈ trace, ∀ s, e.task = .stmt s → Allowed s e.start) :
    (∀ e ∈ trace, AllSlots Good e.start.scopes ∧ Leaves Good Left e.result) ∧
      Leaves Good Left r := by
  -- the record of the task itself comes first, and its result is that of the whole
  have hcons {t m trace} {r : Ended Flow} (hm : AllSlots Good m.scopes)
      (hr : Leaves Good Left r)
      (htrace : ∀ e ∈ trace, AllSlots Good e.start.scopes ∧ Leaves Good Left e.result) :
      (∀ e ∈ (⟨t, m, r⟩ : Execution) :: trace,
        AllSlots Good e.start.scopes ∧ Leaves Good Left e.result) ∧ Leaves Good Left r := by
    refine ⟨fun e he ↦ ?_, hr⟩
    obtain rfl | he := List.mem_cons.1 he
    · exact ⟨hm, hr⟩
    · exact htrace e he
  have hnil : ∀ e ∈ ([] : List Execution),
      AllSlots Good e.start.scopes ∧ Leaves Good Left e.result := fun _ he ↦ nomatch he
  induction h with
  | done => exact hcons hm hm hnil
  | stmt hbegin _ ih =>
    have hs := hallowed _ (.head _) _ rfl
    have hnext := hk.begin hbegin hm hs
    obtain ⟨htrace, hr⟩ := ih hnext (hk.pending hm hbegin) fun e he ↦ hallowed e (.tail _ he)
    exact hcons hm hr htrace
  | stmtHalts hbegin =>
    have hs := hallowed _ (.head _) _ rfl
    have hnext := hk.begin hbegin hm hs
    exact hcons hm hnext hnil
  | inner _ ih =>
    obtain ⟨htrace, hr⟩ := ih hm.enter ht fun e he ↦ hallowed e (.tail _ he)
    exact hcons hm hr.leaving htrace
  | bound hdeclare _ ih =>
    have hitem := hk.declareItem hdeclare hm ht
    obtain ⟨htrace, hr⟩ := ih hitem trivial fun e he ↦ hallowed e (.tail _ he)
    exact hcons hm hr htrace
  | boundHalts hdeclare =>
    have hitem := hk.declareItem hdeclare hm ht
    exact hcons hm hitem hnil
  | listEnds => exact hcons hm hm hnil
  | listNext _ _ _ ih ih' =>
    obtain ⟨htrace, hr⟩ := ih hm trivial fun e he ↦
      hallowed e (.tail _ (List.mem_append_left _ he))
    obtain ⟨htrace', hr'⟩ := ih' hr trivial fun e he ↦
      hallowed e (.tail _ (List.mem_append_right _ he))
    exact hcons hm hr' fun e he ↦ (List.mem_append.1 he).elim (htrace e) (htrace' e)
  | listLeft _ _ ih =>
    obtain ⟨htrace, hr⟩ := ih hm trivial fun e he ↦ hallowed e (.tail _ he)
    exact hcons hm hr htrace
  | listHalts _ ih =>
    obtain ⟨htrace, hr⟩ := ih hm trivial fun e he ↦ hallowed e (.tail _ he)
    exact hcons hm hr htrace
  | loopEnds hnext => exact hcons hm (hk.next hnext hm) hnil
  | loopHalts hnext => exact hcons hm (hk.next hnext hm) hnil
  | loopNext hnext _ _ _ ih ih' =>
    obtain ⟨hround, hrest⟩ := Loop.pending_next ht hnext
    have hstart := hk.next hnext hm
    obtain ⟨htrace, hr⟩ := ih hstart hround fun e he ↦
      hallowed e (.tail _ (List.mem_append_left _ he))
    obtain ⟨htrace', hr'⟩ := ih' hr hrest fun e he ↦
      hallowed e (.tail _ (List.mem_append_right _ he))
    exact hcons hm hr' fun e he ↦ (List.mem_append.1 he).elim (htrace e) (htrace' e)
  | loopLeft hnext _ _ ih =>
    have hstart := hk.next hnext hm
    obtain ⟨htrace, hr⟩ := ih hstart (Loop.pending_next ht hnext).1 fun e he ↦
      hallowed e (.tail _ he)
    exact hcons hm hr htrace
  | loopBroken hnext _ ih =>
    have hstart := hk.next hnext hm
    obtain ⟨htrace, hr⟩ := ih hstart (Loop.pending_next ht hnext).1 fun e he ↦
      hallowed e (.tail _ he)
    exact hcons hm hr htrace

end

end Snippet.Run
