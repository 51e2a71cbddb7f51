import Snippet.Proofs.LiveNames

/-!
# Scope discipline

What a statement may do to the variables that are live when it is taken up, however it ends. As many
blocks are open behind it, with the same variables in them; only a declaration adds one of its own,
to the innermost block. A variable keeps its value unless an assignment is executed whose root is
that variable (`scope_discipline`).

Names do not say which variable is meant, since several may have one name. So a variable is known by
its `Site`, which is counted from the outermost block and from the oldest variable: it stays where
it is when blocks are entered and left and when variables are added. A write goes to the one site
that its name denotes (`slotAt?_setSlot_of_ne`), and what no executed assignment writes to the whole
run leaves alone (`Runs.slotAt?_eq`).
-/

namespace Snippet.Run

open Script (Accessor AssignOp DeclType Expr Ident Stmt)

variable {setting : Setting} {m m' : Machine} {scope : List Slot} {scopes : List (List Slot)}
  {name : String} {slot : Slot}

/-! ### Sites -/

section FromEnd

variable {α : Type} {l : List α} {a b : α} {i : Nat}

/-- The entry of a list, counted from its end. -/
def fromEnd? : List α → Nat → Option α
  | [], _ => none
  | a :: rest, i => if i = rest.length then some a else fromEnd? rest i

theorem lt_length_of_fromEnd? (h : fromEnd? l i = some a) : i < l.length := by
  induction l with
  | nil => cases h
  | cons b rest ih =>
    rw [List.length_cons]
    rw [fromEnd?] at h
    split at h
    · next heq => exact heq ▸ Nat.lt_succ_self _
    · exact Nat.lt_succ_of_lt (ih h)

theorem fromEnd?_cons_of_lt (h : i < l.length) : fromEnd? (a :: l) i = fromEnd? l i := by
  rw [fromEnd?, if_neg (Nat.ne_of_lt h)]

/-- What is added in front moves nothing. -/
theorem fromEnd?_cons (h : fromEnd? l i = some a) : fromEnd? (b :: l) i = some a := by
  rw [fromEnd?_cons_of_lt (lt_length_of_fromEnd? h), h]

end FromEnd

/-- Where a variable lives: in which block, counted from the outermost one, and where in that block,
counted from the oldest variable. -/
structure Site where
  block : Nat
  index : Nat
  deriving DecidableEq, Repr

/-- The variable at a site. -/
def slotAt? (scopes : List (List Slot)) (site : Site) : Option Slot :=
  (fromEnd? scopes site.block).bind (fromEnd? · site.index)

/-- Where in a block the newest variable of a name is. -/
def indexOf? (name : String) : List Slot → Option Nat
  | [] => none
  | slot :: rest => if slot.name = name then some rest.length else indexOf? name rest

/-- The site of the variable that a name denotes. -/
def siteOf? (name : String) : List (List Slot) → Option Site
  | [] => none
  | scope :: rest =>
    match indexOf? name scope with
    | some index => some ⟨rest.length, index⟩
    | none => siteOf? name rest

section Sites

variable {site : Site} {i : Nat}

theorem lt_length_of_indexOf? (h : indexOf? name scope = some i) : i < scope.length := by
  induction scope with
  | nil => cases h
  | cons first rest ih =>
    rw [List.length_cons]
    rw [indexOf?] at h
    split at h
    · exact Option.some.inj h ▸ Nat.lt_succ_self _
    · exact Nat.lt_succ_of_lt (ih h)

theorem isSome_indexOf? (name : String) (scope : List Slot) :
    (indexOf? name scope).isSome = (scope.find? (·.name == name)).isSome := by
  induction scope with
  | nil => rfl
  | cons first rest ih =>
    rw [indexOf?, List.find?_cons]
    split
    · next hname => rw [beq_iff_eq.2 hname]; rfl
    · next hname => rw [beq_eq_false_iff_ne.2 hname, ih]

theorem fromEnd?_of_indexOf? (h : indexOf? name scope = some i) :
    fromEnd? scope i = scope.find? (·.name == name) := by
  induction scope with
  | nil => cases h
  | cons first rest ih =>
    rw [indexOf?] at h
    rw [List.find?_cons]
    split at h
    · next hname => rw [fromEnd?, if_pos (Option.some.inj h).symm, beq_iff_eq.2 hname]
    · next hname =>
      rw [fromEnd?_cons_of_lt (lt_length_of_indexOf? h), beq_eq_false_iff_ne.2 hname, ih h]

theorem lt_length_of_siteOf? (h : siteOf? name scopes = some site) :
    site.block < scopes.length := by
  induction scopes with
  | nil => cases h
  | cons scope rest ih =>
    rw [List.length_cons]
    rw [siteOf?] at h
    split at h
    · exact Option.some.inj h ▸ Nat.lt_succ_self _
    · exact Nat.lt_succ_of_lt (ih h)

theorem lt_length_of_slotAt? (h : slotAt? scopes site = some slot) :
    site.block < scopes.length := by
  obtain ⟨_, hblock, -⟩ := Option.bind_eq_some_iff.1 h
  exact lt_length_of_fromEnd? hblock

/-- At the site of a name is the variable that the name denotes. -/
theorem slotAt?_siteOf? (h : siteOf? name scopes = some site) :
    slotAt? scopes site = findSlot? name scopes := by
  induction scopes with
  | nil => cases h
  | cons scope rest ih =>
    have hsome := isSome_indexOf? name scope
    rw [siteOf?] at h
    rw [findSlot?_cons, slotAt?]
    split at h
    · next i hindex =>
      obtain rfl := Option.some.inj h
      rw [fromEnd?, if_pos rfl, Option.bind_some, fromEnd?_of_indexOf? hindex]
      rw [hindex, Option.isSome_some] at hsome
      rw [Option.or_of_isSome hsome.symm]
    · next hindex =>
      rw [hindex, Option.isSome_none] at hsome
      rw [fromEnd?_cons_of_lt (lt_length_of_siteOf? h), ← slotAt?, ih h,
        Option.isSome_eq_false_iff.1 hsome.symm |> Option.isNone_iff_eq_none.1, Option.none_or]

/-! ### What moves nothing -/

/-- A new block moves no variable. -/
theorem slotAt?_enter (h : slotAt? scopes site = some slot) :
    slotAt? (scope :: scopes) site = some slot := by
  obtain ⟨found, hfound, hslot⟩ := Option.bind_eq_some_iff.1 h
  exact Option.bind_eq_some_iff.2 ⟨found, fromEnd?_cons hfound, hslot⟩

/-- Nor does leaving a block, for the variables of the others. -/
theorem slotAt?_tail (h : slotAt? scopes site = some slot)
    (hsite : site.block + 1 < scopes.length) : slotAt? scopes.tail site = some slot := by
  cases scopes with
  | nil => cases h
  | cons scope rest =>
    rwa [slotAt?, fromEnd?_cons_of_lt (Nat.lt_of_succ_lt_succ hsite)] at h

/-- Nor does a declaration. -/
theorem slotAt?_addSlot (added : Slot) (h : slotAt? scopes site = some slot) :
    slotAt? (addSlot added scopes) site = some slot := by
  cases scopes with
  | nil => exact h
  | cons scope rest =>
    rw [slotAt?, fromEnd?] at h
    rw [addSlot, slotAt?, fromEnd?]
    split at h
    · next hblock =>
      rw [if_pos hblock]
      exact fromEnd?_cons h
    · next hblock =>
      rw [if_neg hblock]
      exact h

/-! ### Writes -/

theorem length_setInScope (name : String) (value : Value) (scope : List Slot) :
    (setInScope name value scope).length = scope.length := by
  induction scope with
  | nil => rfl
  | cons first rest ih =>
    rw [setInScope]
    split
    · rfl
    · rw [List.length_cons, List.length_cons, ih]

theorem fromEnd?_setInScope_of_ne (value : Value) (h : indexOf? name scope ≠ some i) :
    fromEnd? (setInScope name value scope) i = fromEnd? scope i := by
  induction scope with
  | nil => rfl
  | cons first rest ih =>
    rw [indexOf?] at h
    rw [setInScope]
    split at h
    · next hname =>
      have hi : i ≠ rest.length := fun hi ↦ h (hi ▸ rfl)
      rw [if_pos hname, fromEnd?, if_neg hi, fromEnd?, if_neg hi]
    · next hname => rw [if_neg hname, fromEnd?, length_setInScope, ih h, fromEnd?]

theorem exists_fromEnd?_setInScope (name : String) (value : Value)
    (h : fromEnd? scope i = some slot) :
    ∃ v, fromEnd? (setInScope name value scope) i = some { slot with value := v } := by
  induction scope with
  | nil => cases h
  | cons first rest ih =>
    rw [fromEnd?] at h
    rw [setInScope]
    split at h
    · next hi =>
      obtain rfl := Option.some.inj h
      split
      · exact ⟨value, by rw [fromEnd?, if_pos hi]⟩
      · exact ⟨first.value, by rw [fromEnd?, length_setInScope, if_pos hi]⟩
    · next hi =>
      split
      · exact ⟨slot.value, by rw [fromEnd?, if_neg hi, h]⟩
      · rw [fromEnd?, length_setInScope, if_neg hi]
        exact ih h

/-- A write changes nothing at other sites than that of its name. -/
theorem slotAt?_setSlot_of_ne (value : Value) (h : siteOf? name scopes ≠ some site) :
    slotAt? (setSlot name value scopes) site = slotAt? scopes site := by
  induction scopes with
  | nil => rfl
  | cons scope rest ih =>
    rw [siteOf?] at h
    rw [setSlot_cons, ← isSome_indexOf?]
    split at h
    · next index hindex =>
      rw [hindex, Option.isSome_some, if_pos rfl, slotAt?, slotAt?, fromEnd?, fromEnd?]
      split
      · next hblock =>
        refine fromEnd?_setInScope_of_ne value fun hsite ↦ h ?_
        rw [hindex] at hsite
        rw [← hblock, Option.some.inj hsite]
      · rfl
    · next hindex =>
      rw [hindex, Option.isSome_none, if_neg Bool.false_ne_true, slotAt?, slotAt?, fromEnd?,
        length_setSlot, fromEnd?]
      split
      · rfl
      · exact ih h

/-- A write changes nothing of a variable but its value. -/
theorem exists_slotAt?_setSlot (name : String) (value : Value)
    (h : slotAt? scopes site = some slot) :
    ∃ v, slotAt? (setSlot name value scopes) site = some { slot with value := v } := by
  induction scopes with
  | nil => cases h
  | cons scope rest ih =>
    rw [slotAt?, fromEnd?] at h
    rw [setSlot_cons]
    split at h
    · next hblock =>
      split
      · rw [slotAt?, fromEnd?, if_pos hblock]
        exact exists_fromEnd?_setInScope name value h
      · exact ⟨slot.value, by rw [slotAt?, fromEnd?, length_setSlot, if_pos hblock]; exact h⟩
    · next hblock =>
      split
      · exact ⟨slot.value, by rw [slotAt?, fromEnd?, if_neg hblock]; exact h⟩
      · rw [slotAt?, fromEnd?, length_setSlot, if_neg hblock]
        exact ih h

/-! ### What a run leaves alone -/

/-- A variable stays where it is, with its name and its type. -/
theorem passage_slotAt? : Passage fun m m' ↦
    m'.scopes.length = m.scopes.length ∧ ∀ site slot, slotAt? m.scopes site = some slot →
      ∃ v, slotAt? m'.scopes site = some { slot with value := v } where
  refl m := ⟨rfl, fun _ slot h ↦ ⟨slot.value, h⟩⟩
  trans h₁ h₂ := by
    refine ⟨h₂.1.trans h₁.1, fun site slot h ↦ ?_⟩
    obtain ⟨v, hmid⟩ := h₁.2 site slot h
    exact h₂.2 site { slot with value := v } hmid
  tick m := ⟨rfl, fun _ slot h ↦ ⟨slot.value, h⟩⟩
  emit m _ := ⟨rfl, fun _ slot h ↦ ⟨slot.value, h⟩⟩
  store m name value :=
    ⟨length_setSlot _ _ _, fun _ _ h ↦ exists_slotAt?_setSlot name value h⟩
  declare m added :=
    ⟨length_addSlot _ _, fun _ slot h ↦ ⟨slot.value, slotAt?_addSlot added h⟩⟩
  block {m m'} h := by
    have hlength : m'.scopes.length = m.scopes.length + 1 := h.1
    refine ⟨by rw [Machine.leave_scopes, List.length_tail, hlength, Nat.add_sub_cancel], ?_⟩
    intro site slot hslot
    have hblock := lt_length_of_slotAt? hslot
    obtain ⟨v, hv⟩ := h.2 site slot (slotAt?_enter hslot)
    exact ⟨v, slotAt?_tail hv (by omega)⟩

/-- An assignment is executed of which the root is the variable at a site. -/
def Execution.Assigns (e : Execution) (site : Site) : Prop :=
  ∃ span root path op value, e.task = .stmt (.assign span root path op value) ∧
    siteOf? root.name e.start.scopes = some site

/-- What is stored is stored in the variable of the root. -/
theorem after_storeAt (setting : Setting) (root : String) (v : Value) (slot : Slot)
    (keys : List PathKey) (m : Machine) :
    after (storeAt setting root v slot keys m) = m ∨
      ∃ w, after (storeAt setting root v slot keys m) = m.stored root w := by
  cases keys with
  | nil =>
    rw [storeAt.eq_def]
    dsimp only
    split
    · exact .inr ⟨_, rfl⟩
    · exact .inl rfl
  | cons key rest =>
    rw [storeAt.eq_def]
    dsimp only
    split
    · next updated _ =>
      refine .inr ⟨updated, ?_⟩
      split
      · split <;> rfl
      · rfl
    · exact .inl rfl

theorem after_bind_pure {α β : Type} (x : Step α) (f : α → β) (m : Machine) :
    after ((do return f (← x)) m) = after (x m) := by
  rw [bind_apply]
  cases x m <;> rfl

/-- Keeping a variable as it is is a course. -/
theorem course_slotAt? (site : Site) (slot : Slot) : Course fun m m' ↦
    slotAt? m.scopes site = some slot → slotAt? m'.scopes site = some slot where
  refl _ := id
  trans h₁ h₂ := h₂ ∘ h₁
  tick _ := id
  emit _ _ := id

/-- Declarations keep it too. -/
theorem slotAt?_declare (name : String) (type : DeclType) (value : Value) :
    Moves (fun m m' ↦ slotAt? m.scopes site = some slot → slotAt? m'.scopes site = some slot)
      (declare name type value) := by
  intro m h
  rw [declare_apply]
  split
  · exact slotAt?_addSlot _ h
  · exact h

theorem slotAt?_exec_declare (span : Span) (type : DeclType) (name : Ident) (init : Option Expr) :
    Moves (fun m m' ↦ slotAt? m.scopes site = some slot → slotAt? m'.scopes site = some slot)
      (exec setting (.declare span type name init)) := by
  have hR := course_slotAt? site slot
  have hrest (value : Value) : Moves
      (fun m m' ↦ slotAt? m.scopes site = some slot → slotAt? m'.scopes site = some slot)
      (do declare name.name type value; return Flow.normal) :=
    hR.bind (slotAt?_declare name.name type value) fun _ ↦ hR.pure _
  refine hR.bind (hR.count setting) fun _ ↦ ?_
  cases init with
  | none => exact hR.bind (hR.pure _) hrest
  | some e => exact hR.bind (hR.eval setting e) hrest

/-- Assignments keep it if it is not their root. -/
theorem slotAt?_assign (root : String) (path : List Accessor) (op : AssignOp) (value : Expr)
    (hsite : siteOf? root m.scopes ≠ some site) :
    slotAt? (after (assign setting root path op value m)).scopes site = slotAt? m.scopes site := by
  have hprepare := course_prepare course_scopes setting root path op value m
  rw [assign_eq, bind_apply]
  generalize prepare setting root path op value m = prepared at hprepare ⊢
  rw [← hprepare] at hsite ⊢
  cases prepared with
  | error halt m₁ => rfl
  | ok p m₁ =>
    show slotAt? (after (storeAt setting root p.value p.slot p.keys m₁)).scopes site = _
    obtain hafter | ⟨w, hafter⟩ := after_storeAt setting root p.value p.slot p.keys m₁
    · rw [hafter, after_ok]
    · rw [hafter]
      exact slotAt?_setSlot_of_ne w hsite

theorem slotAt?_exec_assign (span : Span) {root : Ident} (path : List Accessor) (op : AssignOp)
    (value : Expr) (hsite : siteOf? root.name m.scopes ≠ some site) :
    slotAt? (after (exec setting (.assign span root path op value) m)).scopes site =
      slotAt? m.scopes site := by
  have htick := after_tick setting m
  rw [exec, bind_apply]
  generalize tick setting m = ticked at htick ⊢
  cases ticked with
  | error halt m₁ => exact congrArg (slotAt? ·.scopes site) htick
  | ok u m₁ =>
    obtain rfl : m₁ = m.ticked := htick
    have hassign : slotAt? (after (assign setting root.name path op value m.ticked)).scopes site =
        slotAt? m.scopes site := slotAt?_assign (m := m.ticked) root.name path op value hsite
    rw [← hassign]
    exact congrArg (slotAt? ·.scopes site) (after_bind_pure _ _ _)

/-- What a statement does itself leaves every variable alone, but for the root of an assignment. -/
theorem slotAt?_begin (setting : Setting) {s : Stmt} {r : Ended Flow}
    (hassigns : ¬ (⟨.stmt s, m, r⟩ : Execution).Assigns site)
    (h : slotAt? m.scopes site = some slot) :
    slotAt? (after (begin setting s m)).scopes site = some slot := by
  rcases hsets : setsVariable s with - | -
  · exact (course_slotAt? site slot).begin setting hsets m h
  · cases s with
    | declare span type name init =>
      have hdone : after (begin setting (.declare span type name init) m) =
          after (exec setting (.declare span type name init) m) := after_bind_pure _ _ m
      rw [hdone]
      exact slotAt?_exec_declare span type name init m h
    | assign span root path op value =>
      have hdone : after (begin setting (.assign span root path op value) m) =
          after (exec setting (.assign span root path op value) m) := after_bind_pure _ _ m
      rw [hdone]
      refine (slotAt?_exec_assign span path op value fun hsite ↦ ?_).trans h
      exact hassigns ⟨span, root, path, op, value, rfl, hsite⟩
    | _ => cases hsets

/-- What no executed assignment has as its root the whole run leaves alone. -/
theorem Runs.slotAt?_eq {t : Task} {trace : List Execution} {r : Ended Flow}
    (h : Runs setting t m trace r) (hassigns : ∀ e ∈ trace, ¬ e.Assigns site)
    (hslot : slotAt? m.scopes site = some slot) :
    slotAt? (after r).scopes site = some slot := by
  have hnext {l : Loop} {m m' next} (hnext : l.next setting m = .ok next m')
      (h : slotAt? m.scopes site = some slot) : slotAt? m'.scopes site = some slot := by
    rwa [(scopes_next setting l).of_ok hnext]
  induction h with
  | done => exact hslot
  | stmt hbegin _ ih =>
    obtain ⟨hself, hrest⟩ := List.forall_mem_cons.1 hassigns
    have hbegun := slotAt?_begin setting hself hslot
    rw [hbegin] at hbegun
    exact ih hrest hbegun
  | stmtHalts hbegin =>
    obtain ⟨hself, -⟩ := List.forall_mem_cons.1 hassigns
    have hbegun := slotAt?_begin setting hself hslot
    rwa [hbegin] at hbegun
  | @inner t m _ _ h ih =>
    have hblock := lt_length_of_slotAt? hslot
    have hlength := passage_depth.perform setting t m.enter
    rw [← h.result_eq] at hlength
    rw [after_leaving, Machine.leave_scopes]
    refine slotAt?_tail (ih (List.forall_mem_cons.1 hassigns).2 (slotAt?_enter hslot)) ?_
    rw [hlength, Machine.enter_scopes, List.length_cons]
    exact Nat.succ_lt_succ hblock
  | bound hdeclare _ ih =>
    refine ih (List.forall_mem_cons.1 hassigns).2 ?_
    exact (slotAt?_declare _ _ _).of_ok hdeclare hslot
  | boundHalts hdeclare => exact (slotAt?_declare _ _ _).of_error hdeclare hslot
  | listEnds => exact hslot
  | listNext _ _ _ ih ih' =>
    obtain ⟨hfirst, hrest⟩ := List.forall_mem_append.1 (List.forall_mem_cons.1 hassigns).2
    exact ih' hrest (ih hfirst hslot)
  | listLeft _ _ ih => exact ih (List.forall_mem_cons.1 hassigns).2 hslot
  | listHalts _ ih => exact ih (List.forall_mem_cons.1 hassigns).2 hslot
  | loopEnds h => exact hnext h hslot
  | loopHalts h =>
    rw [after_error, (scopes_next setting _).of_error h]
    exact hslot
  | loopNext h _ _ _ ih ih' =>
    obtain ⟨hround, hrest⟩ := List.forall_mem_append.1 (List.forall_mem_cons.1 hassigns).2
    exact ih' hrest (ih hround (hnext h hslot))
  | loopLeft h _ _ ih => exact ih (List.forall_mem_cons.1 hassigns).2 (hnext h hslot)
  | loopBroken h _ ih => exact ih (List.forall_mem_cons.1 hassigns).2 (hnext h hslot)

end Sites

/-- However a statement ends, and whatever the state in which it is taken up, as many blocks are
open behind it as before. They have the same variables, in the same order, of the same names and
types; only a declaration may have added its own to the innermost block. The value of a variable is
the same unless an assignment has been executed of which it was the root. And an expression changes
nothing at all. -/
theorem scope_discipline (setting : Setting) (s : Stmt) (m : Machine) :
    (∀ e : Expr, (after (eval setting e m)).scopes = m.scopes) ∧
      ∃ trace, Runs setting (.stmt s) m trace (exec setting s m) ∧
        (after (exec setting s m)).scopes.length = m.scopes.length ∧
        (∃ added, (after (exec setting s m)).known = addShown added m.known ∧
          (added = [] ∨ ∃ span type name init,
            s = .declare span type name init ∧ added = [(name.name, type)])) ∧
        ∀ site slot, slotAt? m.scopes site = some slot →
          ∃ v, slotAt? (after (exec setting s m)).scopes site = some { slot with value := v } ∧
            (v = slot.value ∨ ∃ e ∈ trace, e.Assigns site) := by
  obtain ⟨trace, r, hrun⟩ := Ends.of_stmt setting s m
  obtain rfl : r = exec setting s m := hrun.result_eq
  have hpassage := passage_slotAt?.exec setting s m
  refine ⟨fun e ↦ scopes_eval setting e m, trace, hrun, hpassage.1, ?_, fun site slot hslot ↦ ?_⟩
  · rcases hexec : exec setting s m with ⟨flow, m₁⟩ | ⟨halt, m₁⟩
    · refine ⟨s.signatures, known_of_exec hexec, ?_⟩
      cases s with
      | declare span type name init => exact .inr ⟨span, type, name, init, rfl, rfl⟩
      | _ => exact .inl rfl
    · exact ⟨[], (known_of_exec_halts hexec).trans (addShown_nil _).symm, .inl rfl⟩
  · obtain ⟨v, hv⟩ := hpassage.2 site slot hslot
    refine ⟨v, hv, ?_⟩
    by_cases hassigns : ∃ e ∈ trace, e.Assigns site
    · exact .inr hassigns
    · have hkept := hrun.slotAt?_eq (fun e he h ↦ hassigns ⟨e, he, h⟩) hslot
      exact .inl (congrArg Slot.value (Option.some.inj (hv.symm.trans hkept)))

end Snippet.Run
