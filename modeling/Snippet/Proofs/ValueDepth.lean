import Snippet.Proofs.ValueBounds

/-!
# How deep values nest

Collections nest in values to at most `maxNesting` levels, in all states of a run but one
(`nesting_bounded`): no expression has a deeper value, and no live local holds one.

What is built is held to the limit as it is built: literals and joined lists are. All the rest
takes values apart or, where a loop runs over a map and where `values` lists one, puts the parts
together again in as many levels as they were taken from. An assignment through a path is the one
exception. It stores first and looks at the limit afterwards, so that one variable may be left with
a value of up to twice the depth (`Overshot`); the fault that ends the run there is one of capacity.
`stored_beyond_limit` is such a run.
-/

namespace Snippet

namespace Value

variable {limit n : Nat} {v w : Value} {items : List Value} {entries : List (String × Value)}

/-! ### Depth -/

theorem itemDepth_le_iff : itemDepth items ≤ n ↔ ∀ v ∈ items, v.depth ≤ n := by
  induction items with
  | nil => simp [itemDepth]
  | cons first rest ih => rw [itemDepth, Nat.max_le, ih, List.forall_mem_cons]

theorem entryDepth_le_iff : entryDepth entries ≤ n ↔ ∀ e ∈ entries, e.2.depth ≤ n := by
  induction entries with
  | nil => simp [entryDepth]
  | cons first rest ih => rw [entryDepth, Nat.max_le, ih, List.forall_mem_cons]

theorem depth_le_itemDepth (h : v ∈ items) : v.depth ≤ itemDepth items :=
  itemDepth_le_iff.1 (Nat.le_refl _) v h

theorem depth_le_entryDepth {e : String × Value} (h : e ∈ entries) :
    e.2.depth ≤ entryDepth entries :=
  entryDepth_le_iff.1 (Nat.le_refl _) e h

/-- A list of values that are no collections is one level deep. -/
theorem depth_list_of_scalars (h : ∀ v ∈ items, v.isCollection = false) :
    (list items).depth ≤ 1 :=
  Nat.succ_le_succ (itemDepth_le_iff.2 fun v hv ↦ Nat.le_of_eq (depth_of_scalar (h v hv)))

/-- An entry is one level deeper than its value. -/
theorem depth_entry (key : String) (v : Value) (limit : Nat) :
    (entry key v limit).depth = v.depth + 1 := by
  simp [entry, depth, entryDepth]

end Value

namespace Run

open Script (Accessor AssignOp BinaryOp Builtin DeclType Expr Ident Program Stmt)

variable {setting : Setting} {m m' : Machine} {limit : Nat} {v w : Value} {items : List Value}
  {entries : List (String × Value)}

theorem depth_le_of_shaped (h : shaped limit v = .ok w) : w.depth ≤ maxNesting := by
  obtain ⟨rfl, -, hdepth⟩ := shaped_eq_ok h
  exact hdepth

/-! ### Reading -/

theorem depth_readItem {index : Value} (h : readItem items index = .ok w) :
    w.depth ≤ Value.itemDepth items := by
  rw [readItem] at h
  obtain ⟨i, -, h⟩ := except_bind_eq_ok_iff.1 h
  rcases hi : items[i]? with - | v
  · rw [hi] at h
    cases h
  · rw [hi] at h
    cases h
    exact Value.depth_le_itemDepth (List.mem_of_getElem? hi)

theorem depth_readEntry {key : String} (h : readEntry key entries = .ok w) :
    w.depth ≤ Value.entryDepth entries := by
  rw [readEntry] at h
  split at h
  · cases h
    obtain ⟨e, he, rfl⟩ := mem_of_lookup ‹_›
    exact Value.depth_le_entryDepth he
  · cases h

theorem depth_readIndex {index : Value} (h : readIndex v index = .ok w) : w.depth ≤ v.depth := by
  cases v with
  | list items => exact Nat.le_succ_of_le (depth_readItem h)
  | string s =>
    obtain ⟨i, -, h⟩ := except_bind_eq_ok_iff.1 h
    split at h
    · cases h
      exact Nat.zero_le _
    · cases h
  | map entries =>
    obtain ⟨key, -, h⟩ := except_bind_eq_ok_iff.1 h
    exact Nat.le_succ_of_le (depth_readEntry h)
  | _ => cases h

theorem depth_readMember {name : String} (h : readMember v name = .ok w) : w.depth ≤ v.depth := by
  rw [readMember.eq_def] at h
  dsimp only at h
  split at h
  · cases h
    exact Nat.zero_le _
  · cases v with
    | map entries => exact Nat.le_succ_of_le (depth_readEntry h)
    | object kind fields display =>
      dsimp only at h
      rcases hlookup : fields.lookup name with - | u
      · rw [hlookup] at h
        cases h
      · rw [hlookup] at h
        cases h
        obtain ⟨f, hf, rfl⟩ := mem_of_lookup hlookup
        exact Nat.le_succ_of_le (Value.depth_le_entryDepth hf)
    | _ => cases h

/-- The items of a loop are no deeper than the collection, entries of a map included. -/
theorem depth_itemsOf (h : itemsOf limit v = .ok items) : ∀ item ∈ items, item.depth ≤ v.depth := by
  cases v with
  | list items =>
    cases h
    exact fun item hitem ↦ Nat.le_succ_of_le (Value.depth_le_itemDepth hitem)
  | map entries =>
    cases h
    intro item hitem
    obtain ⟨⟨k, x⟩, he, rfl⟩ := List.mem_map.1 hitem
    rw [Value.depth_entry]
    exact Nat.succ_le_succ (Value.depth_le_entryDepth he)
  | string s =>
    cases h
    intro item hitem
    obtain ⟨c, -, rfl⟩ := List.mem_map.1 hitem
    exact Nat.zero_le _
  | _ => cases h

theorem depth_coerce {type : DeclType} (h : coerce type v = .ok w) : w.depth ≤ v.depth := by
  unfold coerce at h
  split at h
  · cases h
    exact Nat.zero_le _
  · split at h
    · cases h
      exact Nat.le_refl _
    · cases h

/-! ### Operators and helpers -/

theorem depth_applyArithmetic {op : BinaryOp} {a b : Value}
    (h : applyArithmetic limit op a b = .ok v) : v.depth ≤ maxNesting := by
  have hscalar (hv : v.isCollection = false) : v.depth ≤ maxNesting := by
    rw [Value.depth_of_scalar hv]
    exact Nat.zero_le _
  rw [applyArithmetic.eq_def] at h
  dsimp only at h
  split at h
  · exact hscalar (scalar_concat h)
  · exact hscalar (scalar_concat h)
  · rw [append] at h
    split at h
    · cases h
    · exact depth_le_of_shaped h
  · exact hscalar (scalar_applyInt h)
  · split at h
    · rcases hx : applyFloat? _ _ _ with - | x
      · rw [hx] at h
        cases h
      · rw [hx] at h
        cases h
        exact Nat.zero_le _
    · cases h

/-- Of the binary operators only the concatenation of lists builds a collection, and it holds it
to the limit, however deep the operands are. -/
theorem depth_apply {op : BinaryOp} {a b : Value} (h : apply limit op a b = .ok v) :
    v.depth ≤ maxNesting := by
  have hordered (hv : v.isCollection = false) : v.depth ≤ maxNesting := by
    rw [Value.depth_of_scalar hv]
    exact Nat.zero_le _
  cases op with
  | eq =>
    cases h
    exact Nat.zero_le _
  | ne =>
    cases h
    exact Nat.zero_le _
  | lt => exact hordered (scalar_of_ordered h)
  | le => exact hordered (scalar_of_ordered h)
  | gt => exact hordered (scalar_of_ordered h)
  | ge => exact hordered (scalar_of_ordered h)
  | _ => exact depth_applyArithmetic h

theorem depth_entriesOf {helper : String} (h : entriesOf helper v = .ok entries) :
    v.depth = Value.entryDepth entries + 1 := by
  cases v with
  | map _ =>
    cases h
    rfl
  | object _ _ _ =>
    cases h
    rfl
  | _ => cases h

theorem depth_rangeOf {args : List Value} (h : rangeOf limit args = .ok v) : v.depth ≤ 1 := by
  have hrange {start stop : Int} (h : (if limit < (stop - start).toNat then
        .error (.tooManyElements limit)
      else .ok (.list ((List.range (stop - start).toNat).map fun (i : Nat) ↦
        .int (.ofInt (start + i)))) : Except Fault Value) = .ok v) : v.depth ≤ 1 := by
    split at h
    · cases h
    · cases h
      refine Value.depth_list_of_scalars fun v hv ↦ ?_
      obtain ⟨i, -, rfl⟩ := List.mem_map.1 hv
      rfl
  rw [rangeOf.eq_def] at h
  obtain ⟨bounds, -, h⟩ := except_bind_eq_ok_iff.1 h
  dsimp only at h
  split at h
  · exact hrange h
  · exact hrange h
  · cases h

/-- A helper lists the keys or the values of its argument in no more levels than that has. -/
theorem depth_helperValue {b : Builtin} {args : List Value} (h : helperValue limit b args = .ok v) :
    v.depth ≤ max 1 (argument args 0).depth := by
  have hscalar (hv : v.isCollection = false) : v.depth ≤ max 1 (argument args 0).depth := by
    rw [Value.depth_of_scalar hv]
    exact Nat.zero_le _
  cases b with
  | keys =>
    obtain ⟨fields, -, hpure⟩ := except_bind_eq_ok_iff.1 h
    cases hpure
    exact Nat.le_trans (Value.depth_list_of_scalars fun v hv ↦ scalar_of_mem_keys hv)
      (Nat.le_max_left ..)
  | values =>
    obtain ⟨fields, hfields, hpure⟩ := except_bind_eq_ok_iff.1 h
    cases hpure
    rw [depth_entriesOf hfields]
    refine Nat.le_trans (Nat.succ_le_succ (Value.itemDepth_le_iff.2 fun v hv ↦ ?_))
      (Nat.le_max_right ..)
    obtain ⟨e, he, rfl⟩ := List.mem_map.1 hv
    exact Value.depth_le_entryDepth he
  | range => exact Nat.le_trans (depth_rangeOf h) (Nat.le_max_left ..)
  | len => exact hscalar (scalar_lengthOf h)
  | join => exact hscalar (scalar_joinOf h)
  | upper => exact hscalar (scalar_mapText h)
  | lower => exact hscalar (scalar_mapText h)
  | abs => exact hscalar (scalar_absOf h)
  | min => exact hscalar (scalar_pick h)
  | max => exact hscalar (scalar_pick h)
  | contains => exact hscalar (scalar_containsOf h)
  | respond =>
    cases h
    refine hscalar ?_
    rw [respondWith.eq_def]
    split <;> rfl
  | _ =>
    cases h
    exact Nat.zero_le _

theorem depth_user (i : Identity) : (Value.user i).depth ≤ 1 := by
  refine Nat.succ_le_succ (Value.entryDepth_le_iff.2 fun f hf ↦
    Nat.le_of_eq (Value.depth_of_scalar ?_))
  simp only [List.mem_cons, List.not_mem_nil, or_false] at hf
  obtain rfl | rfl | rfl := hf
  · dsimp only
    split <;> rfl
  · rfl
  · cases i.avatar <;> rfl

theorem depth_color (c : Color) : (Value.color c).depth ≤ 1 := by
  refine Nat.succ_le_succ (Value.entryDepth_le_iff.2 fun f hf ↦
    Nat.le_of_eq (Value.depth_of_scalar ?_))
  simp only [List.mem_cons, List.not_mem_nil, or_false] at hf
  obtain rfl | rfl | rfl | rfl := hf <;> rfl

theorem depth_callBuiltin {b : Builtin} {args : List Value}
    (h : callBuiltin setting b args m = .ok v m') : v.depth ≤ max 1 (argument args 0).depth := by
  cases b with
  | emitReply =>
    obtain ⟨_, _, -, hpure⟩ := bind_eq_ok_iff.1 h
    cases hpure
    exact Nat.zero_le _
  | invokerIdentity =>
    cases h
    exact Nat.le_trans (depth_user _) (Nat.le_max_left ..)
  | brandingAccent =>
    obtain ⟨color, _, -, h⟩ := bind_eq_ok_iff.1 h
    cases color with
    | none =>
      cases h
      exact Nat.zero_le _
    | some c =>
      cases h
      exact Nat.le_trans (depth_color c) (Nat.le_max_left ..)
  | _ =>
    rw [callBuiltin_of_helper rfl, lift_eq_ok_iff] at h
    exact depth_helperValue h.1

/-- A call is no deeper than the limit if its arguments are not. -/
theorem depth_invoke {name : String} {args : Step (List Value)}
    (h : invoke setting name args m = .ok v m')
    (hargs : ∀ vs m₁, args m = .ok vs m₁ → ∀ v ∈ vs, v.depth ≤ maxNesting) :
    v.depth ≤ maxNesting := by
  obtain ⟨b, vs, m₁, -, hvs, -, hcall⟩ := invoke_eq_ok h
  refine Nat.le_trans (depth_callBuiltin hcall) (Nat.max_le.2 ⟨by decide, ?_⟩)
  rw [argument]
  rcases hget : vs[0]? with - | u
  · exact Nat.zero_le _
  · exact hargs vs m₁ hvs u (List.mem_of_getElem? hget)

/-! ### Evaluation -/

/-- A variable that holds no deeper value than the limit allows. -/
def Slot.Shallow (slot : Slot) : Prop :=
  slot.value.depth ≤ maxNesting

theorem shallow_of_eval {e : Expr} (hm : AllSlots Slot.Shallow m.scopes)
    (h : eval setting e m = .ok v m') : AllSlots Slot.Shallow m'.scopes := by
  rw [show m'.scopes = m.scopes from (course_scopes.eval setting e).of_ok h]
  exact hm

mutual

/-- The value of an expression keeps the limit where the variables do. -/
theorem depth_eval : ∀ (e : Expr) {m m' : Machine} {v : Value}, AllSlots Slot.Shallow m.scopes →
    eval setting e m = .ok v m' → v.depth ≤ maxNesting
  | .literal _ value, _, _, _, _, h => by
    obtain ⟨_, _, -, h⟩ := bind_eq_ok_iff.1 h
    cases h
    cases value <;> exact Nat.zero_le _
  | .name _ name, _, _, _, hm, h => by
    replace h := ok_of_tick h
    obtain ⟨slot, _, hlookup, hpure⟩ := bind_eq_ok_iff.1 h
    obtain ⟨hslot, rfl⟩ := lookup_eq_ok_iff.1 hlookup
    cases hpure
    exact hm.of_find hslot
  | .list _ items, _, _, _, _, h => by
    replace h := ok_of_tick h
    obtain ⟨_, _, -, h⟩ := bind_eq_ok_iff.1 h
    obtain ⟨_, _, -, h⟩ := bind_eq_ok_iff.1 h
    exact depth_le_of_shaped (lift_eq_ok_iff.1 h).1
  | .map _ entries, _, _, _, _, h => by
    replace h := ok_of_tick h
    obtain ⟨_, _, -, h⟩ := bind_eq_ok_iff.1 h
    obtain ⟨_, _, -, h⟩ := bind_eq_ok_iff.1 h
    exact depth_le_of_shaped (lift_eq_ok_iff.1 h).1
  | .unary _ _ operand, _, _, _, _, h => by
    obtain ⟨_, _, -, h⟩ := bind_eq_ok_iff.1 h
    obtain ⟨_, _, -, h⟩ := bind_eq_ok_iff.1 h
    rw [Value.depth_of_scalar (scalar_applyUnary (lift_eq_ok_iff.1 h).1)]
    exact Nat.zero_le _
  | .binary _ op lhs rhs, _, _, _, _, h => by
    replace h := ok_of_tick h
    obtain ⟨_, _, -, h⟩ := bind_eq_ok_iff.1 h
    split at h
    · obtain ⟨_, _, -, h⟩ := bind_eq_ok_iff.1 h
      split at h
      · obtain ⟨_, _, -, h⟩ := bind_eq_ok_iff.1 h
        obtain ⟨_, _, -, h⟩ := bind_eq_ok_iff.1 h
        cases h
        exact Nat.zero_le _
      · cases h
        exact Nat.zero_le _
    · obtain ⟨_, _, -, h⟩ := bind_eq_ok_iff.1 h
      split at h
      · cases h
        exact Nat.zero_le _
      · obtain ⟨_, _, -, h⟩ := bind_eq_ok_iff.1 h
        obtain ⟨_, _, -, h⟩ := bind_eq_ok_iff.1 h
        cases h
        exact Nat.zero_le _
    · obtain ⟨_, _, -, h⟩ := bind_eq_ok_iff.1 h
      exact depth_apply (lift_eq_ok_iff.1 h).1
  | .ternary _ cond yes no, m, _, _, hm, h => by
    replace h := ok_of_tick h
    obtain ⟨c, m₁, hcond, h⟩ := bind_eq_ok_iff.1 h
    obtain ⟨holds, _, hlift, h⟩ := bind_eq_ok_iff.1 h
    obtain ⟨-, rfl⟩ := lift_eq_ok_iff.1 hlift
    have hm₁ := shallow_of_eval (m := m.ticked) hm hcond
    have hyes {m' v} (h : eval setting yes m₁ = .ok v m') := depth_eval yes hm₁ h
    have hno {m' v} (h : eval setting no m₁ = .ok v m') := depth_eval no hm₁ h
    cases holds with
    | true => exact hyes h
    | false => exact hno h
  | .call _ callee args, m, _, _, hm, h => by
    have hargs {m m' vs} (hm : AllSlots Slot.Shallow m.scopes)
        (h : evalItems setting args m = .ok vs m') := depth_evalItems args hm h
    cases callee with
    | name _ name =>
      replace h := ok_of_tick h
      exact depth_invoke h fun vs m₁ hvs ↦ hargs (m := m.ticked) hm hvs
    | member _ target field =>
      replace h := ok_of_tick h
      obtain ⟨receiver, m₁, hreceiver, h⟩ := bind_eq_ok_iff.1 h
      have hfirst := depth_eval target (m := m.ticked) hm hreceiver
      have hm₁ := shallow_of_eval (m := m.ticked) hm hreceiver
      refine depth_invoke h fun vs m₂ hvs ↦ ?_
      obtain ⟨vs', _, hvs', hpure⟩ := bind_eq_ok_iff.1 hvs
      cases hpure
      exact List.forall_mem_cons.2 ⟨hfirst, hargs hm₁ hvs'⟩
    | _ =>
      obtain ⟨_, _, -, h⟩ := bind_eq_ok_iff.1 h
      cases h
  | .index _ target index, m, _, _, hm, h => by
    replace h := ok_of_tick h
    obtain ⟨u, m₁, htarget, h⟩ := bind_eq_ok_iff.1 h
    obtain ⟨i, _, -, h⟩ := bind_eq_ok_iff.1 h
    exact Nat.le_trans (depth_readIndex (lift_eq_ok_iff.1 h).1)
      (depth_eval target (m := m.ticked) hm htarget)
  | .member _ target field, m, _, _, hm, h => by
    replace h := ok_of_tick h
    obtain ⟨u, m₁, htarget, h⟩ := bind_eq_ok_iff.1 h
    exact Nat.le_trans (depth_readMember (lift_eq_ok_iff.1 h).1)
      (depth_eval target (m := m.ticked) hm htarget)

theorem depth_evalItems : ∀ (es : List Expr) {m m' : Machine} {vs : List Value},
    AllSlots Slot.Shallow m.scopes → evalItems setting es m = .ok vs m' →
      ∀ v ∈ vs, v.depth ≤ maxNesting
  | [], _, _, _, _, h => by
    cases h
    nofun
  | e :: rest, _, _, _, hm, h => by
    obtain ⟨v, m₁, vs, hv, hvs, rfl⟩ := evalItems_cons_eq_ok h
    have hfirst := depth_eval e hm hv
    have hrest := depth_evalItems rest (shallow_of_eval hm hv) hvs
    exact List.forall_mem_cons.2 ⟨hfirst, hrest⟩

end

/-! ### Statements -/

theorem itemDepth_set_le (items : List Value) (i : Nat) (new : Value) :
    Value.itemDepth (items.set i new) ≤ max (Value.itemDepth items) new.depth := by
  refine Value.itemDepth_le_iff.2 fun u hu ↦ ?_
  rcases List.mem_or_eq_of_mem_set hu with hu | rfl
  · exact Nat.le_trans (Value.depth_le_itemDepth hu) (Nat.le_max_left ..)
  · exact Nat.le_max_right ..

theorem entryDepth_putEntry_le (k : String) (new : Value) (entries : List (String × Value)) :
    Value.entryDepth (putEntry k new entries) ≤ max (Value.entryDepth entries) new.depth := by
  refine Value.entryDepth_le_iff.2 fun e he ↦ ?_
  rcases mem_putEntry he with heq | ⟨e', he', heq⟩
  · rw [heq]
    exact Nat.le_max_right ..
  · rw [← heq]
    exact Nat.le_trans (Value.depth_le_entryDepth he') (Nat.le_max_left ..)

/-- A write nests the new value no deeper than there are levels around it. -/
theorem Written.depth_le {new : Value} {keys : List PathKey} (h : Written limit new keys v w) :
    w.depth ≤ v.depth + new.depth := by
  induction h with
  | here => exact Nat.le_add_left ..
  | @item index rest items i v w _ hv _ ih =>
    have hdepth := Value.depth_le_itemDepth (List.mem_of_getElem? hv)
    have hset := itemDepth_set_le items i w
    rw [Value.depth, Value.depth]
    omega
  | @entry key k rest entries v w _ hv _ ih =>
    obtain ⟨e, he, rfl⟩ := mem_of_lookup hv
    have hdepth := Value.depth_le_entryDepth he
    have hput := entryDepth_putEntry_le k w entries
    rw [Value.depth, Value.depth]
    omega
  | @added key k entries _ _ _ =>
    have hput := entryDepth_putEntry_le k new entries
    rw [Value.depth, Value.depth]
    omega

/-- Variables of which one alone is deeper than the limit allows, by at most as much again. -/
structure Overshot (scopes : List (List Slot)) : Prop where
  bounded : ∀ scope ∈ scopes, ∀ slot ∈ scope, slot.value.depth ≤ 2 * maxNesting
  sole : scopes.flatten.countP (fun slot ↦ decide (maxNesting < slot.value.depth)) = 1

section Overshot

variable {scopes scopes' : List (List Slot)} {name : String} {value : Value}

/-- Where at most one variable is too deep, either none is or this one is alone. -/
theorem shallow_or_overshot
    (hbounded : ∀ scope ∈ scopes, ∀ slot ∈ scope, slot.value.depth ≤ 2 * maxNesting)
    (hcount : scopes.flatten.countP (fun slot ↦ decide (maxNesting < slot.value.depth)) ≤ 1) :
    AllSlots Slot.Shallow scopes ∨ Overshot scopes := by
  rcases Nat.lt_or_eq_of_le hcount with hnone | hone
  · rw [Nat.lt_one_iff, List.countP_eq_zero] at hnone
    refine .inl fun scope hscope slot hslot ↦ Nat.not_lt.1 fun hlt ↦ ?_
    exact hnone slot (List.mem_flatten_of_mem hscope hslot) (decide_eq_true hlt)
  · exact .inr ⟨hbounded, hone⟩

/-- Blocks that are left take their variables with them. -/
theorem Overshot.suffix (h : Overshot scopes) (hsuffix : scopes' <:+ scopes) :
    AllSlots Slot.Shallow scopes' ∨ Overshot scopes' := by
  refine shallow_or_overshot (fun scope hscope ↦ h.bounded scope (hsuffix.subset hscope)) ?_
  rw [← h.sole]
  obtain ⟨left, rfl⟩ := hsuffix
  rw [List.flatten_append, List.countP_append]
  exact Nat.le_add_left ..

theorem countP_setInScope_le {p : Slot → Bool} {scope : List Slot} (h : ∀ s ∈ scope, p s = false) :
    (setInScope name value scope).countP p ≤ 1 := by
  induction scope with
  | nil => exact Nat.zero_le _
  | cons s rest ih =>
    obtain ⟨hs, hrest⟩ := List.forall_mem_cons.1 h
    rw [setInScope]
    split
    · have hnone : rest.countP p = 0 :=
        List.countP_eq_zero.2 fun s hs ↦ Bool.eq_false_iff.1 (hrest s hs)
      rw [List.countP_cons, hnone]
      split
      · exact Nat.le_refl _
      · exact Nat.zero_le _
    · rw [List.countP_cons_of_neg (Bool.eq_false_iff.1 hs)]
      exact ih hrest

/-- A write changes one variable. -/
theorem countP_setSlot_le {p : Slot → Bool} (h : ∀ scope ∈ scopes, ∀ s ∈ scope, p s = false)
    (name : String) (value : Value) :
    (setSlot name value scopes).flatten.countP p ≤ 1 := by
  induction scopes with
  | nil => exact Nat.zero_le _
  | cons scope rest ih =>
    obtain ⟨hscope, hrest⟩ := List.forall_mem_cons.1 h
    have hnone {slots : List Slot} (h : ∀ s ∈ slots, p s = false) : slots.countP p = 0 :=
      List.countP_eq_zero.2 fun s hs ↦ Bool.eq_false_iff.1 (h s hs)
    rw [setSlot]
    split
    · have hflat : ∀ s ∈ rest.flatten, p s = false := by
        intro s hs
        obtain ⟨scope, hmem, hs⟩ := List.mem_flatten.1 hs
        exact hrest scope hmem s hs
      rw [List.flatten_cons, List.countP_append, hnone hflat]
      exact countP_setInScope_le hscope
    · rw [List.flatten_cons, List.countP_append, hnone hscope, Nat.zero_add]
      exact ih hrest

end Overshot

/-- A halt by a fault of capacity. -/
def Halt.IsCapacity : Halt → Prop
  | .fault f => f.typeName = "CapacityExceededError"
  | .breakdown _ => False

/-- A computation keeps the limit in all variables. If it is exempt, it may halt for a lack of
capacity and leave one deeper value behind. -/
def StaysShallow {α : Type} (exempt : Prop) : Ended α → Prop
  | .ok _ m => AllSlots Slot.Shallow m.scopes
  | .error halt m =>
    AllSlots Slot.Shallow m.scopes ∨ exempt ∧ halt.IsCapacity ∧ Overshot m.scopes

namespace StaysShallow

variable {α β : Type} {exempt exempt' : Prop}

theorem of_scopes {r : Ended α} (h : (after r).scopes = m.scopes)
    (hm : AllSlots Slot.Shallow m.scopes) : StaysShallow exempt r := by
  rw [← h] at hm
  cases r with
  | ok _ _ => exact hm
  | error _ _ => exact .inl hm

theorem bind {x : Step α} {f : α → Step β} (hx : Moves (fun m m' ↦ m'.scopes = m.scopes) x)
    (hm : AllSlots Slot.Shallow m.scopes)
    (hf : ∀ a m', x m = .ok a m' → AllSlots Slot.Shallow m'.scopes →
      StaysShallow exempt (f a m')) : StaysShallow exempt ((x >>= f) m) := by
  have hscopes : (after (x m)).scopes = m.scopes := hx m
  rw [bind_apply]
  rcases hxm : x m with ⟨a, m'⟩ | ⟨halt, m'⟩
  · rw [hxm, after_ok] at hscopes
    exact hf a m' hxm (hscopes ▸ hm)
  · rw [hxm] at hscopes
    exact of_scopes hscopes hm

theorem map {x : Step α} (f : α → β) (h : StaysShallow exempt (x m)) :
    StaysShallow exempt ((do return f (← x)) m) := by
  rw [bind_apply]
  cases hx : x m <;> rw [hx] at h <;> exact h

theorem mono {r : Ended α} (h : StaysShallow exempt r) (hexempt : exempt → exempt') :
    StaysShallow exempt' r := by
  cases r with
  | ok _ _ => exact h
  | error _ _ => exact h.imp_right (And.imp_left hexempt)

theorem leaves {r : Ended α} (h : StaysShallow exempt r) :
    Leaves Slot.Shallow (fun _ ↦ True) r := by
  cases r with
  | ok _ _ => exact h
  | error _ _ => exact fun _ _ _ _ ↦ trivial

end StaysShallow

theorem staysShallow_declare (span : Span) (type : DeclType) (name : Ident) (init : Option Expr)
    (hm : AllSlots Slot.Shallow m.scopes) :
    StaysShallow False (exec setting (.declare span type name init) m) := by
  have hbind {v : Value} (hv : v.depth ≤ maxNesting) {m : Machine}
      (hm : AllSlots Slot.Shallow m.scopes) :
      StaysShallow False ((do declare name.name type v; return Flow.normal : Step Flow) m) := by
    refine StaysShallow.map (fun _ ↦ Flow.normal) ?_
    rw [declare_apply]
    rcases hcoerce : coerce type v with fault | w
    · exact .inl hm
    · exact hm.addSlot (Nat.le_trans (depth_coerce hcoerce) hv)
  refine StaysShallow.bind (course_scopes.count setting) hm fun _ m₁ _ hm₁ ↦ ?_
  cases init with
  | some init =>
    exact StaysShallow.bind (course_scopes.eval setting init) hm₁ fun v _ hv ↦
      hbind (depth_eval init hm₁ hv)
  | none =>
    refine hbind ?_ hm₁
    cases type <;> exact Nat.zero_le _

/-- What an assignment is about to store keeps the limit. -/
theorem depth_prepare {root : String} {path : List Accessor} {op : AssignOp} {e : Expr}
    {p : Prepared} (hm : AllSlots Slot.Shallow m.scopes)
    (h : prepare setting root path op e m = .ok p m') : p.value.depth ≤ maxNesting := by
  obtain ⟨keys, m₁, hkeys, h⟩ := bind_eq_ok_iff.1 h
  have hm₁ : AllSlots Slot.Shallow m₁.scopes := by
    rw [show m₁.scopes = m.scopes from (course_scopes.evalPath setting path).of_ok hkeys]
    exact hm
  obtain ⟨v, m₂, hv, h⟩ := bind_eq_ok_iff.1 h
  obtain ⟨w, m₃, hw, h⟩ := bind_eq_ok_iff.1 h
  obtain ⟨slot, m₄, -, hpure⟩ := bind_eq_ok_iff.1 h
  cases hpure
  rw [assignedValue.eq_def] at hw
  rcases hop : op.binary? with - | operator
  · rw [hop] at hw
    cases hw
    exact depth_eval e hm₁ hv
  · rw [hop] at hw
    obtain ⟨slot', _, -, hw⟩ := bind_eq_ok_iff.1 hw
    obtain ⟨current, _, -, happly⟩ := bind_eq_ok_iff.1 hw
    exact depth_apply (lift_eq_ok_iff.1 happly).1

/-- An assignment without a path prepares no keys. -/
theorem path_ne_nil_of_prepare {root : String} {path : List Accessor} {op : AssignOp} {e : Expr}
    {p : Prepared} (h : prepare setting root path op e m = .ok p m') (hkeys : p.keys ≠ []) :
    path ≠ [] := by
  rintro rfl
  obtain ⟨keys, m₁, hpath, h⟩ := bind_eq_ok_iff.1 h
  obtain ⟨v, m₂, -, h⟩ := bind_eq_ok_iff.1 h
  obtain ⟨w, m₃, -, h⟩ := bind_eq_ok_iff.1 h
  obtain ⟨slot, m₄, -, hpure⟩ := bind_eq_ok_iff.1 h
  cases hpure
  cases hpath
  exact hkeys rfl

/-- A scalar makes no collection deeper, and with a collection inside the whole is looked at. -/
theorem staysShallow_storeAt {root : String} {slot : Slot} (keys : List PathKey)
    (hm : AllSlots Slot.Shallow m.scopes) (hslot : findSlot? root m.scopes = some slot)
    (hv : v.depth ≤ maxNesting) :
    StaysShallow (keys ≠ []) (storeAt setting root v slot keys m) := by
  cases keys with
  | nil =>
    rw [storeAt.eq_def]
    dsimp only
    rcases hcoerce : coerce slot.type v with fault | w
    · exact .inl hm
    · exact hm.setSlot hslot (Nat.le_trans (depth_coerce hcoerce) hv)
  | cons key rest =>
    rw [storeAt.eq_def]
    dsimp only
    rcases hwrite : writePath _ v (key :: rest) slot.value with fault | updated
    · exact .inl hm
    · have hroot : slot.value.depth ≤ maxNesting := hm.of_find hslot
      have hdepth := (written_of_writePath hwrite).depth_le
      dsimp only
      split
      · rcases hshaped : shaped setting.limits.maxElements updated with fault | w
        · -- the value is stored before it is looked at
          have hover : AllSlots (fun slot ↦ slot.value.depth ≤ 2 * maxNesting)
              (m.stored root updated).scopes := by
            refine AllSlots.setSlot (hm.mono fun slot h ↦ ?_) hslot ?_
            · exact Nat.le_trans h (Nat.le_mul_of_pos_left _ Nat.two_pos)
            · show updated.depth ≤ 2 * maxNesting
              omega
          have hone := countP_setSlot_le (fun scope hscope slot hmem ↦
            decide_eq_false (Nat.not_lt.2 (hm scope hscope slot hmem))) root updated
          exact (shallow_or_overshot hover hone).imp_right
            fun h ↦ ⟨List.cons_ne_nil _ _, typeName_of_shaped hshaped, h⟩
        · have hw := (shaped_eq_ok hshaped).1
          exact hm.setSlot hslot (hw ▸ depth_le_of_shaped hshaped)
      · next hscalar =>
        rw [Value.depth_of_scalar (Bool.eq_false_iff.2 hscalar)] at hdepth
        exact hm.setSlot hslot (Nat.le_trans hdepth hroot)

theorem staysShallow_assign (span : Span) (root : Ident) (path : List Accessor) (op : AssignOp)
    (value : Expr) (hm : AllSlots Slot.Shallow m.scopes) :
    StaysShallow (path ≠ []) (exec setting (.assign span root path op value) m) := by
  refine StaysShallow.bind (course_scopes.count setting) hm fun _ m₁ _ hm₁ ↦ ?_
  refine StaysShallow.map (fun _ ↦ Flow.normal) ?_
  rw [assign_eq]
  exact StaysShallow.bind (course_prepare course_scopes setting _ path op value) hm₁
    fun p m₂ hp hm₂ ↦ (staysShallow_storeAt p.keys hm₂ (findSlot?_of_prepare hp)
      (depth_prepare hm₁ hp)).mono (path_ne_nil_of_prepare hp)

/-- A statement that assigns through a path. -/
def AssignsThroughPath (s : Stmt) : Prop :=
  ∃ span root path op value, path ≠ [] ∧ s = .assign span root path op value

theorem staysShallow_begin {s : Stmt} {r : Ended Task} (h : begin setting s m = r)
    (hm : AllSlots Slot.Shallow m.scopes) : StaysShallow (AssignsThroughPath s) r := by
  rw [← h]
  cases s with
  | declare _ _ _ _ => exact .map Task.done ((staysShallow_declare _ _ _ _ hm).mono False.elim)
  | assign _ _ _ _ _ =>
    exact .map Task.done ((staysShallow_assign _ _ _ _ _ hm).mono fun hpath ↦
      ⟨_, _, _, _, _, hpath, rfl⟩)
  | _ => exact .of_scopes (course_scopes.begin setting rfl m) hm

/-! ### Runs -/

/-- Declarations, loop variables and assignments keep the limit. -/
theorem kept_shallow (setting : Setting) :
    Kept setting (fun _ _ ↦ True) Slot.Shallow (fun _ ↦ True) fun v ↦ v.depth ≤ maxNesting where
  left _ _ := trivial
  items hm heval hitems item hitem :=
    Nat.le_trans (depth_itemsOf hitems item hitem) (depth_eval _ hm heval)
  bind hitem hcoerce := Nat.le_trans (depth_coerce hcoerce) hitem
  declare hm _ := (staysShallow_declare _ _ _ _ hm).leaves
  assign hm _ := (staysShallow_assign _ _ _ _ _ hm).leaves

/-- Some variables are left by an assignment through a path that has been refused for a lack of
capacity, when blocks around it have been left too: one of them is deeper than the limit. -/
structure Execution.Overshoots (e : Execution) (halt : Halt) (scopes : List (List Slot)) :
    Prop where
  task : ∃ s, AssignsThroughPath s ∧ e.task = .stmt s
  result : ∃ left, e.result = .error halt left ∧ scopes <:+ left.scopes
  capacity : halt.IsCapacity
  overshot : Overshot scopes

theorem Execution.Overshoots.tail {e : Execution} {halt : Halt} {scopes : List (List Slot)}
    (h : e.Overshoots halt scopes) :
    AllSlots Slot.Shallow scopes.tail ∨ e.Overshoots halt scopes.tail := by
  refine (h.overshot.suffix (List.tail_suffix scopes)).imp_right fun hover ↦ ?_
  obtain ⟨left, hresult, hsuffix⟩ := h.result
  exact ⟨h.task, ⟨left, hresult, (List.tail_suffix scopes).trans hsuffix⟩, h.capacity, hover⟩

/-- What a task that halts leaves behind, if everything on the way was taken up within the limit:
the halt comes from one statement, and the blocks that are left behind it hold no other
variables. -/
theorem Runs.shallow_or_overshoots {t : Task} {trace : List Execution} {r : Ended Flow}
    (h : Runs setting t m trace r)
    (hstarts : ∀ e ∈ trace, AllSlots Slot.Shallow e.start.scopes) {halt : Halt}
    (hr : r = .error halt m') :
    AllSlots Slot.Shallow m'.scopes ∨ ∃ e ∈ trace, e.Overshoots halt m'.scopes := by
  -- what is on the way of a part is on the way of the whole
  have hpart {trace trace' : List Execution} {scopes : List (List Slot)} (hsubset : trace ⊆ trace')
      (h : AllSlots Slot.Shallow scopes ∨ ∃ e ∈ trace, e.Overshoots halt scopes) :
      AllSlots Slot.Shallow scopes ∨ ∃ e ∈ trace', e.Overshoots halt scopes :=
    h.imp_right fun ⟨e, he, hover⟩ ↦ ⟨e, hsubset he, hover⟩
  induction h generalizing m' with
  | done => cases hr
  | stmt _ _ ih =>
    exact hpart (List.subset_cons_self ..) (ih (List.forall_mem_cons.1 hstarts).2 hr)
  | @stmtHalts s _ _ _ hbegin =>
    cases hr
    exact (staysShallow_begin hbegin (hstarts _ (.head _))).imp_right
      fun ⟨hassigns, hcapacity, hover⟩ ↦ ⟨_, .head _, ⟨s, hassigns, rfl⟩,
        ⟨_, rfl, List.suffix_rfl⟩, hcapacity, hover⟩
  | @inner t m trace r _ ih =>
    cases r with
    | ok _ _ => cases hr
    | error _ _ =>
      cases hr
      obtain h | ⟨e, he, h⟩ := ih (List.forall_mem_cons.1 hstarts).2 rfl
      · exact .inl h.tail
      · exact h.tail.imp_right fun h ↦ ⟨e, .tail _ he, h⟩
  | bound _ _ ih =>
    exact hpart (List.subset_cons_self ..) (ih (List.forall_mem_cons.1 hstarts).2 hr)
  | boundHalts hdeclare =>
    cases hr
    rw [declare_apply] at hdeclare
    split at hdeclare
    · cases hdeclare
    · cases hdeclare
      exact .inl (hstarts _ (.head _))
  | listEnds => cases hr
  | listNext _ _ _ _ ih' =>
    exact hpart (List.subset_cons_of_subset _ (List.subset_append_right ..))
      (ih' (List.forall_mem_append.1 (List.forall_mem_cons.1 hstarts).2).2 hr)
  | listLeft _ _ _ => cases hr
  | listHalts _ ih =>
    cases hr
    exact hpart (List.subset_cons_self ..) (ih (List.forall_mem_cons.1 hstarts).2 rfl)
  | loopEnds _ => cases hr
  | @loopHalts l start _ _ hnext =>
    cases hr
    have hscopes := scopes_next setting l start
    rw [hnext, after_error] at hscopes
    exact .inl (hscopes ▸ hstarts _ (.head _))
  | loopNext _ _ _ _ _ ih' =>
    exact hpart (List.subset_cons_of_subset _ (List.subset_append_right ..))
      (ih' (List.forall_mem_append.1 (List.forall_mem_cons.1 hstarts).2).2 hr)
  | loopLeft _ _ _ _ => cases hr
  | loopBroken _ _ ih =>
    cases hr
    exact hpart (List.subset_cons_self ..) (ih (List.forall_mem_cons.1 hstarts).2 rfl)

section Bounded

variable {program : Program} {outbox : Outbox} {trace : List Execution} {r : Ended Flow}

theorem RunsOf.shallow (h : RunsOf setting program outbox trace r) :
    (∀ e ∈ trace, AllSlots Slot.Shallow e.start.scopes ∧
      Leaves Slot.Shallow (fun _ ↦ True) e.result) ∧ Leaves Slot.Shallow (fun _ ↦ True) r :=
  h.keeps (kept_shallow setting) (.start outbox) trivial fun _ _ _ _ ↦ trivial

/-- What is left behind something that a run executes keeps the limit, or an assignment through a
path has ended the run. -/
theorem RunsOf.shallow_or_overshoots_of_mem (h : RunsOf setting program outbox trace r)
    {e : Execution} (he : e ∈ trace) :
    AllSlots Slot.Shallow (after e.result).scopes ∨
      ∃ e' ∈ trace, ∃ halt, e'.Overshoots halt (after e.result).scopes := by
  obtain ⟨hall, -⟩ := h.shallow
  rcases hr : e.result with ⟨flow, m⟩ | ⟨halt, m⟩
  · have hleaves := (hall e he).2
    rw [hr] at hleaves
    exact .inl hleaves
  · obtain ⟨trace', hsubset, hpart⟩ := h.part_of_mem he
    exact (hpart.shallow_or_overshoots (fun e he ↦ (hall e (hsubset he)).1) hr).imp_right
      fun ⟨e', he', hover⟩ ↦ ⟨e', hsubset he', halt, hover⟩

theorem RunsOf.shallow_or_overshoots (h : RunsOf setting program outbox trace r) :
    AllSlots Slot.Shallow (after r).scopes ∨
      ∃ e ∈ trace, ∃ halt, e.Overshoots halt (after r).scopes := by
  obtain ⟨hall, hleaves⟩ := h.shallow
  rcases r with ⟨flow, m⟩ | ⟨halt, m⟩
  · exact .inl hleaves
  · exact (Runs.shallow_or_overshoots h (fun e he ↦ (hall e he).1) rfl).imp_right
      fun ⟨e, he, hover⟩ ↦ ⟨e, he, halt, hover⟩

end Bounded

/-- A run has come to its end with some variables, because an assignment through a path has been
refused for a lack of capacity: the run halts with that fault, and one of the variables is deeper
than the limit. -/
def EndsOvershot (setting : Setting) (program : Program) (outbox : Outbox)
    (scopes : List (List Slot)) : Prop :=
  ∃ trace r e halt, RunsOf setting program outbox trace r ∧ e ∈ trace ∧ e.Overshoots halt scopes ∧
    (run setting program outbox).result = .error halt

/-- In every state of a run the variables keep the limit, or the run has come to its end. -/
theorem shallow_or_endsOvershot {program : Program} {outbox : Outbox}
    (h : Reaches setting program outbox m) :
    AllSlots Slot.Shallow m.scopes ∨ EndsOvershot setting program outbox m.scopes := by
  have hends {trace r scopes} (h : RunsOf setting program outbox trace r)
      (hover : ∃ e ∈ trace, ∃ halt, e.Overshoots halt scopes) :
      EndsOvershot setting program outbox scopes := by
    obtain ⟨e, he, halt, hover⟩ := hover
    obtain ⟨left, hresult, -⟩ := hover.result
    obtain ⟨m₂, rfl⟩ := h.halts_of_mem he hresult
    exact ⟨trace, _, e, halt, h, he, hover, by rw [h.run_eq]; rfl⟩
  induction h with
  | start h he => exact .inl (h.shallow.1 _ he).1
  | result h he => exact (h.shallow_or_overshoots_of_mem he).imp_right (hends h)
  | step _ ih => exact ih
  | expression _ e ih =>
    rw [scopes_eval]
    exact ih
  | final =>
    obtain ⟨trace, r, h⟩ := exists_runs setting program outbox
    rw [h.run_eq, scopes_conclude]
    exact h.shallow_or_overshoots.imp_right (hends h)

/-- **Values nest to a bounded depth.** In every state of a run, every live local holds a value of
at most `maxNesting` levels, and every expression that has a value has one of at most as many. The
one exception is the end of a run that is halted by an assignment through a path: it stores the new
value before it looks at the whole, and if it then refuses it for a lack of capacity, the one
variable of the path may be left with up to twice the depth. Nothing is taken up in such a state,
and nothing is completed in one. -/
theorem nesting_bounded (setting : Setting) (program : Program) (outbox : Outbox) :
    (∀ m, Reaches setting program outbox m →
      ((∀ scope ∈ m.scopes, ∀ slot ∈ scope, slot.value.depth ≤ maxNesting) ∧
        ∀ e v m', eval setting e m = .ok v m' → v.depth ≤ maxNesting) ∨
      EndsOvershot setting program outbox m.scopes) ∧
    ∀ trace r, RunsOf setting program outbox trace r → ∀ e ∈ trace,
      (∀ scope ∈ e.start.scopes, ∀ slot ∈ scope, slot.value.depth ≤ maxNesting) ∧
      ∀ flow m, e.result = .ok flow m →
        ∀ scope ∈ m.scopes, ∀ slot ∈ scope, slot.value.depth ≤ maxNesting := by
  refine ⟨fun m hm ↦ ?_, fun trace r h e he ↦ ?_⟩
  · exact (shallow_or_endsOvershot hm).imp_left fun hshallow ↦
      ⟨hshallow, fun e _ _ heval ↦ depth_eval e hshallow heval⟩
  · obtain ⟨hstart, hleaves⟩ := h.shallow.1 e he
    refine ⟨hstart, fun flow m hok ↦ ?_⟩
    rw [hok] at hleaves
    exact hleaves

/-- The script
`var x = []; var i = 0; while (i < 255) { x = [x]; i += 1; } var y = [0]; y[0] = x; 1`. -/
def storesDeep : Program where
  statements :=
    let x : Ident := ⟨"x", ⟨4, 5⟩⟩
    let i : Ident := ⟨"i", ⟨16, 17⟩⟩
    let y : Ident := ⟨"y", ⟨64, 65⟩⟩
    [.declare ⟨0, 11⟩ .var x (some (.list ⟨8, 10⟩ [])),
      .declare ⟨12, 22⟩ .var i (some (.literal ⟨20, 21⟩ (.int 0))),
      .whileLoop ⟨23, 59⟩
        (.binary ⟨30, 37⟩ .lt (.name ⟨30, 31⟩ "i") (.literal ⟨34, 37⟩ (.int 255)))
        (.block ⟨39, 59⟩
          [.assign ⟨41, 49⟩ ⟨"x", ⟨41, 42⟩⟩ [] .set (.list ⟨45, 48⟩ [.name ⟨46, 47⟩ "x"]),
            .assign ⟨50, 57⟩ ⟨"i", ⟨50, 51⟩⟩ [] .add (.literal ⟨55, 56⟩ (.int 1))]),
      .declare ⟨60, 72⟩ .var y (some (.list ⟨68, 71⟩ [.literal ⟨69, 70⟩ (.int 0)])),
      .assign ⟨73, 82⟩ ⟨"y", ⟨73, 74⟩⟩ [.index (.literal ⟨75, 76⟩ (.int 0))] .set
        (.name ⟨80, 81⟩ "x")]
  tail := some (.literal ⟨83, 84⟩ (.int 1))

/-- What its last state holds: a list of 257 levels in the variable `y`. -/
theorem depths_storesDeep :
    (run (.untimed ⟨5000, 1000, 1000⟩) storesDeep (.fresh true)).machine.scopes.map
        (·.map fun slot ↦ (slot.name, slot.value.depth)) =
      [[("y", 257), ("i", 0), ("x", 256)]] := by
  decide +kernel

theorem not_shallow_storesDeep :
    ¬ AllSlots Slot.Shallow
      (run (.untimed ⟨5000, 1000, 1000⟩) storesDeep (.fresh true)).machine.scopes := by
  intro h
  have hdepths : ∀ block ∈ [[("y", 257), ("i", 0), ("x", 256)]], ∀ shown ∈ block,
      shown.2 ≤ maxNesting := by
    rw [← depths_storesDeep]
    refine List.forall_mem_map.2 fun scope hscope ↦ List.forall_mem_map.2 fun slot hslot ↦ ?_
    exact h scope hscope slot hslot
  exact absurd (hdepths _ (.head _) _ (.head _)) (by decide)

/-- So a state of the run does not keep the limit. -/
theorem stored_beyond_limit :
    ∃ m, Reaches (.untimed ⟨5000, 1000, 1000⟩) storesDeep (.fresh true) m ∧
      m.scopes.map (·.map fun slot ↦ (slot.name, slot.value.depth)) =
        [[("y", 257), ("i", 0), ("x", 256)]] ∧
      ¬ ∀ scope ∈ m.scopes, ∀ slot ∈ scope, slot.value.depth ≤ maxNesting :=
  ⟨_, .final, depths_storesDeep, not_shallow_storesDeep⟩

/-- It is the last one. Until then the run has kept the limit. -/
theorem nesting_bounded_storesDeep :
    (∃ m, Reaches (.untimed ⟨5000, 1000, 1000⟩) storesDeep (.fresh true) m ∧
      EndsOvershot (.untimed ⟨5000, 1000, 1000⟩) storesDeep (.fresh true) m.scopes) ∧
    ∃ trace r, RunsOf (.untimed ⟨5000, 1000, 1000⟩) storesDeep (.fresh true) trace r ∧
      ∀ e ∈ trace, ∀ scope ∈ e.start.scopes, ∀ slot ∈ scope, slot.value.depth ≤ maxNesting := by
  obtain ⟨hreaches, hruns⟩ := nesting_bounded (.untimed ⟨5000, 1000, 1000⟩) storesDeep (.fresh true)
  obtain ⟨trace, r, h⟩ := exists_runs (.untimed ⟨5000, 1000, 1000⟩) storesDeep (.fresh true)
  exact ⟨⟨_, .final, (hreaches _ .final).resolve_left fun h ↦ not_shallow_storesDeep h.1⟩,
    trace, r, h, fun e he ↦ (hruns trace r h e he).1⟩

end Run

end Snippet
