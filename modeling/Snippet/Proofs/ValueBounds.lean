import Snippet.Proofs.Scopes

/-!
# The elements of evaluated values

How many elements a value may have that an expression evaluates to, where the variables keep the
limit. Every collection that an expression builds is held to the limit as it is built, with one
exception: the list of the values of an entry, of which a loop over a map hands out one for each
key. Its two elements are the key and the value of the entry, and with the elements of the value
they may be one more than the limit (`sound_or_entry_of_invoke`).

* `Clean` is what holds of every value of a run: whatever comes from the host has a few fields
  without elements, and the value of an entry has less elements than the limit.
* `Bounded` holds of a collection with no more elements than the limit, and of everything that
  is no collection.
-/

namespace Snippet.Run

open Script (Builtin Expr)

variable {setting : Setting} {m m' : Machine} {limit : Nat} {v w : Value} {items : List Value}
  {entries : List (String × Value)}

/-- A value in which objects are as the host hands them out or as loops over maps do. -/
inductive Clean (limit : Nat) : Value → Prop
  | null : Clean limit .null
  | bool (b : Bool) : Clean limit (.bool b)
  | int (i : Int64) : Clean limit (.int i)
  | float (x : Float) : Clean limit (.float x)
  | string (s : String) : Clean limit (.string s)
  | response (r : Response) : Clean limit (.response r)
  | list {items : List Value} (h : ∀ v ∈ items, Clean limit v) : Clean limit (.list items)
  | map {entries : List (String × Value)} (h : ∀ e ∈ entries, Clean limit e.2) :
      Clean limit (.map entries)
  | host {kind fields display} (hscalar : ∀ f ∈ fields, f.2.isCollection = false)
      (hlength : fields.length ≤ 4) : Clean limit (.object kind fields display)
  | entry {key x display} (hx : Clean limit x) (hlt : x.elementCount < limit) :
      Clean limit (.object .entry [("key", .string key), ("value", x)] display)

/-- A list or a map has no more elements than the limit. -/
def Bounded (limit : Nat) : Value → Prop
  | .list items => Value.itemCount items ≤ limit
  | .map entries => Value.entryCount entries ≤ limit
  | _ => True

theorem clean_of_scalar (h : v.isCollection = false) : Clean limit v := by
  cases v with
  | list _ => cases h
  | map _ => cases h
  | object _ _ _ => cases h
  | null => exact .null
  | bool b => exact .bool b
  | int i => exact .int i
  | float x => exact .float x
  | string s => exact .string s
  | response r => exact .response r

theorem bounded_of_scalar (h : v.isCollection = false) : Bounded limit v := by
  cases v with
  | list _ => cases h
  | map _ => cases h
  | _ => trivial

theorem elementCount_of_scalar (h : v.isCollection = false) : v.elementCount = 0 := by
  cases v with
  | list _ => cases h
  | map _ => cases h
  | object _ _ _ => cases h
  | _ => rfl

theorem bounded_of_elementCount_le (h : v.elementCount ≤ limit) : Bounded limit v := by
  cases v with
  | list items => exact h
  | map entries => exact h
  | _ => trivial

theorem clean_item (h : Clean limit (.list items)) (hv : v ∈ items) : Clean limit v := by
  cases h with
  | list h => exact h v hv

theorem clean_entry {e : String × Value} (h : Clean limit (.map entries)) (he : e ∈ entries) :
    Clean limit e.2 := by
  cases h with
  | map h => exact h e he

/-- A value within the limit. -/
structure Sound (limit : Nat) (v : Value) : Prop where
  clean : Clean limit v
  bounded : Bounded limit v

/-- A value that may have one element too many, if it is a list. -/
structure Loose (limit : Nat) (v : Value) : Prop where
  clean : Clean limit v
  items : ∀ items, v = .list items → Value.itemCount items ≤ limit + 1
  entries : ∀ entries, v = .map entries → Value.entryCount entries ≤ limit

theorem sound_of_scalar (h : v.isCollection = false) : Sound limit v :=
  ⟨clean_of_scalar h, bounded_of_scalar h⟩

theorem Sound.loose (h : Sound limit v) : Loose limit v where
  clean := h.clean
  items := by
    rintro items rfl
    exact Nat.le_succ_of_le h.bounded
  entries := by
    rintro entries rfl
    exact h.bounded

/-- What stands in a loose list is sound. -/
theorem Loose.item (h : Loose limit (.list items)) (hv : v ∈ items) : Sound limit v := by
  have hcount := h.items items rfl
  have hlt := Value.lt_itemCount_of_mem hv
  exact ⟨clean_item h.clean hv, bounded_of_elementCount_le (by omega)⟩

theorem Loose.entry {e : String × Value} (h : Loose limit (.map entries)) (he : e ∈ entries) :
    Sound limit e.2 ∧ e.2.elementCount < limit := by
  have hcount := h.entries entries rfl
  have hlt := Value.lt_entryCount_of_mem he
  exact ⟨⟨clean_entry h.clean he, bounded_of_elementCount_le (by omega)⟩, by omega⟩

/-- What stands in an object is sound. -/
theorem Loose.field {kind : ObjectKind} {fields : List (String × Value)} {display : String}
    {f : String × Value} (h : Loose limit (.object kind fields display)) (hf : f ∈ fields) :
    Sound limit f.2 := by
  cases h.clean with
  | host hscalar _ => exact sound_of_scalar (hscalar f hf)
  | entry hx hlt =>
    rcases List.mem_cons.1 hf with rfl | hf
    · exact sound_of_scalar rfl
    · obtain rfl := List.mem_singleton.1 hf
      exact ⟨hx, bounded_of_elementCount_le (Nat.le_of_lt hlt)⟩

/-! ### Reading -/

theorem mem_of_lookup {key : String} (h : entries.lookup key = some v) :
    ∃ e ∈ entries, e.2 = v := by
  induction entries with
  | nil => cases h
  | cons first rest ih =>
    obtain ⟨k, u⟩ := first
    rw [List.lookup_cons] at h
    split at h
    · cases h
      exact ⟨_, .head _, rfl⟩
    · obtain ⟨e, he, rfl⟩ := ih h
      exact ⟨e, .tail _ he, rfl⟩

theorem sound_readItem {index : Value} (h : readItem items index = .ok w)
    (hitems : Loose limit (.list items)) : Sound limit w := by
  rw [readItem] at h
  obtain ⟨i, -, h⟩ := except_bind_eq_ok_iff.1 h
  rcases hi : items[i]? with - | v
  · rw [hi] at h
    cases h
  · rw [hi] at h
    cases h
    exact hitems.item (List.mem_of_getElem? hi)

theorem sound_readEntry {key : String} (h : readEntry key entries = .ok w)
    (hentries : Loose limit (.map entries)) : Sound limit w := by
  rw [readEntry] at h
  split at h
  · cases h
    obtain ⟨e, he, rfl⟩ := mem_of_lookup ‹_›
    exact (hentries.entry he).1
  · cases h

theorem sound_readIndex {index : Value} (h : readIndex v index = .ok w) (hv : Loose limit v) :
    Sound limit w := by
  cases v with
  | list items => exact sound_readItem h hv
  | string s =>
    obtain ⟨i, -, h⟩ := except_bind_eq_ok_iff.1 h
    split at h
    · cases h
      exact sound_of_scalar rfl
    · cases h
  | map entries =>
    obtain ⟨key, -, h⟩ := except_bind_eq_ok_iff.1 h
    exact sound_readEntry h hv
  | _ => cases h

theorem sound_readMember {name : String} (h : readMember v name = .ok w) (hv : Loose limit v) :
    Sound limit w := by
  rw [readMember.eq_def] at h
  dsimp only at h
  split at h
  · cases h
    exact sound_of_scalar rfl
  · cases v with
    | map entries => exact sound_readEntry h hv
    | object kind fields display =>
      dsimp only at h
      rcases hlookup : fields.lookup name with - | u
      · rw [hlookup] at h
        cases h
      · rw [hlookup] at h
        cases h
        obtain ⟨f, hf, rfl⟩ := mem_of_lookup hlookup
        exact hv.field hf
    | _ => cases h

/-- What a path leads to is clean where the root is sound. -/
theorem sound_readPath {keys : List PathKey} (h : readPath v keys = .ok w) (hv : Sound limit v) :
    Sound limit w := by
  induction keys generalizing v with
  | nil =>
    cases h
    exact hv
  | cons key rest ih =>
    obtain ⟨u, hu, hrest⟩ := except_bind_eq_ok_iff.1 h
    cases key with
    | index i => exact ih hrest (sound_readIndex hu hv.loose)
    | member name => exact ih hrest (sound_readMember hu hv.loose)

/-! ### Operators -/

theorem scalar_exactly {n : Int} (h : exactly n = .ok v) : v.isCollection = false := by
  rw [exactly] at h
  split at h
  · cases h
    rfl
  · cases h

theorem scalar_applyUnary {op : Script.UnaryOp} (h : applyUnary op v = .ok w) :
    w.isCollection = false := by
  rw [applyUnary.eq_def] at h
  split at h
  · cases h
    rfl
  · exact scalar_exactly h
  · cases h
    rfl
  · cases h

theorem scalar_applyInt {op : Script.BinaryOp} {a b : Int64} (h : applyInt op a b = .ok v) :
    v.isCollection = false := by
  rw [applyInt.eq_def] at h
  dsimp only at h
  split at h
  · exact scalar_exactly h
  · exact scalar_exactly h
  · exact scalar_exactly h
  · split at h
    · cases h
    · exact scalar_exactly h
  · split at h
    · cases h
    · obtain ⟨_, -, h⟩ := except_bind_eq_ok_iff.1 h
      exact scalar_exactly h
  · cases h

theorem scalar_concat {a b : Value} (h : concat limit a b = .ok v) : v.isCollection = false := by
  rw [concat] at h
  split at h
  · cases h
  · cases h
    rfl

theorem sound_append {xs ys : List Value} (h : append limit xs ys = .ok v)
    (hxs : Clean limit (.list xs)) (hys : Clean limit (.list ys)) : Sound limit v := by
  rw [append] at h
  split at h
  · cases h
  · obtain ⟨rfl, hle, -⟩ := shaped_eq_ok h
    refine ⟨.list fun v hv ↦ ?_, hle⟩
    exact (List.mem_append.1 hv).elim (clean_item hxs) (clean_item hys)

theorem sound_applyArithmetic {op : Script.BinaryOp} {a b : Value}
    (h : applyArithmetic limit op a b = .ok v) (ha : Clean limit a) (hb : Clean limit b) :
    Sound limit v := by
  rw [applyArithmetic.eq_def] at h
  dsimp only at h
  split at h
  · exact sound_of_scalar (scalar_concat h)
  · exact sound_of_scalar (scalar_concat h)
  · exact sound_append h ha hb
  · exact sound_of_scalar (scalar_applyInt h)
  · split at h
    · rcases hx : applyFloat? _ _ _ with - | x
      · rw [hx] at h
        cases h
      · rw [hx] at h
        cases h
        exact sound_of_scalar rfl
    · cases h

theorem scalar_of_ordered {fault : Fault} {order : Option (Option Ordering)}
    {holds : Ordering → Bool}
    (h : (match order with
      | some order => .ok (.bool (order.any holds))
      | none => .error fault : Except Fault Value) = .ok v) : v.isCollection = false := by
  cases order with
  | none => cases h
  | some order =>
    cases h
    rfl

/-- Of the binary operators only the concatenation of lists builds a collection, and it holds it
to the limit. -/
theorem sound_apply {op : Script.BinaryOp} {a b : Value} (h : apply limit op a b = .ok v)
    (ha : Clean limit a) (hb : Clean limit b) : Sound limit v := by
  cases op with
  | eq =>
    cases h
    exact sound_of_scalar rfl
  | ne =>
    cases h
    exact sound_of_scalar rfl
  | lt => exact sound_of_scalar (scalar_of_ordered h)
  | le => exact sound_of_scalar (scalar_of_ordered h)
  | gt => exact sound_of_scalar (scalar_of_ordered h)
  | ge => exact sound_of_scalar (scalar_of_ordered h)
  | _ => exact sound_applyArithmetic h ha hb

/-! ### Helpers -/

theorem scalar_lengthOf (h : lengthOf v = .ok w) : w.isCollection = false := by
  cases v <;> cases h <;> rfl

theorem scalar_joinOf {a b : Value} (h : joinOf limit a b = .ok v) : v.isCollection = false := by
  rw [joinOf.eq_def] at h
  split at h
  · cases h
    rfl
  · dsimp only at h
    split at h
    · cases h
    · obtain ⟨_, -, h⟩ := except_bind_eq_ok_iff.1 h
      cases h
      rfl
  · cases h
  · cases h

theorem scalar_mapText {helper : String} {f : String → String} (h : mapText helper f v = .ok w) :
    w.isCollection = false := by
  cases v <;> cases h
  rfl

theorem scalar_absOf (h : absOf v = .ok w) : w.isCollection = false := by
  cases v with
  | int i => exact scalar_exactly h
  | float x =>
    cases h
    rfl
  | _ => cases h

theorem scalar_of_number? {x : Float} (h : v.number? = some x) : v.isCollection = false := by
  cases v <;> first | rfl | cases h

theorem scalar_pick {helper : String} {larger : Bool} {a b : Value}
    (h : pick helper larger a b = .ok v) : v.isCollection = false := by
  rw [pick.eq_def] at h
  dsimp only at h
  split at h
  · cases h
    split <;> rfl
  · split at h
    · cases h
      split
      · exact scalar_of_number? ‹_›
      · exact scalar_of_number? ‹_›
    · cases h

theorem scalar_containsOf {a b : Value} (h : containsOf a b = .ok v) : v.isCollection = false := by
  rw [containsOf.eq_def] at h
  split at h <;> cases h <;> rfl

theorem sound_rangeOf {args : List Value} (h : rangeOf limit args = .ok v) : Sound limit v := by
  have hrange {start stop : Int} (h : (if limit < (stop - start).toNat then
        .error (.tooManyElements limit)
      else .ok (.list ((List.range (stop - start).toNat).map fun (i : Nat) ↦
        .int (.ofInt (start + i)))) : Except Fault Value) = .ok v) : Sound limit v := by
    split at h
    · cases h
    · cases h
      have hscalar : ∀ v ∈ (List.range (stop - start).toNat).map fun (i : Nat) ↦
          Value.int (.ofInt (start + i)), v.isCollection = false := by
        intro v hv
        obtain ⟨i, -, rfl⟩ := List.mem_map.1 hv
        rfl
      refine ⟨.list fun v hv ↦ clean_of_scalar (hscalar v hv), ?_⟩
      rw [Bounded, Value.itemCount_of_scalars fun v hv ↦ elementCount_of_scalar (hscalar v hv),
        List.length_map, List.length_range]
      omega
  rw [rangeOf.eq_def] at h
  obtain ⟨bounds, -, h⟩ := except_bind_eq_ok_iff.1 h
  dsimp only at h
  split at h
  · exact hrange h
  · exact hrange h
  · cases h

/-- An entry that a loop over a map hands out. -/
def entryObject (key : String) (x : Value) (display : String) : Value :=
  .object .entry [("key", .string key), ("value", x)] display

/-- Where the entries and fields come from that the helpers see. -/
theorem entriesOf_cases {helper : String} {fields : List (String × Value)}
    (h : entriesOf helper v = .ok fields) (hv : Loose limit v) :
    v = .map fields ∨ ((∀ f ∈ fields, f.2.isCollection = false) ∧ fields.length ≤ 4) ∨
      ∃ key x display, v = entryObject key x display ∧
        fields = [("key", .string key), ("value", x)] ∧ Clean limit x ∧
        x.elementCount < limit := by
  cases v with
  | map entries =>
    cases h
    exact .inl rfl
  | object kind fields display =>
    cases h
    cases hv.clean with
    | host hscalar hlength => exact .inr (.inl ⟨hscalar, hlength⟩)
    | entry hx hlt => exact .inr (.inr ⟨_, _, _, rfl, rfl, hx, hlt⟩)
  | _ => cases h

theorem scalar_of_mem_keys {fields : List (String × Value)}
    (h : v ∈ fields.map fun (k, _) ↦ Value.string k) : v.isCollection = false := by
  obtain ⟨⟨k, u⟩, -, rfl⟩ := List.mem_map.1 h
  rfl

theorem sound_keys {args : List Value} (hlimit : 4 ≤ limit)
    (h : helperValue limit .keys args = .ok v) (harg : Loose limit (argument args 0)) :
    Sound limit v := by
  obtain ⟨fields, hfields, hpure⟩ := except_bind_eq_ok_iff.1 h
  cases hpure
  have hlength : fields.length ≤ limit := by
    obtain heq | ⟨-, hle⟩ | ⟨key, x, display, -, rfl, -, -⟩ := entriesOf_cases hfields harg
    · exact Nat.le_trans (Value.length_le_entryCount fields) (harg.entries fields heq)
    · omega
    · show 2 ≤ limit
      omega
  refine ⟨.list fun v hv ↦ clean_of_scalar (scalar_of_mem_keys hv), ?_⟩
  rw [Bounded, Value.itemCount_of_scalars fun v hv ↦ elementCount_of_scalar (scalar_of_mem_keys hv),
    List.length_map]
  exact hlength

/-- The list of the values of a map is as large as the map, and that of an object from the host is
small. Only that of an entry may have one element too many. -/
theorem sound_or_entry_of_values {args : List Value} (hlimit : 4 ≤ limit)
    (h : helperValue limit .values args = .ok v) (harg : Loose limit (argument args 0)) :
    Sound limit v ∨ ∃ key x display, argument args 0 = entryObject key x display ∧
      v = .list [.string key, x] ∧ Clean limit x ∧ x.elementCount < limit := by
  obtain ⟨fields, hfields, hpure⟩ := except_bind_eq_ok_iff.1 h
  cases hpure
  obtain heq | ⟨hscalar, hle⟩ | ⟨key, x, display, heq, rfl, hx, hlt⟩ :=
    entriesOf_cases hfields harg
  · rw [heq] at harg
    refine .inl ⟨.list fun v hv ↦ ?_, ?_⟩
    · obtain ⟨e, he, rfl⟩ := List.mem_map.1 hv
      exact (harg.entry he).1.clean
    · rw [Bounded, Value.itemCount_map_snd]
      exact harg.entries fields rfl
  · have hscalar' : ∀ v ∈ fields.map Prod.snd, v.isCollection = false := by
      intro v hv
      obtain ⟨f, hf, rfl⟩ := List.mem_map.1 hv
      exact hscalar f hf
    refine .inl ⟨.list fun v hv ↦ clean_of_scalar (hscalar' v hv), ?_⟩
    rw [Bounded, Value.itemCount_of_scalars fun v hv ↦ elementCount_of_scalar (hscalar' v hv),
      List.length_map]
    omega
  · exact .inr ⟨key, x, display, heq, rfl, hx, hlt⟩

/-- What any other helper gives for loose arguments is sound. -/
theorem sound_helperValue {b : Builtin} {args : List Value} (hlimit : 4 ≤ limit)
    (hb : b ≠ .values) (h : helperValue limit b args = .ok v)
    (harg : Loose limit (argument args 0)) : Sound limit v := by
  cases b with
  | values => exact absurd rfl hb
  | keys => exact sound_keys hlimit h harg
  | range => exact sound_rangeOf h
  | len => exact sound_of_scalar (scalar_lengthOf h)
  | join => exact sound_of_scalar (scalar_joinOf h)
  | upper => exact sound_of_scalar (scalar_mapText h)
  | lower => exact sound_of_scalar (scalar_mapText h)
  | abs => exact sound_of_scalar (scalar_absOf h)
  | min => exact sound_of_scalar (scalar_pick h)
  | max => exact sound_of_scalar (scalar_pick h)
  | contains => exact sound_of_scalar (scalar_containsOf h)
  | respond =>
    cases h
    refine sound_of_scalar ?_
    rw [respondWith.eq_def]
    split <;> rfl
  | _ =>
    cases h
    exact sound_of_scalar rfl

/-- What the host hands out has at most four fields, without elements. -/
theorem sound_host {kind : ObjectKind} {fields : List (String × Value)} {display : String}
    (hscalar : ∀ f ∈ fields, f.2.isCollection = false) (hlength : fields.length ≤ 4) :
    Sound limit (.object kind fields display) :=
  ⟨.host hscalar hlength, trivial⟩

theorem sound_user (i : Identity) : Sound limit (.user i) := by
  refine sound_host (fun f hf ↦ ?_) (Nat.le_succ 3)
  simp only [List.mem_cons, List.not_mem_nil, or_false] at hf
  obtain rfl | rfl | rfl := hf
  · dsimp only
    split <;> rfl
  · rfl
  · cases i.avatar <;> rfl

theorem sound_color (c : Color) : Sound limit (.color c) := by
  refine sound_host (fun f hf ↦ ?_) (Nat.le_refl 4)
  simp only [List.mem_cons, List.not_mem_nil, or_false] at hf
  obtain rfl | rfl | rfl | rfl := hf <;> rfl

theorem sound_callBuiltin {b : Builtin} {args : List Value}
    (hlimit : 4 ≤ setting.limits.maxElements) (hb : b ≠ .values)
    (h : callBuiltin setting b args m = .ok v m')
    (harg : Loose setting.limits.maxElements (argument args 0)) :
    Sound setting.limits.maxElements v := by
  cases b with
  | emitReply =>
    obtain ⟨_, _, -, hpure⟩ := bind_eq_ok_iff.1 h
    cases hpure
    exact sound_of_scalar rfl
  | invokerIdentity =>
    cases h
    exact sound_user _
  | brandingAccent =>
    obtain ⟨color, _, -, h⟩ := bind_eq_ok_iff.1 h
    cases color with
    | none =>
      cases h
      exact sound_of_scalar rfl
    | some c =>
      cases h
      exact sound_color c
  | _ =>
    rw [callBuiltin_of_helper rfl, lift_eq_ok_iff] at h
    exact sound_helperValue hlimit hb h.1 harg

/-! ### Evaluation -/

/-- The value of an expression is the list of the values of an entry, of which `x` is the value:
the expression calls `values` on the entry, or is a choice of such an expression. -/
inductive ListsEntry (setting : Setting) : Expr → Machine → Value → Prop
  | helper {span nameSpan arg key x display} {m m' : Machine}
      (h : eval setting arg m.ticked = .ok (entryObject key x display) m') :
      ListsEntry setting (.call span (.name nameSpan "values") [arg]) m x
  | method {span memberSpan target key x display} {field : Script.Ident} {m m' : Machine}
      (hfield : field.name = "values")
      (h : eval setting target m.ticked = .ok (entryObject key x display) m') :
      ListsEntry setting (.call span (.member memberSpan target field) []) m x
  | yes {span cond yes no x} {m m' : Machine}
      (hcond : eval setting cond m.ticked = .ok (.bool true) m')
      (h : ListsEntry setting yes m' x) : ListsEntry setting (.ternary span cond yes no) m x
  | no {span cond yes no x} {m m' : Machine}
      (hcond : eval setting cond m.ticked = .ok (.bool false) m')
      (h : ListsEntry setting no m' x) : ListsEntry setting (.ternary span cond yes no) m x

/-- What is known of the value of an expression. -/
def Evaluated (setting : Setting) (e : Expr) (m : Machine) (v : Value) : Prop :=
  Sound setting.limits.maxElements v ∨
    ∃ key x, v = .list [.string key, x] ∧ Clean setting.limits.maxElements x ∧
      x.elementCount < setting.limits.maxElements ∧ ListsEntry setting e m x

theorem Evaluated.loose {e : Expr} (h : Evaluated setting e m v) :
    Loose setting.limits.maxElements v := by
  obtain h | ⟨key, x, rfl, hx, hlt, -⟩ := h
  · exact h.loose
  · refine ⟨.list fun v hv ↦ ?_, ?_, nofun⟩
    · obtain rfl | hv := List.mem_cons.1 hv
      · exact .string key
      · obtain rfl := List.mem_singleton.1 hv
        exact hx
    · rintro _ ⟨⟩
      simp only [Value.itemCount, Value.elementCount]
      omega

theorem Evaluated.imp {e e' : Expr} {m₁ : Machine} (h : Evaluated setting e m₁ v)
    (hlists : ∀ x, ListsEntry setting e m₁ x → ListsEntry setting e' m x) :
    Evaluated setting e' m v :=
  Or.imp_right (fun ⟨key, x, hv, hx, hlt, h⟩ ↦ ⟨key, x, hv, hx, hlt, hlists x h⟩) h

/-- The variables are within the limit. -/
abbrev Held (setting : Setting) (m : Machine) : Prop :=
  AllSlots (fun slot ↦ Sound setting.limits.maxElements slot.value) m.scopes

theorem Held.of_eval {e : Expr} (hm : Held setting m) (h : eval setting e m = .ok v m') :
    Held setting m' := by
  have hscopes : m'.scopes = m.scopes := (course_scopes.eval setting e).of_ok h
  rw [Held, hscopes]
  exact hm

theorem name_of_ofName? {name : String} {b : Builtin} (h : Builtin.ofName? name = some b) :
    name = b.name := by
  have hb := List.find?_some h
  exact (eq_of_beq hb).symm

theorem mem_putEntry {key : String} {e : String × Value} (h : e ∈ putEntry key w entries) :
    e.2 = w ∨ ∃ e' ∈ entries, e'.2 = e.2 := by
  induction entries with
  | nil =>
    obtain rfl := List.mem_singleton.1 h
    exact .inl rfl
  | cons first rest ih =>
    obtain ⟨k, u⟩ := first
    rw [putEntry] at h
    split at h
    · obtain rfl | h := List.mem_cons.1 h
      · exact .inl rfl
      · exact .inr ⟨e, .tail _ h, rfl⟩
    · obtain rfl | h := List.mem_cons.1 h
      · exact .inr ⟨_, .head _, rfl⟩
      · obtain heq | ⟨e', he', heq⟩ := ih h
        · exact .inl heq
        · exact .inr ⟨e', .tail _ he', heq⟩

/-- What a call gives for loose arguments. Only `values` may list an entry, its one argument. -/
theorem sound_or_entry_of_invoke {name : String} {args : Step (List Value)}
    (hlimit : 4 ≤ setting.limits.maxElements) (h : invoke setting name args m = .ok v m')
    (hargs : ∀ vs m₁, args m = .ok vs m₁ → ∀ v ∈ vs, Loose setting.limits.maxElements v) :
    Sound setting.limits.maxElements v ∨ ∃ m₁ key x display, name = "values" ∧
      args m = .ok [entryObject key x display] m₁ ∧ v = .list [.string key, x] ∧
      Clean setting.limits.maxElements x ∧ x.elementCount < setting.limits.maxElements := by
  obtain ⟨b, vs, m₁, hname, hvs, haccepts, hcall⟩ := invoke_eq_ok h
  have harg : Loose setting.limits.maxElements (argument vs 0) := by
    rw [argument]
    rcases hget : vs[0]? with - | u
    · exact (sound_of_scalar rfl).loose
    · exact hargs vs m₁ hvs u (List.mem_of_getElem? hget)
  by_cases hb : b = .values
  · subst hb
    obtain ⟨hvalues, rfl⟩ := lift_eq_ok_iff.1 hcall
    obtain hv | ⟨key, x, display, hfirst, hv⟩ := sound_or_entry_of_values hlimit hvalues harg
    · exact .inl hv
    · rcases vs with - | ⟨u, - | ⟨_, _⟩⟩
      · cases haccepts
      · cases hfirst
        exact .inr ⟨_, key, x, display, name_of_ofName? hname, hvs, hv⟩
      · simp [Builtin.accepts, Builtin.maxArgs, Builtin.minArgs] at haccepts
  · exact .inl (sound_callBuiltin hlimit hb hcall harg)

mutual

/-- The value of an expression is within the limit, where the variables are, or it lists an
entry. -/
theorem evaluated (hlimit : 4 ≤ setting.limits.maxElements) : ∀ (e : Expr) {m m' v},
    Held setting m → eval setting e m = .ok v m' → Evaluated setting e m v
  | .literal _ value, _, _, _, _, h => by
    obtain ⟨_, _, -, h⟩ := bind_eq_ok_iff.1 h
    cases h
    cases value <;> exact .inl (sound_of_scalar rfl)
  | .name _ name, m, _, _, hm, h => by
    replace h := ok_of_tick h
    obtain ⟨slot, _, hlookup, hpure⟩ := bind_eq_ok_iff.1 h
    obtain ⟨hslot, rfl⟩ := lookup_eq_ok_iff.1 hlookup
    cases hpure
    exact .inl (hm.of_find hslot)
  | .list _ items, m, _, _, hm, h => by
    replace h := ok_of_tick h
    obtain ⟨_, m₁, hlength, h⟩ := bind_eq_ok_iff.1 h
    obtain ⟨-, rfl⟩ := checkLength_eq_ok hlength
    obtain ⟨vs, m₂, hvs, h⟩ := bind_eq_ok_iff.1 h
    obtain ⟨hshaped, rfl⟩ := lift_eq_ok_iff.1 h
    obtain ⟨rfl, hle, -⟩ := shaped_eq_ok hshaped
    have hloose := looseItems hlimit items (m := m.ticked) hm hvs
    exact .inl ⟨.list fun v hv ↦ (hloose v hv).clean, hle⟩
  | .map _ entries, m, _, _, hm, h => by
    replace h := ok_of_tick h
    obtain ⟨_, m₁, hlength, h⟩ := bind_eq_ok_iff.1 h
    obtain ⟨-, rfl⟩ := checkLength_eq_ok hlength
    obtain ⟨vs, m₂, hvs, h⟩ := bind_eq_ok_iff.1 h
    obtain ⟨hshaped, rfl⟩ := lift_eq_ok_iff.1 h
    obtain ⟨rfl, hle, -⟩ := shaped_eq_ok hshaped
    have hclean := cleanEntries hlimit entries [] (m := m.ticked) hm nofun hvs
    exact .inl ⟨.map hclean, hle⟩
  | .unary _ _ operand, _, _, _, _, h => by
    obtain ⟨_, _, -, h⟩ := bind_eq_ok_iff.1 h
    obtain ⟨_, _, -, h⟩ := bind_eq_ok_iff.1 h
    exact .inl (sound_of_scalar (scalar_applyUnary (lift_eq_ok_iff.1 h).1))
  | .binary _ op lhs rhs, m, m', v, hm, h => by
    replace h := ok_of_tick h
    obtain ⟨left, m₁, hleft, h⟩ := bind_eq_ok_iff.1 h
    have hl := (evaluated hlimit lhs (m := m.ticked) hm hleft).loose
    have hm₁ : Held setting m₁ := Held.of_eval (m := m.ticked) hm hleft
    have hr {m' v} (h : eval setting rhs m₁ = .ok v m') := (evaluated hlimit rhs hm₁ h).loose
    split at h
    · obtain ⟨_, _, -, h⟩ := bind_eq_ok_iff.1 h
      split at h
      · obtain ⟨_, _, -, h⟩ := bind_eq_ok_iff.1 h
        obtain ⟨_, _, -, h⟩ := bind_eq_ok_iff.1 h
        cases h
        exact .inl (sound_of_scalar rfl)
      · cases h
        exact .inl (sound_of_scalar rfl)
    · obtain ⟨_, _, -, h⟩ := bind_eq_ok_iff.1 h
      split at h
      · cases h
        exact .inl (sound_of_scalar rfl)
      · obtain ⟨_, _, -, h⟩ := bind_eq_ok_iff.1 h
        obtain ⟨_, _, -, h⟩ := bind_eq_ok_iff.1 h
        cases h
        exact .inl (sound_of_scalar rfl)
    · obtain ⟨right, _, hright, h⟩ := bind_eq_ok_iff.1 h
      exact .inl (sound_apply (lift_eq_ok_iff.1 h).1 hl.clean (hr hright).clean)
  | .ternary _ cond yes no, m, _, _, hm, h => by
    replace h := ok_of_tick h
    obtain ⟨c, m₁, hcond, h⟩ := bind_eq_ok_iff.1 h
    obtain ⟨holds, _, hlift, h⟩ := bind_eq_ok_iff.1 h
    obtain ⟨htruth, rfl⟩ := lift_eq_ok_iff.1 hlift
    have hm₁ : Held setting m₁ := Held.of_eval (m := m.ticked) hm hcond
    have hyes {m' v} (h : eval setting yes m₁ = .ok v m') := evaluated hlimit yes hm₁ h
    have hno {m' v} (h : eval setting no m₁ = .ok v m') := evaluated hlimit no hm₁ h
    obtain rfl := truth_eq_ok htruth
    cases holds with
    | true => exact (hyes h).imp fun _ ↦ .yes hcond
    | false => exact (hno h).imp fun _ ↦ .no hcond
  | .call _ callee args, m, _, _, hm, h => by
    have hargs {m m' vs} (hm : Held setting m) (h : evalItems setting args m = .ok vs m') :=
      looseItems hlimit args hm h
    cases callee with
    | name _ name =>
      replace h := ok_of_tick h
      obtain hv | ⟨m₁, key, x, display, rfl, hvs, hv⟩ :=
        sound_or_entry_of_invoke hlimit h fun vs m₁ hvs ↦ hargs (m := m.ticked) hm hvs
      · exact .inl hv
      · have hlength := length_of_evalItems hvs
        rcases args with - | ⟨arg, - | ⟨_, _⟩⟩
        · cases hlength
        · obtain ⟨u, m₂, vs, hu, -, heq⟩ := evalItems_cons_eq_ok hvs
          cases heq
          exact .inr ⟨key, x, hv.1, hv.2.1, hv.2.2, .helper hu⟩
        · cases hlength
    | member _ target field =>
      replace h := ok_of_tick h
      obtain ⟨receiver, m₁, hreceiver, h⟩ := bind_eq_ok_iff.1 h
      have hfirst := (evaluated hlimit target (m := m.ticked) hm hreceiver).loose
      have hm₁ : Held setting m₁ := Held.of_eval (m := m.ticked) hm hreceiver
      obtain hv | ⟨m₂, key, x, display, hname, hvs, hv⟩ :=
        sound_or_entry_of_invoke hlimit h fun vs m₂ hvs ↦ by
          obtain ⟨vs', _, hvs', hpure⟩ := bind_eq_ok_iff.1 hvs
          cases hpure
          exact List.forall_mem_cons.2 ⟨hfirst, hargs hm₁ hvs'⟩
      · exact .inl hv
      · obtain ⟨vs', _, hvs', hpure⟩ := bind_eq_ok_iff.1 hvs
        have hlength := length_of_evalItems hvs'
        cases hpure
        obtain rfl := List.eq_nil_of_length_eq_zero hlength.symm
        exact .inr ⟨key, x, hv.1, hv.2.1, hv.2.2, .method hname hreceiver⟩
    | _ =>
      obtain ⟨_, _, -, h⟩ := bind_eq_ok_iff.1 h
      cases h
  | .index _ target index, m, _, _, hm, h => by
    replace h := ok_of_tick h
    obtain ⟨u, m₁, htarget, h⟩ := bind_eq_ok_iff.1 h
    obtain ⟨i, _, -, h⟩ := bind_eq_ok_iff.1 h
    have hu := (evaluated hlimit target (m := m.ticked) hm htarget).loose
    exact .inl (sound_readIndex (lift_eq_ok_iff.1 h).1 hu)
  | .member _ target field, m, _, _, hm, h => by
    replace h := ok_of_tick h
    obtain ⟨u, m₁, htarget, h⟩ := bind_eq_ok_iff.1 h
    have hu := (evaluated hlimit target (m := m.ticked) hm htarget).loose
    exact .inl (sound_readMember (lift_eq_ok_iff.1 h).1 hu)

theorem looseItems (hlimit : 4 ≤ setting.limits.maxElements) : ∀ (es : List Expr) {m m' vs},
    Held setting m → evalItems setting es m = .ok vs m' →
      ∀ v ∈ vs, Loose setting.limits.maxElements v
  | [], _, _, _, _, h => by
    cases h
    nofun
  | e :: rest, m, _, _, hm, h => by
    obtain ⟨v, m₁, vs, hv, hvs, rfl⟩ := evalItems_cons_eq_ok h
    have hfirst := (evaluated hlimit e hm hv).loose
    have hrest := looseItems hlimit rest (hm.of_eval hv) hvs
    exact List.forall_mem_cons.2 ⟨hfirst, hrest⟩

theorem cleanEntries (hlimit : 4 ≤ setting.limits.maxElements) :
    ∀ (es : List (Expr × Expr)) (entries : List (String × Value)) {m m' result},
      Held setting m → (∀ e ∈ entries, Clean setting.limits.maxElements e.2) →
      evalEntries setting entries es m = .ok result m' →
        ∀ e ∈ result, Clean setting.limits.maxElements e.2
  | [], _, _, _, _, _, hentries, h => by
    cases h
    exact hentries
  | (k, v) :: rest, entries, m, _, _, hm, hentries, h => by
    obtain ⟨ku, m₁, hk, h⟩ := bind_eq_ok_iff.1 h
    obtain ⟨key, _, hlift, h⟩ := bind_eq_ok_iff.1 h
    obtain ⟨-, rfl⟩ := lift_eq_ok_iff.1 hlift
    obtain ⟨u, m₂, hu, h⟩ := bind_eq_ok_iff.1 h
    have hm₁ := hm.of_eval hk
    have hclean := (evaluated hlimit v hm₁ hu).loose.clean
    refine cleanEntries hlimit rest _ (hm₁.of_eval hu) (fun e he ↦ ?_) h
    obtain heq | ⟨e', he', heq⟩ := mem_putEntry he
    · rw [heq]
      exact hclean
    · rw [← heq]
      exact hentries e' he'

end

/-- The list of the values of an entry has two elements beside those of the value. -/
theorem value_of_listsEntry {e : Expr} {x : Value} (h : ListsEntry setting e m x)
    (heval : eval setting e m = .ok v m') : ∃ key, v = .list [.string key, x] := by
  have hcall {args : Step (List Value)} {m m₁ m' : Machine} {key display : String}
      (hargs : args m = .ok [entryObject key x display] m₁)
      (h : invoke setting "values" args m = .ok v m') : v = .list [.string key, x] := by
    obtain ⟨b, vs, m₂, hname, hvs, -, hcall⟩ := invoke_eq_ok h
    cases (Builtin.ofName?_name .values).symm.trans hname
    cases hargs.symm.trans hvs
    rw [callBuiltin_of_helper rfl, lift_eq_ok_iff] at hcall
    obtain ⟨hvalues, -⟩ := hcall
    cases hvalues
    rfl
  induction h generalizing v m' with
  | @helper span nameSpan arg key _ display m m₂ hentry =>
    replace heval := ok_of_tick heval
    have hargs : evalItems setting [arg] m.ticked = .ok [entryObject key _ display] m₂ :=
      bind_eq_ok_iff.2 ⟨_, _, hentry, rfl⟩
    exact ⟨key, hcall hargs heval⟩
  | @method span memberSpan target key _ display field m m₂ hfield hentry =>
    replace heval := ok_of_tick heval
    obtain ⟨receiver, m₃, hreceiver, heval⟩ := bind_eq_ok_iff.1 heval
    cases hentry.symm.trans hreceiver
    rw [hfield] at heval
    exact ⟨key, hcall rfl heval⟩
  | yes hcond _ ih =>
    replace heval := ok_of_tick heval
    obtain ⟨c, m₁, hc, heval⟩ := bind_eq_ok_iff.1 heval
    cases hcond.symm.trans hc
    exact ih heval hcall
  | no hcond _ ih =>
    replace heval := ok_of_tick heval
    obtain ⟨c, m₁, hc, heval⟩ := bind_eq_ok_iff.1 heval
    cases hcond.symm.trans hc
    exact ih heval hcall

end Snippet.Run
