import Snippet.Proofs.ValueBounds

/-!
# The limit on elements

Whether the collections that live locals hold keep the limit on elements. Two kinds of statements
let them pass it (`Overfills`): one that stores a value without elements under a new key of a
map, where only the keys of that map are counted, and one that sets a variable to the list of the
values of an entry, at which nobody looks. A run in which no completed statement is of these kinds
keeps the limit, and a run in which one is does not (`element_limit_iff`).
-/

namespace Snippet.Run

open Script (Accessor AssignOp DeclType Expr Ident Program Stmt)

variable {setting : Setting} {m m' : Machine} {limit : Nat} {v w : Value}

/-! ### Collections inside a value -/

/-- A value, or something that stands in it. -/
inductive Part (w : Value) : Value → Prop
  | refl : Part w w
  | item {items : List Value} {u : Value} (hu : u ∈ items) (h : Part w u) : Part w (.list items)
  | entry {entries : List (String × Value)} {e : String × Value} (he : e ∈ entries)
      (h : Part w e.2) : Part w (.map entries)
  | field {kind display} {fields : List (String × Value)} {f : String × Value} (hf : f ∈ fields)
      (h : Part w f.2) : Part w (.object kind fields display)

/-- No list or map that a value holds has more elements than the limit, those of the collections
in it included. -/
def Within (limit : Nat) (v : Value) : Prop :=
  ∀ w, Part w v → Bounded limit w

theorem Part.elementCount_le (h : Part w v) : w.elementCount ≤ v.elementCount := by
  induction h with
  | refl => exact Nat.le_refl _
  | item hu _ ih => exact Nat.le_trans ih (Nat.le_of_lt (Value.lt_itemCount_of_mem hu))
  | entry he _ ih => exact Nat.le_trans ih (Nat.le_of_lt (Value.lt_entryCount_of_mem he))
  | field hf _ ih => exact Nat.le_trans ih (Nat.le_of_lt (Value.lt_entryCount_of_mem hf))

theorem within_of_elementCount_le (h : v.elementCount ≤ limit) : Within limit v :=
  fun _ hw ↦ bounded_of_elementCount_le (Nat.le_trans hw.elementCount_le h)

/-- In a sound value every collection keeps the limit. -/
theorem Sound.within (h : Sound limit v) : Within limit v := by
  obtain ⟨hclean, hbounded⟩ := h
  cases hclean with
  | list _ => exact within_of_elementCount_le hbounded
  | map _ => exact within_of_elementCount_le hbounded
  | host hscalar _ =>
    rintro w hw
    cases hw with
    | refl => trivial
    | field hf hw =>
      exact within_of_elementCount_le
        (Nat.le_trans (Nat.le_of_eq (elementCount_of_scalar (hscalar _ hf))) (Nat.zero_le _)) w hw
  | entry _ hlt =>
    rintro w hw
    cases hw with
    | refl => trivial
    | field hf hw =>
      obtain rfl | hf := List.mem_cons.1 hf
      · exact within_of_elementCount_le (Nat.zero_le _) w hw
      · obtain rfl := List.mem_singleton.1 hf
        exact within_of_elementCount_le (Nat.le_of_lt hlt) w hw
  | _ => exact within_of_elementCount_le (Nat.zero_le _)

/-! ### Statements -/

/-- A statement, taken up in a state, lets a variable pass the limit if it ends. -/
inductive Overfills (setting : Setting) : Stmt → Machine → Prop
  /-- A variable is declared with the list of the values of an entry. -/
  | declared {span type name e x} {m : Machine} (h : ListsEntry setting e m.ticked x)
      (hlt : setting.limits.maxElements < x.elementCount + 2) :
      Overfills setting (.declare span type name (some e)) m
  /-- A variable is set to the list of the values of an entry. -/
  | assigned {span root e x} {m : Machine} (h : ListsEntry setting e m.ticked x)
      (hlt : setting.limits.maxElements < x.elementCount + 2) :
      Overfills setting (.assign span root [] .set e) m
  /-- A value without elements comes under a new key into a collection that is full. -/
  | added {span root path op e p} {m m' : Machine}
      (h : prepare setting root.name path op e m.ticked = .ok p m')
      (hscalar : p.value.isCollection = false) (hadds : AddsKey p.keys p.slot.value)
      (hle : setting.limits.maxElements ≤ p.slot.value.elementCount) :
      Overfills setting (.assign span root path op e) m

theorem sound_coerce {type : DeclType} (h : coerce type v = .ok w) (hv : Sound limit v) :
    Sound limit w := by
  unfold coerce at h
  split at h
  · cases h
    exact sound_of_scalar rfl
  · split at h
    · cases h
      exact hv
    · cases h

theorem coerce_list {type : DeclType} {items : List Value} (h : coerce type (.list items) = .ok w) :
    w = .list items := by
  unfold coerce at h
  split at h
  · cases ‹Value.list items = _›
  · split at h
    · cases h
      rfl
    · cases h

theorem length_of_evalPath {path : List Accessor} {keys : List PathKey}
    (h : evalPath setting path m = .ok keys m') : keys.length = path.length := by
  induction path generalizing m keys with
  | nil =>
    cases h
    rfl
  | cons first rest ih =>
    cases first with
    | index e =>
      obtain ⟨_, _, -, h⟩ := bind_eq_ok_iff.1 h
      obtain ⟨keys', _, hrest, hpure⟩ := bind_eq_ok_iff.1 h
      cases hpure
      rw [List.length_cons, List.length_cons, ih hrest]
    | member field =>
      obtain ⟨keys', _, hrest, hpure⟩ := bind_eq_ok_iff.1 h
      cases hpure
      rw [List.length_cons, List.length_cons, ih hrest]

/-- What an assignment is about to store: the value of its expression, or what an operator makes
of it, which is sound. -/
theorem evaluated_of_prepare (hlimit : 4 ≤ setting.limits.maxElements) {root : String}
    {path : List Accessor} {op : AssignOp} {e : Expr} {p : Prepared} (hm : Held setting m)
    (h : prepare setting root path op e m = .ok p m') :
    Sound setting.limits.maxElements p.value ∨ op = .set ∧ ∃ m₁,
      evalPath setting path m = .ok p.keys m₁ ∧ Evaluated setting e m₁ p.value := by
  obtain ⟨keys, m₁, hkeys, h⟩ := bind_eq_ok_iff.1 h
  have hm₁ : Held setting m₁ := by
    rw [Held, show m₁.scopes = m.scopes from (course_scopes.evalPath setting path).of_ok hkeys]
    exact hm
  obtain ⟨v, m₂, hv, h⟩ := bind_eq_ok_iff.1 h
  have hevaluated := evaluated hlimit e hm₁ hv
  obtain ⟨w, m₃, hw, h⟩ := bind_eq_ok_iff.1 h
  obtain ⟨slot, m₄, -, hpure⟩ := bind_eq_ok_iff.1 h
  cases hpure
  rw [assignedValue.eq_def] at hw
  rcases hop : op.binary? with - | operator
  · rw [hop] at hw
    cases hw
    have hset : op = .set := by
      cases op <;> first | rfl | cases hop
    exact .inr ⟨hset, m₁, hkeys, hevaluated⟩
  · rw [hop] at hw
    obtain ⟨slot', _, hlookup, hw⟩ := bind_eq_ok_iff.1 hw
    obtain ⟨current, _, hcurrent, happly⟩ := bind_eq_ok_iff.1 hw
    obtain ⟨hslot, rfl⟩ := lookup_eq_ok_iff.1 hlookup
    have hsound := (hm₁.of_eval hv).of_find hslot
    have hread := sound_readPath (lift_eq_ok_iff.1 hcurrent).1 hsound
    exact .inl (sound_apply (lift_eq_ok_iff.1 happly).1 hread.clean hevaluated.loose.clean)

theorem Written.clean {new : Value} {keys : List PathKey} (h : Written limit new keys v w)
    (hnew : Clean limit new) (hv : Clean limit v) : Clean limit w := by
  induction h with
  | here => exact hnew
  | item hindex hget _ ih =>
    have hw := ih (clean_item hv (List.mem_of_getElem? hget))
    refine .list fun u hu ↦ ?_
    obtain hu | rfl := List.mem_or_eq_of_mem_set hu
    · exact clean_item hv hu
    · exact hw
  | entry hkey hlookup _ ih =>
    obtain ⟨e, he, heq⟩ := mem_of_lookup hlookup
    have hw := ih (heq ▸ clean_entry hv he)
    refine .map fun e he ↦ ?_
    obtain heq | ⟨e', he', heq⟩ := mem_putEntry he
    · exact heq ▸ hw
    · exact heq ▸ clean_entry hv he'
  | added hkey hnone hlength =>
    refine .map fun e he ↦ ?_
    obtain heq | ⟨e', he', heq⟩ := mem_putEntry he
    · exact heq ▸ hnew
    · exact heq ▸ clean_entry hv he'

/-- A list or a map within the limit has no more elements than it. -/
theorem Sound.elementCount_le (h : Sound limit v) {u : Value} (hkind : Rebuilt v u) :
    v.elementCount ≤ limit := by
  cases hkind with
  | list _ _ => exact h.bounded
  | map _ _ => exact h.bounded

/-- A value that is bound to a variable is sound unless it lists an entry with too many elements. -/
theorem Evaluated.sound {e : Expr} (h : Evaluated setting e m v)
    (hfits : ∀ x, ListsEntry setting e m x → x.elementCount + 2 ≤ setting.limits.maxElements) :
    Sound setting.limits.maxElements v := by
  obtain h | ⟨key, x, rfl, hx, hlt, hlists⟩ := h
  · exact h
  · have hloose : Loose setting.limits.maxElements (.list [.string key, x]) :=
      Evaluated.loose (.inr ⟨key, x, rfl, hx, hlt, hlists⟩)
    refine ⟨hloose.clean, ?_⟩
    have := hfits x hlists
    simp only [Bounded, Value.itemCount, Value.elementCount]
    omega

theorem sound_declared (hlimit : 4 ≤ setting.limits.maxElements) {span : Span} {type : DeclType}
    {name : Ident} {init : Option Expr} {flow : Flow} (hm : Held setting m)
    (h : exec setting (.declare span type name init) m = .ok flow m')
    (hfits : ¬ Overfills setting (.declare span type name init) m) : Held setting m' := by
  obtain ⟨v, w, m₁, hsome, hnone, hcoerce, rfl⟩ := exec_declare_eq_ok h
  cases init with
  | some e =>
    have heval := hsome e rfl
    have hv : Sound setting.limits.maxElements v :=
      (evaluated hlimit e (m := m.ticked) hm heval).sound fun x hx ↦
        Nat.le_of_not_lt fun hlt ↦ hfits (.declared hx hlt)
    exact (Held.of_eval (m := m.ticked) hm heval).addSlot (sound_coerce hcoerce hv)
  | none =>
    obtain ⟨rfl, rfl⟩ := hnone rfl
    have hv : Sound setting.limits.maxElements (defaultFor type) :=
      sound_of_scalar (by cases type <;> rfl)
    have hticked : Held setting m.ticked := hm
    exact hticked.addSlot (sound_coerce hcoerce hv)

theorem sound_assigned (hlimit : 4 ≤ setting.limits.maxElements) {span : Span} {root : Ident}
    {path : List Accessor} {op : AssignOp} {e : Expr} {flow : Flow} (hm : Held setting m)
    (h : exec setting (.assign span root path op e) m = .ok flow m')
    (hfits : ¬ Overfills setting (.assign span root path op e) m) : Held setting m' := by
  obtain ⟨p, m₁, hprepare, hstore⟩ := exec_assign_eq_ok h
  have hm₁ : Held setting m₁ := by
    rw [Held, show m₁.scopes = m.ticked.scopes from
      (course_prepare course_scopes _ _ _ _ _).of_ok hprepare]
    exact hm
  have hslot := findSlot?_of_prepare hprepare
  have hvalue := evaluated_of_prepare hlimit (m := m.ticked) hm hprepare
  obtain ⟨hnil, w, hcoerce, rfl⟩ | ⟨key, rest, updated, hcons, hwrite, rfl, hshaped⟩ :=
    storeAt_eq_ok hstore
  · have hv : Sound setting.limits.maxElements p.value := by
      obtain hv | ⟨rfl, m₂, hpath, hv⟩ := hvalue
      · exact hv
      · have hlength := length_of_evalPath hpath
        rw [hnil] at hlength
        obtain rfl := List.eq_nil_of_length_eq_zero hlength.symm
        rw [evalPath, pure_apply, EStateM.Result.ok.injEq] at hpath
        obtain ⟨-, rfl⟩ := hpath
        exact hv.sound fun x hx ↦ Nat.le_of_not_lt fun hlt ↦ hfits (.assigned hx hlt)
    exact hm₁.setSlot hslot (sound_coerce hcoerce hv)
  · have hwritten := written_of_writePath hwrite
    have hroot := hm₁.of_find hslot
    have hclean : Clean setting.limits.maxElements p.value := by
      obtain hv | ⟨-, m₂, -, hv⟩ := hvalue
      · exact hv.clean
      · exact hv.loose.clean
    have hle : updated.elementCount ≤ setting.limits.maxElements := by
      rcases hcollection : p.value.isCollection with - | -
      · have hrebuilt := rebuilt_of_writePath (hcons ▸ hwrite)
        have hcount := hroot.elementCount_le hrebuilt
        have hzero := elementCount_of_scalar hcollection
        obtain ⟨hadds, heq⟩ | ⟨-, hle⟩ := hwritten.elementCount
        · have hlt : p.slot.value.elementCount < setting.limits.maxElements :=
            Nat.lt_of_not_le fun hfull ↦ hfits (.added hprepare hcollection hadds hfull)
          omega
        · omega
      · obtain ⟨w, hshaped⟩ := hshaped hcollection
        exact (shaped_eq_ok hshaped).2.1
    exact hm₁.setSlot hslot
      ⟨hwritten.clean hclean hroot.clean, bounded_of_elementCount_le hle⟩

/-- The items of a loop are sound. -/
theorem sound_itemsOf {items : List Value} (hv : Loose limit v)
    (h : itemsOf limit v = .ok items) : ∀ item ∈ items, Sound limit item := by
  cases v with
  | list items =>
    cases h
    exact fun item hitem ↦ hv.item hitem
  | map entries =>
    cases h
    intro item hitem
    obtain ⟨⟨k, x⟩, he, rfl⟩ := List.mem_map.1 hitem
    obtain ⟨hx, hlt⟩ := hv.entry he
    exact ⟨.entry hx.clean hlt, trivial⟩
  | string s =>
    cases h
    intro item hitem
    obtain ⟨c, -, rfl⟩ := List.mem_map.1 hitem
    exact sound_of_scalar rfl
  | _ => cases h

/-- Where no statement that ends is one that lets a variable pass the limit, the limit is kept. -/
theorem kept_sound (hlimit : 4 ≤ setting.limits.maxElements) :
    Kept setting (fun s m ↦ ∀ flow m', exec setting s m = .ok flow m' → ¬ Overfills setting s m)
      (fun slot ↦ Sound setting.limits.maxElements slot.value) (fun _ ↦ True)
      (Sound setting.limits.maxElements) where
  left _ _ := trivial
  items hm heval hitems := sound_itemsOf (evaluated hlimit _ hm heval).loose hitems
  bind hitem hcoerce := sound_coerce hcoerce hitem
  declare {span type name init m} hm hallowed := by
    rcases hexec : exec setting (.declare span type name init) m with ⟨flow, m'⟩ | ⟨halt, m'⟩
    · exact sound_declared hlimit hm hexec (hallowed flow m' hexec)
    · exact fun _ _ _ _ ↦ trivial
  assign {span root path op value m} hm hallowed := by
    rcases hexec : exec setting (.assign span root path op value) m with ⟨flow, m'⟩ | ⟨halt, m'⟩
    · exact sound_assigned hlimit hm hexec (hallowed flow m' hexec)
    · exact fun _ _ _ _ ↦ trivial

/-! ### Statements that pass the limit -/

theorem elementCount_of_within {u : Value} (h : Within limit v) (hkind : Rebuilt u v) :
    v.elementCount ≤ limit := by
  have hv := h v .refl
  cases hkind with
  | list _ _ => exact hv
  | map _ _ => exact hv

/-- A statement that overfills leaves a variable behind that passes the limit. -/
theorem not_within_of_overfills {s : Stmt} {flow : Flow} (hscopes : m.scopes ≠ [])
    (h : exec setting s m = .ok flow m') (hover : Overfills setting s m) :
    ¬ AllSlots (fun slot ↦ Within setting.limits.maxElements slot.value) m'.scopes := by
  intro hwithin
  cases hover with
  | declared hlists hlt =>
    obtain ⟨v, w, m₁, hsome, -, hcoerce, rfl⟩ := exec_declare_eq_ok h
    have heval := hsome _ rfl
    obtain ⟨key, rfl⟩ := value_of_listsEntry hlists heval
    obtain rfl := coerce_list hcoerce
    have heq : m₁.scopes = m.ticked.scopes := (course_scopes.eval setting _).of_ok heval
    obtain ⟨scope, rest, hcons⟩ := List.exists_cons_of_ne_nil hscopes
    rw [heq, Machine.ticked_scopes, hcons] at hwithin
    have hle := hwithin _ (.head _) _ (.head _) _ .refl
    simp only [Bounded, Value.itemCount, Value.elementCount] at hle
    omega
  | assigned hlists hlt =>
    obtain ⟨p, m₁, hprepare, hstore⟩ := exec_assign_eq_ok h
    have hslot := findSlot?_of_prepare hprepare
    obtain ⟨_, hpath, heval⟩ := prepare_set_eq_ok hprepare
    rw [evalPath, pure_apply, EStateM.Result.ok.injEq] at hpath
    obtain ⟨hnil, rfl⟩ := hpath
    obtain ⟨key, hvalue⟩ := value_of_listsEntry hlists heval
    obtain ⟨-, w, hcoerce, rfl⟩ | ⟨_, _, _, hcons, -⟩ := storeAt_eq_ok hstore
    · rw [hvalue] at hcoerce
      obtain rfl := coerce_list hcoerce
      have hle := hwithin.of_find (findSlot?_setSlot hslot) _ .refl
      simp only [Bounded, Value.itemCount, Value.elementCount] at hle
      omega
    · rw [← hnil] at hcons
      cases hcons
  | added hprepare hscalar hadds hle =>
    obtain ⟨p, m₁, hprepare', hstore⟩ := exec_assign_eq_ok h
    cases hprepare.symm.trans hprepare'
    have hslot := findSlot?_of_prepare hprepare
    obtain ⟨hnil, -⟩ | ⟨key, rest, updated, hcons, hwrite, rfl, -⟩ := storeAt_eq_ok hstore
    · rw [hnil] at hadds
      cases hadds
    · have hcount := (written_of_writePath hwrite).elementCount
      have hrebuilt := rebuilt_of_writePath (hcons ▸ hwrite)
      have hle' := elementCount_of_within
        (hwithin.of_find (findSlot?_setSlot hslot)) hrebuilt
      obtain ⟨-, heq⟩ | ⟨hnot, -⟩ := hcount
      · dsimp only at hle'
        omega
      · exact hnot hadds

/-! ### Statements that are refused -/

/-- The collection that an expression makes of its parts, once these have values. -/
inductive Builds (setting : Setting) : Expr → Machine → Value → Prop
  | list {span items vs} {m m' : Machine}
      (h : (do tick setting; evalItems setting items) m = .ok vs m') :
      Builds setting (.list span items) m (.list vs)
  | map {span entries es} {m m' : Machine}
      (h : (do tick setting; evalEntries setting [] entries) m = .ok es m') :
      Builds setting (.map span entries) m (.map es)
  | sum {span lhs rhs xs ys} {m m₁ m' : Machine}
      (hleft : (do tick setting; eval setting lhs) m = .ok (.list xs) m₁)
      (hright : eval setting rhs m₁ = .ok (.list ys) m') :
      Builds setting (.binary span .add lhs rhs) m (.list (xs ++ ys))

/-- A statement is about to make a variable hold a collection that passes the limit: one that its
expression builds, or one that a collection written into becomes. -/
inductive WouldPass (setting : Setting) : Stmt → Machine → Prop
  | declared {span type name e v} {m : Machine} (htick : tick setting m = .ok () m.ticked)
      (h : Builds setting e m.ticked v) (hlt : setting.limits.maxElements < v.elementCount) :
      WouldPass setting (.declare span type name (some e)) m
  | assigned {span root path op e v keys} {m m' : Machine}
      (hpath : (do tick setting; evalPath setting path) m = .ok keys m')
      (h : Builds setting e m' v) (hlt : setting.limits.maxElements < v.elementCount) :
      WouldPass setting (.assign span root path op e) m
  | written {span root path op e p v} {m m' : Machine} (htick : tick setting m = .ok () m.ticked)
      (h : prepare setting root.name path op e m.ticked = .ok p m') (hpath : p.keys ≠ [])
      (hcollection : p.value.isCollection = true)
      (hwrite : writePath setting.limits.maxElements p.value p.keys p.slot.value = .ok v)
      (hlt : setting.limits.maxElements < v.elementCount) :
      WouldPass setting (.assign span root path op e) m

/-- A computation ends with a fault of the kind that stands for too large collections. -/
def Refused {α : Type} (r : Ended α) : Prop :=
  ∃ fault m, r = .error (.fault fault) m ∧ fault.typeName = "CapacityExceededError"

theorem refused_bind {α β : Type} {x : Step α} (h : Refused (x m)) (f : α → Step β) :
    Refused ((x >>= f) m) := by
  obtain ⟨fault, m', hx, hfault⟩ := h
  exact ⟨fault, m', bind_of_error hx f, hfault⟩

theorem refused_of_ok {α β : Type} {x : Step α} {a : α} (hx : x m = .ok a m') {f : α → Step β}
    (h : Refused (f a m')) : Refused ((x >>= f) m) := by
  rw [bind_of_ok hx]
  exact h

theorem refused_shaped (h : limit < v.elementCount) : Refused (lift (shaped limit v) m) := by
  obtain ⟨fault, hshaped, hfault⟩ := shaped_of_lt h
  exact ⟨fault, m, by rw [hshaped]; rfl, hfault⟩

/-- A literal that is refused behind the look at its length is refused. -/
theorem refused_checkLength {n : Nat} {x : Step Value} (h : Refused (x m)) :
    Refused ((do checkLength setting n; x) m) := by
  by_cases hn : setting.limits.maxElements < n
  · refine refused_bind (x := checkLength setting n) ?_ _
    rw [checkLength, if_pos hn]
    exact ⟨_, m, rfl, rfl⟩
  · have hok : checkLength setting n m = .ok () m := by
      rw [checkLength, if_neg hn]
      rfl
    exact refused_of_ok hok h

/-- An expression that builds too large a collection is refused. -/
theorem refused_of_builds {e : Expr} (h : Builds setting e m v)
    (hlt : setting.limits.maxElements < v.elementCount) : Refused (eval setting e m) := by
  cases h with
  | list h =>
    obtain ⟨_, m₁, htick, hitems⟩ := bind_eq_ok_iff.1 h
    refine refused_of_ok htick (refused_checkLength ?_)
    exact refused_of_ok hitems (refused_shaped hlt)
  | map h =>
    obtain ⟨_, m₁, htick, hentries⟩ := bind_eq_ok_iff.1 h
    refine refused_of_ok htick (refused_checkLength ?_)
    exact refused_of_ok hentries (refused_shaped hlt)
  | @sum _ _ _ xs ys _ _ _ hleft hright =>
    obtain ⟨_, m₁, htick, hl⟩ := bind_eq_ok_iff.1 hleft
    refine refused_of_ok htick (refused_of_ok hl (refused_of_ok hright ?_))
    show Refused (lift (append setting.limits.maxElements xs ys) _)
    rw [append]
    split
    · exact ⟨_, _, rfl, rfl⟩
    · exact refused_shaped hlt

/-- A statement that is about to pass the limit with a collection that is looked at ends in the
fault for it instead. -/
theorem refused_of_wouldPass {s : Stmt} (h : WouldPass setting s m) :
    Refused (exec setting s m) := by
  cases h with
  | declared htick h hlt => exact refused_of_ok htick (refused_bind (refused_of_builds h hlt) _)
  | assigned hpath h hlt =>
    obtain ⟨_, m₁, htick, hkeys⟩ := bind_eq_ok_iff.1 hpath
    refine refused_of_ok htick (refused_bind ?_ _)
    exact refused_of_ok hkeys (refused_bind (refused_of_builds h hlt) _)
  | @written _ root path op e p v _ m₁ htick h hpath hcollection hwrite hlt =>
    refine refused_of_ok htick (refused_bind ?_ _)
    rw [assign_eq]
    refine refused_of_ok h ?_
    obtain ⟨keys, value, slot⟩ := p
    cases keys with
    | nil => exact absurd rfl hpath
    | cons key rest =>
      obtain ⟨fault, hshaped, hfault⟩ := shaped_of_lt hlt
      refine ⟨fault, m₁.stored root.name v, ?_, hfault⟩
      rw [storeAt.eq_def]
      dsimp only at hcollection hwrite ⊢
      rw [hwrite]
      dsimp only
      rw [if_pos hcollection, hshaped]

/-! ### Runs -/

/-- A statement of a run, taken up in `m`, has ended in `m'` without a halt. -/
def Completes (setting : Setting) (program : Program) (outbox : Outbox) (s : Stmt)
    (m m' : Machine) : Prop :=
  ∃ trace r flow, RunsOf setting program outbox trace r ∧ ⟨.stmt s, m, .ok flow m'⟩ ∈ trace

theorem Completes.exec_eq {program : Program} {outbox : Outbox} {s : Stmt}
    (h : Completes setting program outbox s m m') : ∃ flow, exec setting s m = .ok flow m' := by
  obtain ⟨trace, r, flow, hrun, he⟩ := h
  obtain ⟨trace', hown⟩ := hrun.of_mem he
  exact ⟨flow, hown.result_eq.symm⟩

/-- Behind every completed statement of a run no list or map that a live local holds has more
elements than the limit, if and only if no completed statement overfills one. What is about to
pass the limit in any other way is refused. -/
theorem element_limit_iff (setting : Setting) (program : Program) (outbox : Outbox)
    (hlimit : 4 ≤ setting.limits.maxElements) :
    ((∀ s m m', Completes setting program outbox s m m' →
        ∀ scope ∈ m'.scopes, ∀ slot ∈ scope, Within setting.limits.maxElements slot.value) ↔
      ∀ s m m', Completes setting program outbox s m m' → ¬ Overfills setting s m) ∧
    ∀ s m, WouldPass setting s m → ∃ fault m', exec setting s m = .error (.fault fault) m' ∧
      fault.typeName = "CapacityExceededError" := by
  refine ⟨⟨fun hwithin s m m' hs hover ↦ ?_, fun hfits s m m' hs ↦ ?_⟩,
    fun s m h ↦ refused_of_wouldPass h⟩
  · obtain ⟨flow, hexec⟩ := hs.exec_eq
    obtain ⟨trace, r, flow', hrun, he⟩ := hs
    have hdepth : 1 ≤ m.scopes.length := hrun.depth_le _ he
    have hscopes : m.scopes ≠ [] := List.ne_nil_of_length_pos hdepth
    exact not_within_of_overfills hscopes hexec hover
      (hwithin s m m' ⟨trace, r, flow', hrun, he⟩)
  · obtain ⟨trace, r, flow, hrun, he⟩ := hs
    have hallowed : ∀ e ∈ trace, ∀ s, e.task = .stmt s →
        ∀ flow m', exec setting s e.start = .ok flow m' → ¬ Overfills setting s e.start := by
      intro e he s hs flow m' hexec
      obtain ⟨t, start, result⟩ := e
      obtain rfl : t = .stmt s := hs
      obtain ⟨trace', hown⟩ := hrun.of_mem he
      have hresult : result = .ok flow m' := hown.result_eq.trans hexec
      exact hfits s start m' ⟨trace, r, flow, hrun, hresult ▸ he⟩
    have hkeeps := hrun.keeps (kept_sound hlimit) (.start outbox) trivial hallowed
    have hsound : AllSlots (fun slot ↦ Sound setting.limits.maxElements slot.value) m'.scopes :=
      (hkeeps.1 _ he).2
    exact fun scope hscope slot hslot ↦ (hsound scope hscope slot hslot).within

/-- The script `list xs = [0, 0, 0, 0, 0];`. -/
def fiveItems : Stmt :=
  .declare ⟨0, 26⟩ .list ⟨"xs", ⟨5, 7⟩⟩
    (some (.list ⟨10, 25⟩ ([11, 14, 17, 20, 23].map fun i ↦ .literal ⟨i, i + 1⟩ (.int 0))))

/-- Under a limit of four elements a list of five is refused. -/
theorem element_limit_iff_fiveItems :
    4 ≤ (Setting.untimed ⟨100, 1000, 4⟩).limits.maxElements ∧
      ∃ fault m', exec (.untimed ⟨100, 1000, 4⟩) fiveItems (.start (.fresh true)) =
        .error (.fault fault) m' ∧ fault.typeName = "CapacityExceededError" :=
  ⟨Nat.le_refl 4, (element_limit_iff (.untimed ⟨100, 1000, 4⟩) ⟨[fiveItems], none⟩ (.fresh true)
    (Nat.le_refl 4)).2 _ _ (.declared rfl (.list rfl) (Nat.lt_succ_self 4))⟩

/-- The script `var m = {"a": [1, 2, 3]}; m.b = 4; m`. -/
def overfilling : Program where
  statements :=
    [.declare ⟨0, 25⟩ .var ⟨"m", ⟨4, 5⟩⟩ (some (.map ⟨8, 24⟩
        [(.literal ⟨9, 12⟩ (.string "a"), .list ⟨14, 23⟩ [.literal ⟨15, 16⟩ (.int 1),
          .literal ⟨18, 19⟩ (.int 2), .literal ⟨21, 22⟩ (.int 3)])])),
      .assign ⟨26, 34⟩ ⟨"m", ⟨26, 27⟩⟩ [.member ⟨"b", ⟨28, 29⟩⟩] .set (.literal ⟨32, 33⟩ (.int 4))]
  tail := some (.name ⟨35, 36⟩ "m")

/-- The limit is not kept in every run: a number under a new key is the fifth element. -/
theorem element_limit_overfilling :
    ¬ ∀ s m m', Completes (.untimed ⟨100, 1000, 4⟩) overfilling (.fresh true) s m m' →
      ∀ scope ∈ m'.scopes, ∀ slot ∈ scope, Within 4 slot.value := by
  intro h
  have hrun : RunsOf (.untimed ⟨100, 1000, 4⟩) overfilling (.fresh true) _ _ :=
    .listNext (.stmt rfl .done) rfl (.listNext (.stmt rfl .done) rfl .listEnds)
  have hcompletes : Completes (.untimed ⟨100, 1000, 4⟩) overfilling (.fresh true) _ _ _ :=
    ⟨_, _, _, hrun, .tail _ (List.mem_append_right _ (.tail _ (.head _)))⟩
  have hle : 5 ≤ 4 := h _ _ _ hcompletes _ (.head _) _ (.head _) _ .refl
  exact absurd hle (by decide)

end Snippet.Run
