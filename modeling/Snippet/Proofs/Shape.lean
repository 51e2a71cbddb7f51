import Snippet.Run.Operator

/-!
# Counting elements

The walk that holds a value to the limits counts what `elementCount` counts, and it goes as deep
as `depth` says: it passes a value only within both limits, and the limit that it reports is one
that is exceeded (`tallied_countFrom`). The induction is on the value by way of the elements of its
collections (`induction_on_children`), with the count so far carried along.

The other lemmas say how the number of elements changes where lists are joined and where an element
is replaced.
-/

namespace Snippet

namespace Value

variable {limit room seen n i : Nat} {v w : Value} {items : List Value}
  {entries : List (String × Value)} {key : String}

/-! ### The elements of a collection -/

/-- The elements of a collection: the items of a list, and the values of a map or an object. -/
def children : Value → List Value
  | list items => items
  | map entries => entries.map Prod.snd
  | object _ fields _ => fields.map Prod.snd
  | _ => []

theorem sizeOf_lt_of_mem_children (h : w ∈ v.children) : sizeOf w < sizeOf v := by
  have hentry {entries : List (String × Value)} (h : w ∈ entries.map Prod.snd) :
      sizeOf w < sizeOf entries := by
    obtain ⟨⟨key, u⟩, hu, rfl⟩ := List.mem_map.1 h
    have hpair : sizeOf (key, u) = 1 + sizeOf key + sizeOf u := rfl
    have hlt := List.sizeOf_lt_of_mem hu
    show sizeOf u < sizeOf entries
    omega
  cases v with
  | list items =>
    have hlt := List.sizeOf_lt_of_mem (show w ∈ items from h)
    rw [list.sizeOf_spec]
    omega
  | map entries =>
    have hlt := hentry h
    rw [map.sizeOf_spec]
    omega
  | object kind fields display =>
    have hlt := hentry h
    rw [object.sizeOf_spec]
    omega
  | _ => cases h

/-- What is true of a value whenever it is true of its elements is true of all values. -/
theorem induction_on_children {motive : Value → Prop}
    (h : ∀ v, (∀ w ∈ v.children, motive w) → motive v) (v : Value) : motive v :=
  h v fun w _ ↦ induction_on_children h w
termination_by sizeOf v
decreasing_by exact sizeOf_lt_of_mem_children ‹_›

theorem isCollection_of_mem_children (h : w ∈ v.children) : v.isCollection = true := by
  cases v with
  | list _ => rfl
  | map _ => rfl
  | object _ _ _ => rfl
  | _ => cases h

theorem depth_of_scalar (h : v.isCollection = false) : v.depth = 0 := by
  cases v with
  | list _ => cases h
  | map _ => cases h
  | object _ _ _ => cases h
  | _ => rfl

theorem itemCount_map_snd (entries : List (String × Value)) :
    itemCount (entries.map Prod.snd) = entryCount entries := by
  induction entries with
  | nil => rfl
  | cons first rest ih =>
    obtain ⟨k, u⟩ := first
    rw [List.map_cons, itemCount, entryCount, ih]

theorem itemDepth_map_snd (entries : List (String × Value)) :
    itemDepth (entries.map Prod.snd) = entryDepth entries := by
  induction entries with
  | nil => rfl
  | cons first rest ih => rw [List.map_cons, itemDepth, entryDepth, ih]

theorem elementCount_eq_itemCount (v : Value) : v.elementCount = itemCount v.children := by
  cases v with
  | map entries => exact (itemCount_map_snd entries).symm
  | object _ fields _ => exact (itemCount_map_snd fields).symm
  | _ => rfl

theorem depth_of_collection (h : v.isCollection = true) :
    v.depth = itemDepth v.children + 1 := by
  cases v with
  | list _ => rfl
  | map entries => exact congrArg (· + 1) (itemDepth_map_snd entries).symm
  | object _ fields _ => exact congrArg (· + 1) (itemDepth_map_snd fields).symm
  | _ => cases h

/-! ### The walk -/

theorem countItems_map_snd (limit room : Nat) (entries : List (String × Value)) (seen : Nat) :
    countItems limit room (entries.map Prod.snd) seen = countEntries limit room entries seen := by
  induction entries generalizing seen with
  | nil => rfl
  | cons first rest ih => simp only [List.map_cons, countItems, countEntries, ih]

/-- The walk goes through the elements of a collection, if there is room for one more level. -/
theorem countFrom_of_collection (h : v.isCollection = true) :
    countFrom limit room v seen =
      if room = 0 then .error .depth else countItems limit (room - 1) v.children seen := by
  cases v with
  | list _ => cases room <;> rfl
  | map entries =>
    cases room with
    | zero => rfl
    | succ room => exact (countItems_map_snd limit room entries seen).symm
  | object _ fields _ =>
    cases room with
    | zero => rfl
    | succ room => exact (countItems_map_snd limit room fields seen).symm
  | _ => cases h

theorem countFrom_of_scalar (h : v.isCollection = false) :
    countFrom limit room v seen = .ok seen := by
  cases v with
  | list _ => cases h
  | map _ => cases h
  | object _ _ _ => cases h
  | _ => rfl

/-- The limit that is reported is exceeded by a number of elements or by a depth. -/
def Oversize.Exceeds (maxElements maxDepth count depth : Nat) : Oversize → Prop
  | .elements => maxElements < count
  | .depth => maxDepth < depth

theorem Oversize.Exceeds.mono {oversize : Oversize} {count count' depth depth' : Nat}
    (h : oversize.Exceeds limit room count depth) (hcount : count ≤ count')
    (hdepth : depth ≤ depth') : oversize.Exceeds limit room count' depth' := by
  cases oversize with
  | elements => exact Nat.lt_of_lt_of_le h hcount
  | depth => exact Nat.lt_of_lt_of_le h hdepth

/-- What the walk should answer for something of `count` elements and a depth of `depth` when it
has seen `seen` elements before: the new count where that keeps both limits, and otherwise one that
is exceeded. -/
def Tallied (limit room seen count depth : Nat) : Except Oversize Nat → Prop
  | .ok n => n = seen + count ∧ n ≤ limit ∧ depth ≤ room
  | .error oversize => oversize.Exceeds limit room (seen + count) depth

/-- The count goes on from item to item. What it has come to before an item keeps the limit, so the
item is walked through as if the walk started there. -/
theorem tallied_countItems
    (hitems : ∀ v ∈ items, ∀ {seen}, seen ≤ limit →
      Tallied limit room seen v.elementCount v.depth (countFrom limit room v seen))
    (hseen : seen ≤ limit) :
    Tallied limit room seen (itemCount items) (itemDepth items)
      (countItems limit room items seen) := by
  induction items generalizing seen with
  | nil => exact ⟨rfl, hseen, Nat.zero_le _⟩
  | cons v rest ih =>
    obtain ⟨hv, hrest⟩ := List.forall_mem_cons.1 hitems
    rw [countItems, itemCount, itemDepth]
    split
    · next hlt =>
      show limit < seen + (1 + v.elementCount + itemCount rest)
      omega
    · next hle =>
      have hnext : seen + 1 ≤ limit := Nat.not_lt.1 hle
      have hfirst := hv hnext
      rcases hcount : countFrom limit room v (seen + 1) with oversize | n
      · rw [hcount] at hfirst
        exact hfirst.mono (by omega) (Nat.le_max_left ..)
      · rw [hcount] at hfirst
        obtain ⟨rfl, hlimit, hdepth⟩ := hfirst
        have hbehind := ih hrest hlimit
        dsimp only
        rcases hcounts : countItems limit room rest _ with oversize | n
        · rw [hcounts] at hbehind
          exact hbehind.mono (by omega) (Nat.le_max_right ..)
        · rw [hcounts] at hbehind
          obtain ⟨rfl, hlimit, hdepths⟩ := hbehind
          exact ⟨by omega, hlimit, Nat.max_le.2 ⟨hdepth, hdepths⟩⟩

/-- The walk counts the elements of a value and looks at its depth. -/
theorem tallied_countFrom (v : Value) {room seen : Nat} (hseen : seen ≤ limit) :
    Tallied limit room seen v.elementCount v.depth (countFrom limit room v seen) := by
  induction v using induction_on_children generalizing room seen with
  | h v ih =>
    rw [elementCount_eq_itemCount]
    rcases hcollection : v.isCollection with - | -
    · have hchildren : v.children = [] := by
        refine List.eq_nil_iff_forall_not_mem.2 fun w hw ↦ ?_
        rw [isCollection_of_mem_children hw] at hcollection
        cases hcollection
      rw [countFrom_of_scalar hcollection, depth_of_scalar hcollection, hchildren]
      exact ⟨rfl, hseen, Nat.zero_le _⟩
    · rw [countFrom_of_collection hcollection, depth_of_collection hcollection]
      split
      · next hroom =>
        show room < itemDepth v.children + 1
        omega
      · next hroom =>
        have hinside : Tallied limit (room - 1) seen (itemCount v.children) (itemDepth v.children)
            (countItems limit (room - 1) v.children seen) :=
          tallied_countItems (fun w hw _ ↦ ih w hw) hseen
        rcases hcount : countItems limit (room - 1) v.children seen with oversize | n
        · rw [hcount] at hinside
          cases oversize with
          | elements => exact hinside
          | depth =>
            replace hinside : room - 1 < itemDepth v.children := hinside
            show room < itemDepth v.children + 1
            omega
        · rw [hcount] at hinside
          obtain ⟨hn, hlimit, hdepth⟩ := hinside
          exact ⟨hn, hlimit, by omega⟩

/-- A value that passes keeps both limits, and one that does not exceeds the limit that is
reported. -/
theorem checkShape_cases (limit maxDepth : Nat) (v : Value) :
    (v.checkShape limit maxDepth = .ok () ∧ v.elementCount ≤ limit ∧ v.depth ≤ maxDepth) ∨
      ∃ oversize : Oversize, v.checkShape limit maxDepth = .error oversize ∧
        oversize.Exceeds limit maxDepth v.elementCount v.depth := by
  have h : Tallied limit maxDepth 0 v.elementCount v.depth (countFrom limit maxDepth v 0) :=
    tallied_countFrom v (Nat.zero_le _)
  rw [checkShape]
  rcases hcount : countFrom limit maxDepth v 0 with oversize | n
  · rw [hcount] at h
    exact .inr ⟨oversize, rfl, (Nat.zero_add v.elementCount) ▸ h⟩
  · rw [hcount] at h
    obtain ⟨rfl, hlimit, hdepth⟩ := h
    exact .inl ⟨rfl, (Nat.zero_add v.elementCount) ▸ hlimit, hdepth⟩

theorem checkShape_eq_ok_iff {maxDepth : Nat} :
    v.checkShape limit maxDepth = .ok () ↔ v.elementCount ≤ limit ∧ v.depth ≤ maxDepth := by
  rcases checkShape_cases limit maxDepth v with ⟨h, hwithin⟩ | ⟨oversize, h, hexceeds⟩
  · exact ⟨fun _ ↦ hwithin, fun _ ↦ h⟩
  · refine ⟨fun hok ↦ (nomatch h.symm.trans hok), fun ⟨hcount, hdepth⟩ ↦ ?_⟩
    cases oversize with
    | elements => exact absurd hcount (Nat.not_le.2 hexceeds)
    | depth => exact absurd hdepth (Nat.not_le.2 hexceeds)

/-! ### Changes of a collection -/

theorem lt_itemCount_of_mem (h : v ∈ items) : elementCount v < itemCount items := by
  induction items with
  | nil => cases h
  | cons first rest ih =>
    rw [itemCount]
    obtain rfl | h := List.mem_cons.1 h
    · omega
    · have := ih h
      omega

theorem lt_entryCount_of_mem (h : (key, v) ∈ entries) : elementCount v < entryCount entries := by
  induction entries with
  | nil => cases h
  | cons first rest ih =>
    obtain ⟨k, u⟩ := first
    rw [entryCount]
    rcases List.mem_cons.1 h with heq | h
    · cases heq
      omega
    · have := ih h
      omega

theorem length_le_entryCount (entries : List (String × Value)) :
    entries.length ≤ entryCount entries := by
  induction entries with
  | nil => exact Nat.le_refl _
  | cons first rest ih =>
    obtain ⟨k, u⟩ := first
    rw [entryCount, List.length_cons]
    omega

/-- A list of values without elements counts as many as it is long. -/
theorem itemCount_of_scalars (h : ∀ v ∈ items, elementCount v = 0) :
    itemCount items = items.length := by
  induction items with
  | nil => rfl
  | cons first rest ih =>
    rw [itemCount, h first (.head _), ih fun v hv ↦ h v (.tail _ hv), List.length_cons]
    omega

/-- An element that is replaced takes its elements with it. -/
theorem itemCount_set (h : items[i]? = some v) :
    itemCount (items.set i w) + elementCount v = itemCount items + elementCount w := by
  induction items generalizing i with
  | nil => cases h
  | cons first rest ih =>
    cases i with
    | zero =>
      rw [List.getElem?_cons_zero, Option.some.injEq] at h
      subst h
      rw [List.set_cons_zero, itemCount, itemCount]
      omega
    | succ i =>
      rw [List.getElem?_cons_succ] at h
      have := ih h
      rw [List.set_cons_succ, itemCount, itemCount]
      omega

theorem entryCount_putEntry_of_some (h : entries.lookup key = some v) :
    entryCount (putEntry key w entries) + elementCount v = entryCount entries + elementCount w := by
  induction entries with
  | nil => cases h
  | cons first rest ih =>
    obtain ⟨k, u⟩ := first
    rw [List.lookup_cons] at h
    rw [putEntry]
    by_cases hk : k = key
    · rw [if_pos hk, entryCount, entryCount]
      simp only [hk, beq_self_eq_true, Option.some.injEq] at h
      subst h
      omega
    · simp only [beq_eq_false_iff_ne.2 (Ne.symm hk)] at h
      rw [if_neg hk, entryCount, entryCount]
      have := ih h
      omega

/-- A new key is one more element, beside those of its value. -/
theorem entryCount_putEntry_of_none (h : entries.lookup key = none) :
    entryCount (putEntry key w entries) = entryCount entries + 1 + elementCount w := by
  induction entries with
  | nil =>
    simp only [putEntry, entryCount]
    omega
  | cons first rest ih =>
    obtain ⟨k, u⟩ := first
    rw [List.lookup_cons] at h
    rw [putEntry]
    by_cases hk : k = key
    · simp [hk] at h
    · simp only [beq_eq_false_iff_ne.2 (Ne.symm hk)] at h
      rw [if_neg hk, entryCount, entryCount, ih h]
      omega

end Value

namespace Run

variable {limit : Nat} {v w : Value}

/-- What the limits let through is the value itself, within both limits. What they refuse exceeds
the limit that the fault names. -/
theorem shaped_cases (limit : Nat) (v : Value) :
    shaped limit v = .ok v ∧ v.elementCount ≤ limit ∧ v.depth ≤ maxNesting ∨
      shaped limit v = .error (.tooManyElements limit) ∧ limit < v.elementCount ∨
      shaped limit v = .error (.tooDeep maxNesting) ∧ maxNesting < v.depth := by
  rw [shaped]
  rcases Value.checkShape_cases limit maxNesting v with ⟨h, hwithin⟩ | ⟨oversize, h, hexceeds⟩
  · rw [h]
    exact .inl ⟨rfl, hwithin⟩
  · rw [h]
    cases oversize with
    | elements => exact .inr (.inl ⟨rfl, hexceeds⟩)
    | depth => exact .inr (.inr ⟨rfl, hexceeds⟩)

theorem shaped_eq_ok (h : shaped limit v = .ok w) :
    w = v ∧ v.elementCount ≤ limit ∧ v.depth ≤ maxNesting := by
  rcases shaped_cases limit v with ⟨h', hwithin⟩ | ⟨h', -⟩ | ⟨h', -⟩
  · cases h.symm.trans h'
    exact ⟨rfl, hwithin⟩
  · cases h.symm.trans h'
  · cases h.symm.trans h'

/-- What the limits refuse is refused by a fault of capacity. -/
theorem typeName_of_shaped {fault : Fault} (h : shaped limit v = .error fault) :
    fault.typeName = "CapacityExceededError" := by
  rcases shaped_cases limit v with ⟨h', -⟩ | ⟨h', -⟩ | ⟨h', -⟩
  · cases h.symm.trans h'
  · cases h.symm.trans h'
    rfl
  · cases h.symm.trans h'
    rfl

/-- A value with too many elements is refused. -/
theorem shaped_of_lt (h : limit < v.elementCount) :
    ∃ fault, shaped limit v = .error fault ∧ fault.typeName = "CapacityExceededError" := by
  rcases hshaped : shaped limit v with fault | w
  · exact ⟨fault, rfl, typeName_of_shaped hshaped⟩
  · exact absurd h (Nat.not_lt.2 (shaped_eq_ok hshaped).2.1)

end Run

end Snippet
