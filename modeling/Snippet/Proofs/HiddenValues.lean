import Snippet.Proofs.Parallel

/-!
# States that differ in the values of one name

Two states are near each other if they differ at most in the values of the variables of one name in
the innermost blocks. A run cannot tell them from each other as long as it does not read the name
(`twins_near`): it may declare and set variables of that name on the way, and outside of these
blocks there may be other ones, which are the same in both states.

Which values are hidden does not matter: `hideIn` puts null for all of them, and two states are near
each other if nothing is left to tell them apart then. For what changes the variables it is enough
that it can be done on a state with hidden values just as well.
-/

namespace Snippet.Run

variable {x name : String} {k : Nat} {m m' : Machine}

/-- Hides the value of a variable if it has this name. -/
def hide (x : String) (slot : Slot) : Slot :=
  if slot.name = x then { slot with value := .null } else slot

@[simp]
theorem hide_name (x : String) (slot : Slot) : (hide x slot).name = slot.name := by
  rw [hide]
  split <;> rfl

@[simp]
theorem hide_type (x : String) (slot : Slot) : (hide x slot).type = slot.type := by
  rw [hide]
  split <;> rfl

theorem hide_of_ne {slot : Slot} (h : slot.name ≠ x) : hide x slot = slot :=
  if_neg h

/-- A value that is set replaces a hidden one. -/
theorem hide_set (x : String) (slot : Slot) (v : Value) :
    ({ hide x slot with value := v } : Slot) = { slot with value := v } := by
  rw [hide]
  split <;> rfl

@[simp]
theorem hide_hide (x : String) (slot : Slot) : hide x (hide x slot) = hide x slot := by
  by_cases h : slot.name = x
  · rw [hide, hide, if_pos h, if_pos h]
  · rw [hide_of_ne h, hide_of_ne h]

@[simp]
theorem map_hide_map_hide (x : String) (scope : List Slot) :
    (scope.map (hide x)).map (hide x) = scope.map (hide x) := by
  rw [List.map_map]
  exact List.map_congr_left fun slot _ ↦ hide_hide x slot

/-- Hides the values of the variables of a name in the innermost `k` blocks. -/
def hideIn (x : String) : Nat → List (List Slot) → List (List Slot)
  | 0, scopes => scopes
  | _ + 1, [] => []
  | k + 1, scope :: rest => scope.map (hide x) :: hideIn x k rest

theorem hideIn_hideIn (x : String) (k : Nat) (scopes : List (List Slot)) :
    hideIn x k (hideIn x k scopes) = hideIn x k scopes := by
  induction k generalizing scopes with
  | zero => rfl
  | succ k ih =>
    cases scopes with
    | nil => rfl
    | cons scope rest =>
      rw [hideIn, hideIn, ih, map_hide_map_hide]

theorem find?_map_hide (x name : String) (scope : List Slot) :
    (scope.map (hide x)).find? (·.name == name) =
      (scope.find? (·.name == name)).map (hide x) := by
  rw [List.find?_map]
  congr 2
  funext slot
  exact congrArg (· == name) (hide_name x slot)

/-- A variable of another name is found as it is. -/
theorem findSlot?_hideIn_of_ne (h : name ≠ x) (k : Nat) (scopes : List (List Slot)) :
    findSlot? name (hideIn x k scopes) = findSlot? name scopes := by
  induction k generalizing scopes with
  | zero => rfl
  | succ k ih =>
    cases scopes with
    | nil => rfl
    | cons scope rest =>
      rw [hideIn, findSlot?_cons, findSlot?_cons, ih, find?_map_hide]
      rcases hfound : scope.find? (·.name == name) with - | slot
      · rw [hfound]
        rfl
      · have hname : slot.name = name := by simpa using List.find?_some hfound
        rw [hfound, Option.map_some, hide_of_ne (hname ▸ h)]

/-- Types are not hidden. -/
theorem type_findSlot?_hideIn (x name : String) (k : Nat) (scopes : List (List Slot)) :
    (findSlot? name (hideIn x k scopes)).map Slot.type = (findSlot? name scopes).map Slot.type := by
  induction k generalizing scopes with
  | zero => rfl
  | succ k ih =>
    cases scopes with
    | nil => rfl
    | cons scope rest =>
      rw [hideIn, findSlot?_cons, findSlot?_cons, find?_map_hide]
      cases scope.find? (·.name == name) with
      | none => exact ih rest
      | some slot => exact congrArg some (hide_type x slot)

theorem setInScope_map_hide (x name : String) (v : Value) (scope : List Slot) :
    (setInScope name v (scope.map (hide x))).map (hide x) =
      (setInScope name v scope).map (hide x) := by
  induction scope with
  | nil => rfl
  | cons slot rest ih =>
    rw [List.map_cons, setInScope, setInScope]
    by_cases h : slot.name = name
    · rw [if_pos h, if_pos ((hide_name x slot).trans h), hide_set, List.map_cons, List.map_cons,
        map_hide_map_hide]
    · rw [if_neg h, if_neg fun h' ↦ h ((hide_name x slot).symm.trans h'), List.map_cons,
        List.map_cons, hide_hide, ih]

/-- A variable can be set with values hidden. -/
theorem hideIn_setSlot (x name : String) (v : Value) (k : Nat) (scopes : List (List Slot)) :
    hideIn x k (setSlot name v (hideIn x k scopes)) = hideIn x k (setSlot name v scopes) := by
  induction k generalizing scopes with
  | zero => rfl
  | succ k ih =>
    cases scopes with
    | nil => rfl
    | cons scope rest =>
      have hany : (scope.map (hide x)).any (·.name == name) = scope.any (·.name == name) := by
        rw [List.any_map]
        congr 1
        funext slot
        exact congrArg (· == name) (hide_name x slot)
      rw [hideIn, setSlot, setSlot, hany]
      split
      · rw [hideIn, hideIn, setInScope_map_hide, hideIn_hideIn]
      · rw [hideIn, hideIn, ih, map_hide_map_hide]

/-- A variable can be added with values hidden. -/
theorem hideIn_addSlot (x : String) (slot : Slot) (k : Nat) (scopes : List (List Slot)) :
    hideIn x k (addSlot slot (hideIn x k scopes)) = hideIn x k (addSlot slot scopes) := by
  cases k with
  | zero => rfl
  | succ k =>
    cases scopes with
    | nil => rfl
    | cons scope rest =>
      rw [hideIn, addSlot, addSlot, hideIn, hideIn, hideIn_hideIn, List.map_cons, List.map_cons,
        map_hide_map_hide]

theorem hideIn_tail (x : String) (k : Nat) (scopes : List (List Slot)) :
    (hideIn x (k + 1) scopes).tail = hideIn x k scopes.tail := by
  cases scopes with
  | nil => cases k <;> rfl
  | cons scope rest => rfl

/-- Two states that differ at most in the values of the variables of a name in the innermost `k`
blocks. -/
structure Near (x : String) (k : Nat) (m m' : Machine) : Prop where
  steps : m'.steps = m.steps
  scopes : hideIn x k m'.scopes = hideIn x k m.scopes
  outbox : m'.outbox = m.outbox

theorem Near.refl (x : String) (k : Nat) (m : Machine) : Near x k m m :=
  ⟨rfl, rfl, rfl⟩

/-- Behind these blocks there is no difference. -/
theorem Near.eq (h : Near x 0 m m') : m' = m := by
  obtain ⟨steps, scopes, outbox⟩ := m
  obtain ⟨steps', scopes', outbox'⟩ := m'
  obtain ⟨rfl, rfl, rfl⟩ := h
  rfl

/-- Nothing that a run does depends on a value that it does not read. -/
theorem twins_near (x : String) : Twins (· ≠ x) (Near x) where
  steps h := h.steps
  find h hname := by
    rw [← findSlot?_hideIn_of_ne hname, h.scopes, findSlot?_hideIn_of_ne hname]
  type name h := by rw [← type_findSlot?_hideIn x, h.scopes, type_findSlot?_hideIn x]
  tick h := ⟨congrArg (· + 1) h.steps, h.scopes, h.outbox⟩
  emit text h := ⟨h.steps, h.scopes, congrArg (·.emit text) h.outbox⟩
  store name v h := ⟨h.steps, by
    show hideIn x _ (setSlot name v _) = hideIn x _ (setSlot name v _)
    rw [← hideIn_setSlot, h.scopes, hideIn_setSlot], h.outbox⟩
  declare slot h := ⟨h.steps, by
    show hideIn x _ (addSlot slot _) = hideIn x _ (addSlot slot _)
    rw [← hideIn_addSlot, h.scopes, hideIn_addSlot], h.outbox⟩
  enter h := ⟨h.steps, congrArg ([] :: ·) h.scopes, h.outbox⟩
  leave h := ⟨h.steps, by
    show hideIn x _ (List.tail _) = hideIn x _ (List.tail _)
    rw [← hideIn_tail, h.scopes, hideIn_tail], h.outbox⟩

end Snippet.Run
