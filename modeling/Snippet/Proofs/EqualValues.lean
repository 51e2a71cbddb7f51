import Mathlib.Data.List.Nodup
import Mathlib.Data.List.Perm.Subperm
import Snippet.Value.Equality

/-!
# Equal values

The equality of the script language does not depend on the order of its sides (`looseEq_comm`).
For maps and the fields of objects this is not plain from the definition, which asks of the keys of
one side only that the other side has them: two maps of one size with different keys in each have
the same keys, so that what is asked of one side holds of the other (`entriesIn_of_entriesIn`).
Nothing is assumed about doubles. Their equality is the one of their order, which is turned round
where they are exchanged.
-/

namespace Snippet.Value

open Float.Model (UnpackedFloat)

/-! ### Doubles -/

/-- Exchanging two doubles turns their order round, where there is one. -/
theorem compare_unpacked_swap (x y : UnpackedFloat) :
    y.compare x = (x.compare y).map Ordering.swap := by
  cases x with
  | notANumber => cases y <;> rfl
  | infinity s =>
    cases y with
    | infinity t => cases s <;> cases t <;> rfl
    | _ => cases s <;> rfl
  | zero s =>
    cases y with
    | finite t _ _ _ | infinity t => cases t <;> rfl
    | _ => rfl
  | finite s m e _ =>
    cases y with
    | finite t n f _ =>
      have hmantissa : compare n m = (compare m n).swap := Std.OrientedOrd.eq_swap
      have hexponent : compare f e = (compare e f).swap := Std.OrientedOrd.eq_swap
      have hsize : (compare f e).then (compare n m) =
          ((compare e f).then (compare m n)).swap := by
        rw [hmantissa, hexponent, Ordering.swap_then]
      match s, t with
      | .positive, .positive => exact congrArg some hsize
      | .negative, .negative => exact congrArg (fun order ↦ some order.swap) hsize
      | .positive, .negative | .negative, .positive => rfl
    | infinity t => cases t <;> rfl
    | _ => cases s <;> rfl

theorem float_beq_comm (x y : Float) : (x == y) = (y == x) := by
  show (x.toModel.unpack.compare y.toModel.unpack == some .eq) =
    (y.toModel.unpack.compare x.toModel.unpack == some .eq)
  rw [compare_unpacked_swap x.toModel.unpack]
  rcases x.toModel.unpack.compare y.toModel.unpack with - | order
  · rfl
  · cases order <;> rfl

/-! ### Keys -/

/-- A value in which every map and every object has each of its keys once. -/
inductive DistinctKeys : Value → Prop
  | scalar {v : Value} (h : v.isCollection = false) : DistinctKeys v
  | list {items : List Value} (h : ∀ v ∈ items, DistinctKeys v) : DistinctKeys (.list items)
  | map {entries : List (String × Value)} (hkeys : (entries.map Prod.fst).Nodup)
      (h : ∀ e ∈ entries, DistinctKeys e.2) : DistinctKeys (.map entries)
  | object {kind fields display} (hkeys : (fields.map Prod.fst).Nodup)
      (h : ∀ f ∈ fields, DistinctKeys f.2) : DistinctKeys (.object kind fields display)

variable {items : List Value} {a b : List (String × Value)} {key : String} {v w : Value}

@[simp]
theorem distinctKeys_list_iff : DistinctKeys (.list items) ↔ ∀ v ∈ items, DistinctKeys v := by
  refine ⟨fun h ↦ ?_, .list⟩
  cases h with
  | scalar h => cases h
  | list h => exact h

@[simp]
theorem distinctKeys_map_iff :
    DistinctKeys (.map a) ↔ (a.map Prod.fst).Nodup ∧ ∀ e ∈ a, DistinctKeys e.2 := by
  refine ⟨fun h ↦ ?_, fun h ↦ .map h.1 h.2⟩
  cases h with
  | scalar h => cases h
  | map hkeys h => exact ⟨hkeys, h⟩

@[simp]
theorem distinctKeys_object_iff {kind : ObjectKind} {display : String} :
    DistinctKeys (.object kind a display) ↔
      (a.map Prod.fst).Nodup ∧ ∀ f ∈ a, DistinctKeys f.2 := by
  refine ⟨fun h ↦ ?_, fun h ↦ .object h.1 h.2⟩
  cases h with
  | scalar h => cases h
  | object hkeys h => exact ⟨hkeys, h⟩

/-- A key that stands in a map once leads to its value. -/
theorem lookup_of_mem (hkeys : (a.map Prod.fst).Nodup) (hmem : (key, v) ∈ a) :
    a.lookup key = some v := by
  obtain ⟨before, behind, rfl⟩ := List.append_of_mem hmem
  rw [List.map_append, List.map_cons] at hkeys
  refine List.lookup_eq_some_iff.2 ⟨before, behind, rfl, fun e he ↦ ?_⟩
  rw [bne_iff_ne]
  rintro rfl
  exact List.disjoint_of_nodup_append hkeys (List.mem_map_of_mem he) (List.mem_cons_self ..)

/-- Every entry has an equal one under its key. -/
theorem entriesIn_iff : entriesIn a b = true ↔
    ∀ e ∈ a, ∃ w, b.lookup e.1 = some w ∧ looseEq e.2 w = true := by
  induction a with
  | nil => simp [entriesIn]
  | cons first rest ih =>
    obtain ⟨k, v⟩ := first
    rw [entriesIn, Bool.and_eq_true, ih, List.forall_mem_cons]
    refine and_congr_left' ?_
    cases b.lookup k <;> simp

/-- A map that has the keys of another one of its size has no more than them. -/
theorem keys_subset (hkeys : (a.map Prod.fst).Nodup) (hlength : a.length = b.length)
    (h : a.map Prod.fst ⊆ b.map Prod.fst) : b.map Prod.fst ⊆ a.map Prod.fst := by
  have hperm := (hkeys.subperm h).perm_of_length_le (by simp [hlength])
  exact hperm.symm.subset

/-! ### Exchanging the sides -/

/-- The equality of a value with any other one does not depend on the order of the two. -/
def Commutes (v : Value) : Prop :=
  ∀ w, DistinctKeys w → looseEq v w = looseEq w v

theorem itemsEq_comm {xs ys : List Value} (hxs : ∀ v ∈ xs, Commutes v)
    (hys : ∀ w ∈ ys, DistinctKeys w) : itemsEq xs ys = itemsEq ys xs := by
  induction xs generalizing ys with
  | nil => cases ys <;> rfl
  | cons v xs ih =>
    cases ys with
    | nil => rfl
    | cons w ys =>
      obtain ⟨hv, hxs⟩ := List.forall_mem_cons.1 hxs
      obtain ⟨hw, hys⟩ := List.forall_mem_cons.1 hys
      rw [itemsEq, itemsEq, hv w hw, ih hxs hys]

/-- Where all entries of a map have equal ones in another map of its size, all entries of that map
have equal ones in the first. -/
theorem entriesIn_of_entriesIn (ha : (a.map Prod.fst).Nodup) (hb : (b.map Prod.fst).Nodup)
    (hlength : a.length = b.length)
    (hcomm : ∀ e ∈ a, ∀ f ∈ b, looseEq e.2 f.2 = looseEq f.2 e.2) (h : entriesIn a b = true) :
    entriesIn b a = true := by
  rw [entriesIn_iff] at h ⊢
  have hsubset : a.map Prod.fst ⊆ b.map Prod.fst := by
    intro key hkey
    obtain ⟨e, he, rfl⟩ := List.mem_map.1 hkey
    obtain ⟨w, hw, -⟩ := h e he
    obtain ⟨before, behind, rfl, -⟩ := List.lookup_eq_some_iff.1 hw
    exact List.mem_map.2 ⟨(e.1, w), List.mem_append_right before (List.mem_cons_self ..), rfl⟩
  rintro ⟨key, w⟩ hf
  obtain ⟨⟨k, v⟩, he, rfl⟩ :=
    List.mem_map.1 (keys_subset ha hlength hsubset (List.mem_map_of_mem hf))
  refine ⟨v, lookup_of_mem ha he, ?_⟩
  obtain ⟨w', hw', heq⟩ := h _ he
  cases hw'.symm.trans (lookup_of_mem hb hf)
  rw [← hcomm _ he _ hf]
  exact heq

theorem entriesEq_comm (ha : (a.map Prod.fst).Nodup) (hb : (b.map Prod.fst).Nodup)
    (hcomm : ∀ e ∈ a, Commutes e.2) (hdistinct : ∀ f ∈ b, DistinctKeys f.2) :
    (a.length == b.length && entriesIn a b) = (b.length == a.length && entriesIn b a) := by
  have hab : ∀ e ∈ a, ∀ f ∈ b, looseEq e.2 f.2 = looseEq f.2 e.2 :=
    fun e he f hf ↦ hcomm e he f.2 (hdistinct f hf)
  rw [Bool.eq_iff_iff, Bool.and_eq_true, Bool.and_eq_true, beq_iff_eq, beq_iff_eq]
  constructor
  · rintro ⟨hlength, h⟩
    exact ⟨hlength.symm, entriesIn_of_entriesIn ha hb hlength hab h⟩
  · rintro ⟨hlength, h⟩
    exact ⟨hlength.symm,
      entriesIn_of_entriesIn hb ha hlength (fun f hf e he ↦ (hab e he f hf).symm) h⟩

theorem commutes_of_scalar (h : v.isCollection = false) : Commutes v := by
  intro w _
  cases v with
  | list _ | map _ | object _ _ _ => cases h
  | null => cases w <;> rfl
  | int i =>
    cases w with
    | int j => exact BEq.comm
    | _ => rfl
  | float x =>
    cases w with
    | float y => exact float_beq_comm x y
    | _ => rfl
  | bool x =>
    cases w with
    | bool y => exact BEq.comm
    | _ => rfl
  | string x =>
    cases w with
    | string y => exact BEq.comm
    | _ => rfl
  | response x =>
    cases w with
    | response y => exact BEq.comm
    | _ => rfl

theorem DistinctKeys.commutes (hv : DistinctKeys v) : Commutes v := by
  induction hv with
  | scalar h => exact commutes_of_scalar h
  | list _ ih =>
    intro w hw
    cases w with
    | list items => exact itemsEq_comm ih (distinctKeys_list_iff.1 hw)
    | _ => rfl
  | map hkeys _ ih =>
    intro w hw
    cases w with
    | map entries =>
      obtain ⟨hkeys', hentries⟩ := distinctKeys_map_iff.1 hw
      exact entriesEq_comm hkeys hkeys' ih hentries
    | _ => rfl
  | @object kind fields display hkeys _ ih =>
    intro w hw
    cases w with
    | object kind' fields' display' =>
      obtain ⟨hkeys', hfields⟩ := distinctKeys_object_iff.1 hw
      rw [looseEq, looseEq, entriesEq_comm hkeys hkeys' ih hfields,
        BEq.comm (a := kind), BEq.comm (a := display)]
    | _ => rfl

/-- Equality does not depend on the order of its sides, for values in which no map and no object has
a key twice. -/
theorem looseEq_comm (v w : Value) (hv : DistinctKeys v) (hw : DistinctKeys w) :
    looseEq v w = looseEq w v :=
  hv.commutes w hw

/-- Maps and objects with their keys in different orders, inside of lists and of each other, with
both zeros. -/
theorem looseEq_comm_reordered :
    let v : Value := .map [("a", .list [.float 0.0, .object .entry [("key", .string "k"),
      ("value", .map [("x", .null), ("y", .int 1)])] "[k, …]"]), ("b", .response .empty)]
    let w : Value := .map [("b", .response .empty), ("a", .list [.float (-0.0), .object .entry
      [("value", .map [("y", .int 1), ("x", .null)]), ("key", .string "k")] "[k, …]"])]
    DistinctKeys v ∧ DistinctKeys w ∧ looseEq v w = true ∧ looseEq w v = true := by
  intro v w
  have hscalar {x : Value} (hx : x.isCollection = false) : DistinctKeys x := .scalar hx
  have hv : DistinctKeys v := by
    simpa [v] using ⟨⟨hscalar rfl, hscalar rfl, hscalar rfl, hscalar rfl⟩, hscalar rfl⟩
  have hw : DistinctKeys w := by
    simpa [w] using ⟨hscalar rfl, hscalar rfl, ⟨hscalar rfl, hscalar rfl⟩, hscalar rfl⟩
  have h : looseEq v w = true := by decide
  exact ⟨hv, hw, h, looseEq_comm v w hv hw ▸ h⟩

/-- With a key that stands in a map twice the order of the sides would matter. -/
example : looseEq (.map [("a", .null), ("a", .null)]) (.map [("a", .null), ("b", .null)]) ≠
    looseEq (.map [("a", .null), ("b", .null)]) (.map [("a", .null), ("a", .null)]) := by
  decide

end Snippet.Value
