import Mathlib.Data.List.Chain
import Snippet.Proofs.ValueDepth

/-!
# What exceeds the limits on shapes

The walk over a value accepts exactly the values within both limits, and the limit that it reports
is one that the value exceeds (`checkShape_exact`). It leaves off early, so of two limits that are
exceeded it reports the one that it meets first; nothing is said here about which one that is.

The two measures are tied to what they measure. The number of elements is that of all elements of
collections inside the value, listed once for every way in which they are reached
(`length_elements`). The depth is the length of the longest chain of collections of which each has
the next one as an element (`depth_le_iff`).
-/

namespace Snippet

namespace Value

variable {n : Nat} {v w : Value} {items chain : List Value}

/-! ### All elements -/

/-- The elements of all collections inside a value, the value itself if it is one included. Each
element stands in front of those inside it, as often as it is reached. -/
def elements (v : Value) : List Value :=
  v.children.attach.flatMap fun ⟨w, _⟩ ↦ w :: elements w
termination_by sizeOf v
decreasing_by exact sizeOf_lt_of_mem_children ‹_›

theorem elements_eq (v : Value) : v.elements = v.children.flatMap fun w ↦ w :: w.elements := by
  rw [elements, List.flatMap_subtype fun _ _ ↦ rfl, List.unattach_attach]

/-- Every element counts for one, and what is inside it is counted along. -/
theorem length_flatMap_elements (h : ∀ w ∈ items, w.elements.length = w.elementCount) :
    (items.flatMap fun w ↦ w :: w.elements).length = itemCount items := by
  induction items with
  | nil => rfl
  | cons first rest ih =>
    obtain ⟨hfirst, hrest⟩ := List.forall_mem_cons.1 h
    rw [List.flatMap_cons, List.length_append, ih hrest, List.length_cons, hfirst, itemCount]
    omega

theorem length_elements (v : Value) : v.elements.length = v.elementCount := by
  induction v using induction_on_children with
  | h v ih =>
    rw [elements_eq, elementCount_eq_itemCount]
    exact length_flatMap_elements ih

/-! ### Depth -/

theorem isCollection_of_depth_pos (h : 0 < v.depth) : v.isCollection = true := by
  rcases hcollection : v.isCollection with - | -
  · rw [depth_of_scalar hcollection] at h
    cases h
  · rfl

theorem depth_lt_of_mem_children (h : w ∈ v.children) : w.depth < v.depth := by
  rw [depth_of_collection (isCollection_of_mem_children h)]
  exact Nat.lt_succ_of_le (depth_le_itemDepth h)

/-- The depth of a list of values is that of one of them. -/
theorem exists_depth_eq_itemDepth (h : 0 < itemDepth items) :
    ∃ v ∈ items, v.depth = itemDepth items := by
  induction items with
  | nil => cases h
  | cons first rest ih =>
    rw [itemDepth] at h ⊢
    rcases Nat.le_total first.depth (itemDepth rest) with hle | hle
    · rw [Nat.max_eq_right hle] at h ⊢
      obtain ⟨v, hv, hdepth⟩ := ih h
      exact ⟨v, .tail _ hv, hdepth⟩
    · exact ⟨first, .head _, (Nat.max_eq_left hle).symm⟩

/-! ### Chains -/

/-- Collections of which each has the next one as an element. -/
structure Nested (chain : List Value) : Prop where
  collections : ∀ v ∈ chain, v.isCollection = true
  linked : chain.IsChain fun v w ↦ w ∈ v.children

theorem nested_singleton (h : v.isCollection = true) : Nested [v] :=
  ⟨List.forall_mem_singleton.2 h, .singleton v⟩

theorem Nested.cons (h : Nested (w :: chain)) (hw : w ∈ v.children) : Nested (v :: w :: chain) :=
  ⟨List.forall_mem_cons.2 ⟨isCollection_of_mem_children hw, h.collections⟩, .cons_cons hw h.linked⟩

theorem Nested.tail (h : Nested (v :: chain)) : Nested chain :=
  ⟨(List.forall_mem_cons.1 h.collections).2, h.linked.tail⟩

/-- A chain is no longer than its first collection is deep. -/
theorem Nested.length_le (h : Nested (v :: chain)) : (v :: chain).length ≤ v.depth := by
  induction chain generalizing v with
  | nil =>
    rw [depth_of_collection (h.collections v (.head _))]
    exact Nat.le_add_left ..
  | cons w chain ih =>
    have hrest : (w :: chain).length ≤ w.depth := ih h.tail
    have hlt : w.depth < v.depth := depth_lt_of_mem_children h.linked.rel
    exact Nat.lt_of_le_of_lt hrest hlt

/-- Every collection starts a chain that is as long as the collection is deep. -/
theorem exists_nested (v : Value) (h : v.isCollection = true) :
    ∃ chain, Nested (v :: chain) ∧ (v :: chain).length = v.depth := by
  induction v using induction_on_children with
  | h v ih =>
    rw [depth_of_collection h]
    rcases Nat.eq_zero_or_pos (itemDepth v.children) with hzero | hpos
    · rw [hzero]
      exact ⟨[], nested_singleton h, rfl⟩
    · -- the chain goes on in the deepest element, which is a collection
      obtain ⟨w, hw, hdepth⟩ := exists_depth_eq_itemDepth hpos
      obtain ⟨chain, hchain, hlength⟩ := ih w hw (isCollection_of_depth_pos (hdepth ▸ hpos))
      refine ⟨w :: chain, hchain.cons hw, ?_⟩
      rw [List.length_cons, hlength, hdepth]

/-- A value is deeper than `n` where it starts a chain of more than `n` collections. -/
theorem lt_depth_iff :
    n < v.depth ↔ ∃ chain, Nested (v :: chain) ∧ n < (v :: chain).length := by
  constructor
  · intro hlt
    obtain ⟨chain, hchain, hlength⟩ := exists_nested v
      (isCollection_of_depth_pos (Nat.zero_lt_of_lt hlt))
    exact ⟨chain, hchain, hlength ▸ hlt⟩
  · rintro ⟨chain, hchain, hlt⟩
    exact Nat.lt_of_lt_of_le hlt hchain.length_le

theorem depth_le_iff :
    v.depth ≤ n ↔ ∀ chain, Nested (v :: chain) → (v :: chain).length ≤ n := by
  rw [← Nat.not_lt, lt_depth_iff, not_exists]
  exact forall_congr' fun chain ↦ by rw [not_and, Nat.not_lt]

/-! ### The check -/

/-- **The shape check is exact.** A value passes exactly if the collections inside it have no more
elements than the one limit allows, each counted as often as it is reached, and no chain of nested
collections that starts with the value is longer than the other limit. A value that does not pass is
refused for one of the two limits, and for one that it exceeds. -/
theorem checkShape_exact (v : Value) (maxElements maxDepth : Nat) :
    (v.checkShape maxElements maxDepth = .ok () ↔
      v.elements.length ≤ maxElements ∧
        ∀ chain, Nested (v :: chain) → (v :: chain).length ≤ maxDepth) ∧
    (v.checkShape maxElements maxDepth = .ok () ∨
      v.checkShape maxElements maxDepth = .error .elements ∧ maxElements < v.elements.length ∨
      v.checkShape maxElements maxDepth = .error .depth ∧
        ∃ chain, Nested (v :: chain) ∧ maxDepth < (v :: chain).length) := by
  rw [length_elements]
  refine ⟨by rw [checkShape_eq_ok_iff, depth_le_iff], ?_⟩
  rcases checkShape_cases maxElements maxDepth v with ⟨h, -⟩ | ⟨oversize, h, hexceeds⟩
  · exact .inl h
  · cases oversize with
    | elements => exact .inr (.inl ⟨h, hexceeds⟩)
    | depth => exact .inr (.inr ⟨h, lt_depth_iff.1 hexceeds⟩)

/-- A list in a list that holds it twice counts twice, and an empty list is a level. -/
example :
    let twice (v : Value) : Value := list [v, v]
    (twice (list [int 1])).checkShape 4 2 = .ok () ∧
      (twice (list [int 1])).checkShape 3 2 = .error .elements ∧
      (twice (list [])).checkShape 4 1 = .error .depth :=
  ⟨rfl, rfl, rfl⟩

end Value

end Snippet
