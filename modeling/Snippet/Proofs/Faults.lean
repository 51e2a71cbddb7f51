import Snippet.Proofs.Paths
import Snippet.Run.Exec

/-!
# Faults of values

Some faults say that a script is wrong whatever its values are: a name without a variable, a call
of something that is no helper, a wrong number of arguments. Others say that a run took too long.
This module goes through the computations on values and shows that none of them ends in such a
fault, up to the helpers, where it takes the right number of arguments
(`operational_helperValue`).
-/

namespace Snippet.Run

open Script (BinaryOp Builtin DeclType UnaryOp)

variable {α β : Type} {limit : Nat} {v w : Value}

/-- Whether a fault says that a script is wrong whatever its values are. -/
def Fault.isPreventable : Fault → Bool
  | wrongArity _ _ | wrongBounds => true
  | type (.unbound _) | type .notInvocable | type (.notHelper _) => true
  | _ => false

/-- The faults in question are those of kind `ArgumentError` and three wrong uses of a value. -/
theorem Fault.isPreventable_eq_false_iff {fault : Fault} :
    fault.isPreventable = false ↔
      fault.typeName ≠ "ArgumentError" ∧ (∀ name, fault ≠ .type (.unbound name)) ∧
        fault ≠ .type .notInvocable ∧ ∀ name, fault ≠ .type (.notHelper name) := by
  cases fault with
  | type cause => cases cause <;> simp [isPreventable, typeName]
  | _ => simp [isPreventable, typeName]

/-- Whether a fault says that a run took too long. -/
def Fault.isTimeout : Fault → Bool
  | stepBudget _ | timeLimit _ => true
  | _ => false

/-- Whether a fault comes of the values in hand: no check prevents it, and it is not about time. -/
def Fault.isOperational (fault : Fault) : Bool :=
  !fault.isPreventable && !fault.isTimeout

theorem Fault.unpreventable_of_operational {fault : Fault} (h : fault.isOperational = true) :
    fault.isPreventable = false := by
  rw [isOperational, Bool.and_eq_true, Bool.not_eq_true'] at h
  exact h.1

theorem Fault.prompt_of_operational {fault : Fault} (h : fault.isOperational = true) :
    fault.isTimeout = false := by
  rw [isOperational, Bool.and_eq_true, Bool.not_eq_true', Bool.not_eq_true'] at h
  exact h.2

/-- No fault that this ends in is about time. -/
def Prompt (result : Except Fault α) : Prop :=
  ∀ fault, result = .error fault → fault.isTimeout = false

theorem Prompt.ok (a : α) : Prompt (.ok a) :=
  nofun

theorem Prompt.error {fault : Fault} (h : fault.isTimeout = false) :
    Prompt (.error fault : Except Fault α) := by
  rintro _ ⟨⟩
  exact h

/-- Every fault that this ends in comes of the values in hand. -/
def Operational (result : Except Fault α) : Prop :=
  ∀ fault, result = .error fault → fault.isOperational = true

namespace Operational

theorem prompt {result : Except Fault α} (h : Operational result) : Prompt result :=
  fun fault hfault ↦ fault.prompt_of_operational (h fault hfault)

theorem ok (a : α) : Operational (.ok a) :=
  nofun

theorem error {fault : Fault} (h : fault.isOperational = true) :
    Operational (.error fault : Except Fault α) := by
  rintro _ ⟨⟩
  exact h

theorem bind {x : Except Fault α} {f : α → Except Fault β} (hx : Operational x)
    (hf : ∀ a, x = .ok a → Operational (f a)) : Operational (x >>= f) := by
  cases x with
  | error fault => exact .error (hx fault rfl)
  | ok a => exact hf a rfl

theorem ite {p : Prop} [Decidable p] {x y : Except Fault α} (hx : Operational x)
    (hy : Operational y) : Operational (if p then x else y) := by
  split
  · exact hx
  · exact hy

end Operational

/-! ### Elements -/

theorem operational_listIndex (length : Nat) (index : Value) :
    Operational (listIndex length index) := by
  cases index with
  | int i => exact .ite (.ok _) (.error rfl)
  | _ => exact .error rfl

theorem operational_mapKey (key : PathKey) : Operational (mapKey key) := by
  cases key with
  | member name => exact .ok _
  | index v =>
    rw [mapKey]
    split
    · exact .ok _
    · exact .error rfl

theorem operational_literalKey (v : Value) : Operational (literalKey v) := by
  rw [literalKey]
  split
  · exact .ok _
  · exact .error rfl

theorem operational_readEntry (key : String) (entries : List (String × Value)) :
    Operational (readEntry key entries) := by
  rw [readEntry]
  split
  · exact .ok _
  · exact .error rfl

theorem operational_readItem (items : List Value) (index : Value) :
    Operational (readItem items index) := by
  refine (operational_listIndex _ _).bind fun i _ ↦ ?_
  split
  · exact .ok _
  · exact .error rfl

theorem operational_readMember (v : Value) (name : String) : Operational (readMember v name) := by
  rw [readMember.eq_def]
  dsimp only
  split
  · exact .ok _
  · split
    · exact .error rfl
    · exact operational_readEntry _ _
    · rename_i fields _ _
      cases fields.lookup name with
      | none => exact .error rfl
      | some w => exact .ok w
    · exact .error rfl

theorem operational_readIndex (v index : Value) : Operational (readIndex v index) := by
  cases v with
  | list items => exact operational_readItem items index
  | string s =>
    refine (operational_listIndex _ _).bind fun i _ ↦ ?_
    split
    · exact .ok _
    · exact .error rfl
  | map entries => exact (operational_mapKey _).bind fun _ _ ↦ operational_readEntry _ _
  | _ => exact .error rfl

theorem operational_readPath (v : Value) (keys : List PathKey) : Operational (readPath v keys) := by
  induction keys generalizing v with
  | nil => exact .ok v
  | cons key rest ih =>
    refine Operational.bind ?_ fun w _ ↦ ih w
    cases key with
    | index i => exact operational_readIndex v i
    | member name => exact operational_readMember v name

theorem operational_writePath (new : Value) (keys : List PathKey) (v : Value) :
    Operational (writePath limit new keys v) := by
  induction keys generalizing v with
  | nil => exact .ok new
  | cons key rest ih =>
    rw [writePath.eq_def]
    dsimp only
    split
    · exact .error rfl
    · split
      · exact .error rfl
      · refine (operational_listIndex _ _).bind fun i _ ↦ ?_
        split
        · exact .error rfl
        · exact (ih _).bind fun _ _ ↦ .ok _
    · refine (operational_mapKey _).bind fun k _ ↦ ?_
      split
      · exact (ih _).bind fun _ _ ↦ .ok _
      · split
        · exact .ite (.error rfl) (.ok _)
        · exact .error rfl
    · exact .error rfl
    · exact .error rfl

/-! ### Operators and conversions -/

theorem operational_truth (construct : String) (v : Value) : Operational (truth construct v) := by
  cases v with
  | bool b => exact .ok b
  | _ => exact .error rfl

theorem operational_coerce (type : DeclType) (v : Value) : Operational (coerce type v) := by
  rw [coerce.eq_def]
  split
  · exact .ok _
  · exact .ite (.ok v) (.error rfl)

theorem operational_exactly (n : Int) : Operational (exactly n) :=
  .ite (.ok _) (.error rfl)

theorem operational_applyUnary (op : UnaryOp) (v : Value) : Operational (applyUnary op v) := by
  rw [applyUnary.eq_def]
  split
  · exact .ok _
  · exact operational_exactly _
  · exact .ok _
  · exact .error rfl

theorem operational_shaped (v : Value) : Operational (shaped limit v) := by
  rw [shaped]
  split
  · exact .ok v
  · exact .error rfl
  · exact .error rfl

theorem operational_applyInt (op : BinaryOp) (a b : Int64) : Operational (applyInt op a b) := by
  cases op with
  | add => exact operational_exactly _
  | sub => exact operational_exactly _
  | mul => exact operational_exactly _
  | div => exact .ite (.error rfl) (operational_exactly _)
  | rem =>
    exact .ite (.error rfl) ((operational_exactly _).bind fun _ _ ↦ operational_exactly _)
  | _ => exact .error rfl

theorem operational_applyArithmetic (op : BinaryOp) (a b : Value) :
    Operational (applyArithmetic limit op a b) := by
  rw [applyArithmetic.eq_def]
  dsimp only
  split
  · exact .ite (.error rfl) (.ok _)
  · exact .ite (.error rfl) (.ok _)
  · exact .ite (.error rfl) (operational_shaped _)
  · exact operational_applyInt _ _ _
  · split
    · rename_i x y _ _
      cases applyFloat? op x y with
      | none => exact .error rfl
      | some z => exact .ok _
    · exact .error rfl

theorem operational_ordered {fault : Fault} (h : fault.isOperational = true)
    (order : Option (Option Ordering)) (holds : Ordering → Bool) :
    Operational (match order with
      | some order => .ok (.bool (order.any holds))
      | none => .error fault : Except Fault Value) := by
  cases order with
  | none => exact .error h
  | some order => exact .ok _

theorem operational_apply (op : BinaryOp) (a b : Value) : Operational (apply limit op a b) := by
  cases op with
  | eq => exact .ok _
  | ne => exact .ok _
  | lt => exact operational_ordered rfl _ _
  | le => exact operational_ordered rfl _ _
  | gt => exact operational_ordered rfl _ _
  | ge => exact operational_ordered rfl _ _
  | _ => exact operational_applyArithmetic _ _ _

theorem operational_itemsOf (v : Value) : Operational (itemsOf limit v) := by
  cases v with
  | list items => exact .ok _
  | map entries => exact .ok _
  | string s => exact .ok _
  | _ => exact .error rfl

theorem isOperational_thrown (limit : Nat) (v : Value) :
    (thrown limit v).isOperational = true := by
  cases v <;> rfl

/-! ### Helpers -/

theorem operational_lengthOf (v : Value) : Operational (lengthOf v) := by
  cases v with
  | string s => exact .ok _
  | list items => exact .ok _
  | map entries => exact .ok _
  | _ => exact .error rfl

theorem operational_entriesOf (helper : String) (v : Value) : Operational (entriesOf helper v) := by
  cases v with
  | map entries => exact .ok _
  | object _ fields _ => exact .ok _
  | _ => exact .error rfl

theorem operational_joinFrom (separator joined : String) (length : Nat) (items : List Value) :
    Operational (joinFrom limit separator joined length items) := by
  induction items generalizing joined length with
  | nil => exact .ok joined
  | cons item rest ih => exact .ite (.error rfl) (ih _ _)

theorem operational_joinOf (list separator : Value) :
    Operational (joinOf limit list separator) := by
  rw [joinOf.eq_def]
  split
  · exact .ok _
  · exact .ite (.error rfl) ((operational_joinFrom _ _ _ _).bind fun _ _ ↦ .ok _)
  · exact .error rfl
  · exact .error rfl

theorem operational_mapText (helper : String) (f : String → String) (v : Value) :
    Operational (mapText helper f v) := by
  cases v with
  | string s => exact .ok _
  | _ => exact .error rfl

theorem operational_absOf (v : Value) : Operational (absOf v) := by
  cases v with
  | int i => exact operational_exactly _
  | float x => exact .ok _
  | _ => exact .error rfl

theorem operational_pick (helper : String) (larger : Bool) (a b : Value) :
    Operational (pick helper larger a b) := by
  rw [pick.eq_def]
  dsimp only
  split
  · exact .ok _
  · split
    · exact .ok _
    · exact .error rfl

theorem operational_containsOf (a b : Value) : Operational (containsOf a b) := by
  rw [containsOf.eq_def]
  split
  · exact .ok _
  · exact .ok _
  · exact .ok _
  · exact .error rfl
  · exact .error rfl

theorem operational_bounds (args : List Value) : Operational (args.mapM bound) := by
  induction args with
  | nil => exact .ok []
  | cons v rest ih =>
    rw [List.mapM_cons]
    refine Operational.bind ?_ fun _ _ ↦ ih.bind fun _ _ ↦ .ok _
    cases v with
    | int i => exact .ok _
    | _ => exact .error rfl

theorem length_of_bounds {args : List Value} {bounds : List Int}
    (h : args.mapM bound = .ok bounds) : bounds.length = args.length := by
  induction args generalizing bounds with
  | nil =>
    cases h
    rfl
  | cons v rest ih =>
    rw [List.mapM_cons, except_bind_eq_ok_iff] at h
    obtain ⟨i, -, h⟩ := h
    obtain ⟨bounds', hrest, hpure⟩ := except_bind_eq_ok_iff.1 h
    cases hpure
    rw [List.length_cons, List.length_cons, ih hrest]

/-- One bound or two make a range. -/
theorem operational_rangeOf {args : List Value} (h : args.length = 1 ∨ args.length = 2) :
    Operational (rangeOf limit args) := by
  refine (operational_bounds args).bind fun bounds hbounds ↦ ?_
  have hlength := length_of_bounds hbounds
  match bounds, hlength with
  | [], hlength => exact absurd hlength (by simp; omega)
  | [stop], _ => exact .ite (.error rfl) (.ok _)
  | [start, stop], _ => exact .ite (.error rfl) (.ok _)
  | _ :: _ :: _ :: _, hlength => exact absurd hlength (by simp; omega)

/-- A helper that is given the right number of arguments faults only because of these. -/
theorem operational_helperValue {b : Builtin} {args : List Value}
    (h : b.accepts args.length = true) : Operational (helperValue limit b args) := by
  cases b with
  | len => exact operational_lengthOf _
  | keys => exact (operational_entriesOf _ _).bind fun _ _ ↦ .ok _
  | values => exact (operational_entriesOf _ _).bind fun _ _ ↦ .ok _
  | range =>
    obtain ⟨hleast, hmost⟩ := Bool.and_eq_true_iff.1 h
    have hleast : 1 ≤ args.length := of_decide_eq_true hleast
    have hmost : args.length ≤ 2 := of_decide_eq_true hmost
    exact operational_rangeOf (by omega)
  | join => exact operational_joinOf _ _
  | upper => exact operational_mapText _ _ _
  | lower => exact operational_mapText _ _ _
  | abs => exact operational_absOf _
  | min => exact operational_pick _ _ _ _
  | max => exact operational_pick _ _ _ _
  | contains => exact operational_containsOf _ _
  | _ => exact .ok _

end Snippet.Run
