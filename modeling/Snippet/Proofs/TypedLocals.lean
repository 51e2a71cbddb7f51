import Snippet.Proofs.Scopes

/-!
# Typed locals

A variable that is declared with a type holds a value of that type for as long as it lives
(`typed_locals`). Of the ways in which a variable gets a value three convert it to the declared
type. An assignment through a path does not; what it rebuilds is a list where there was a list,
and a map where there was a map (`Rebuilt`).

Nothing is asked of the program: it need not have passed the checks.
-/

namespace Snippet.Run

open Script (Accessor AssignOp DeclType Expr Ident Program Stmt)

variable {setting : Setting} {m m' : Machine} {v w : Value}

/-- The values that a variable of a declared type may hold. -/
inductive Fits : DeclType → Value → Prop
  | var (v : Value) : Fits .var v
  | let (v : Value) : Fits .let v
  | object (v : Value) : Fits .object v
  | int (i : Int64) : Fits .int (.int i)
  | long (i : Int64) : Fits .long (.int i)
  | double (x : Float) : Fits .double (.float x)
  | bool (b : Bool) : Fits .bool (.bool b)
  | string (s : String) : Fits .string (.string s)
  | noString : Fits .string .null
  | list (items : List Value) : Fits .list (.list items)
  | noList : Fits .list .null
  | map (entries : List (String × Value)) : Fits .map (.map entries)
  | noMap : Fits .map .null

/-- A variable that holds what its declared type asks for. -/
def Slot.Typed (slot : Slot) : Prop :=
  Fits slot.type slot.value

theorem fits_of_admits {type : DeclType} (h : admits type v = true) : Fits type v := by
  cases type <;> cases v <;> first | constructor | cases h

/-- What a conversion lets through fits. -/
theorem fits_of_coerce {type : DeclType} (h : coerce type v = .ok w) : Fits type w :=
  fits_of_admits (admits_of_coerce h)

/-- A write through a path leaves a value that fits where the old one did. -/
theorem Rebuilt.fits {type : DeclType} (h : Rebuilt v w) (hv : Fits type v) : Fits type w := by
  cases h <;> cases hv <;> constructor

/-! ### Statements -/

/-- A declaration converts what it binds, be it a value or the default of the type. -/
theorem typed_declare (span : Span) (type : DeclType) (name : Ident) (init : Option Expr)
    (hm : AllSlots Slot.Typed m.scopes) :
    Leaves Slot.Typed Slot.Typed (exec setting (.declare span type name init) m) := by
  have hbind (v : Value) {m : Machine} (hm : AllSlots Slot.Typed m.scopes) :
      Leaves Slot.Typed Slot.Typed
        ((do declare name.name type v; return Flow.normal : Step Flow) m) := by
    refine Leaves.map (fun _ ↦ Flow.normal) ?_
    rw [declare_apply]
    rcases hcoerce : coerce type v with fault | w
    · exact hm
    · exact hm.addSlot (fits_of_coerce hcoerce)
  have hself (slot : Slot) : slot.Typed → slot.Typed := id
  refine Leaves.bind hself (course_scopes.count setting) hm fun _ m₁ _ hm₁ ↦ ?_
  cases init with
  | some init => exact Leaves.bind hself (course_scopes.eval setting init) hm₁ fun v _ _ ↦ hbind v
  | none => exact hbind (defaultFor type) hm₁

/-- Storing converts the value, or writes it into a collection of the kind that the variable
holds. -/
theorem typed_storeAt {root : String} {slot : Slot} (v : Value) (keys : List PathKey)
    (hm : AllSlots Slot.Typed m.scopes) (hslot : findSlot? root m.scopes = some slot) :
    Leaves Slot.Typed Slot.Typed (storeAt setting root v slot keys m) := by
  cases keys with
  | nil =>
    rw [storeAt.eq_def]
    dsimp only
    rcases hcoerce : coerce slot.type v with fault | w
    · exact hm
    · exact hm.setSlot hslot (fits_of_coerce hcoerce)
  | cons key rest =>
    rw [storeAt.eq_def]
    dsimp only
    rcases hwrite : writePath _ v (key :: rest) slot.value with fault | updated
    · exact hm
    · have hupdated : AllSlots Slot.Typed (m.stored root updated).scopes :=
        hm.setSlot hslot ((rebuilt_of_writePath hwrite).fits (hm.of_find hslot))
      dsimp only
      split
      · split
        · exact hupdated
        · exact hupdated
      · exact hupdated

theorem typed_assign (span : Span) (root : Ident) (path : List Accessor) (op : AssignOp)
    (value : Expr) (hm : AllSlots Slot.Typed m.scopes) :
    Leaves Slot.Typed Slot.Typed (exec setting (.assign span root path op value) m) := by
  have hself (slot : Slot) : slot.Typed → slot.Typed := id
  have hR := course_scopes
  refine Leaves.bind hself (hR.count setting) hm fun _ m₁ _ hm₁ ↦ ?_
  refine Leaves.map (fun _ ↦ Flow.normal) ?_
  rw [assign_eq]
  exact Leaves.bind hself (course_prepare hR setting _ path op value) hm₁ fun p m₂ hp hm₂ ↦
    typed_storeAt p.value p.keys hm₂ (findSlot?_of_prepare hp)

/-- Declarations, loop variables and assignments keep every variable of its type. -/
theorem kept_typed (setting : Setting) :
    Kept setting (fun _ _ ↦ True) Slot.Typed Slot.Typed fun _ ↦ True where
  left _ := id
  items _ _ _ _ _ := trivial
  bind _ hcoerce := fits_of_coerce hcoerce
  declare hm _ := typed_declare _ _ _ _ hm
  assign hm _ := typed_assign _ _ _ _ _ hm

theorem Leaves.all_after {P : Slot → Prop} {r : Ended Flow} (h : Leaves P P r) :
    AllSlots P (after r).scopes := by
  cases r with
  | ok _ _ => exact h
  | error _ _ => exact h

/-! ### Runs -/

/-- In every state of every run every live local holds a value that fits its declared type. -/
theorem typed_locals {program : Program} {outbox : Outbox}
    (h : Reaches setting program outbox m) :
    ∀ scope ∈ m.scopes, ∀ slot ∈ scope, Fits slot.type slot.value := by
  have hrun {trace r} (h : RunsOf setting program outbox trace r) :=
    h.keeps (kept_typed setting) (.start outbox) trivial fun _ _ _ _ ↦ trivial
  induction h with
  | start h he => exact ((hrun h).1 _ he).1
  | result h he => exact ((hrun h).1 _ he).2.all_after
  | step _ ih => exact ih
  | expression _ e ih =>
    rw [scopes_eval]
    exact ih
  | final =>
    obtain ⟨trace, r, h⟩ := exists_runs setting program outbox
    rw [h.run_eq, scopes_conclude]
    exact (hrun h).2.all_after

/-- The script `long n = 1; list xs = [n]; xs[0] = "a";`. -/
def rewritten : Program where
  statements :=
    [.declare ⟨0, 11⟩ .long ⟨"n", ⟨5, 6⟩⟩ (some (.literal ⟨9, 10⟩ (.int 1))),
      .declare ⟨12, 26⟩ .list ⟨"xs", ⟨17, 19⟩⟩ (some (.list ⟨22, 25⟩ [.name ⟨23, 24⟩ "n"])),
      .assign ⟨27, 39⟩ ⟨"xs", ⟨27, 29⟩⟩ [.index (.literal ⟨30, 31⟩ (.int 0))] .set
        (.literal ⟨35, 38⟩ (.string "a"))]
  tail := none

/-- The final state of a run has a typed variable for each declaration. -/
theorem typed_locals_rewritten :
    ∃ m, Reaches (.untimed ⟨100, 1000, 10⟩) rewritten (.fresh true) m ∧
      m.scopes.map (·.map fun slot ↦ (slot.name, slot.type)) = [[("xs", .list), ("n", .long)]] ∧
      ∀ scope ∈ m.scopes, ∀ slot ∈ scope, Fits slot.type slot.value :=
  ⟨_, .final, by decide, typed_locals .final⟩

end Snippet.Run
