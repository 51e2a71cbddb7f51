import Snippet.Proofs.Shape
import Snippet.Run.Path

/-!
# Writes through a path

What a write along a path may do to a value. `Written` lists the ways, one for each shape of the
next key; `written_of_writePath` says that there are no others. What holds of writes is then
shown along their derivations.

The number of elements changes in one of two ways (`Written.elementCount`): a write under a key
that is not there yet adds one element and those of the new value, and any other write adds
those of the new value at most.
-/

namespace Snippet.Run

variable {limit : Nat} {new v w : Value} {keys : List PathKey}

theorem except_bind_eq_ok_iff {ε α β : Type} {x : Except ε α} {f : α → Except ε β} {b : β} :
    x >>= f = .ok b ↔ ∃ a, x = .ok a ∧ f a = .ok b := by
  cases x <;> simp [bind, Except.bind]

/-- A value, and what it becomes by writing `new` at the end of a path in it. -/
inductive Written (limit : Nat) (new : Value) : List PathKey → Value → Value → Prop
  | here {v : Value} : Written limit new [] v new
  | item {index rest items i} {v w : Value} (hindex : listIndex items.length index = .ok i)
      (hv : items[i]? = some v) (h : Written limit new rest v w) :
      Written limit new (.index index :: rest) (.list items) (.list (items.set i w))
  | entry {key k rest entries} {v w : Value} (hkey : mapKey key = .ok k)
      (hv : entries.lookup k = some v)
      (h : Written limit new rest v w) :
      Written limit new (key :: rest) (.map entries) (.map (putEntry k w entries))
  | added {key k entries} (hkey : mapKey key = .ok k) (hnone : entries.lookup k = none)
      (hlength : entries.length < limit) :
      Written limit new [key] (.map entries) (.map (putEntry k new entries))

/-- A write that succeeds is one of these. -/
theorem written_of_writePath (h : writePath limit new keys v = .ok w) :
    Written limit new keys v w := by
  induction keys generalizing v w with
  | nil =>
    cases h
    exact .here
  | cons key rest ih =>
    cases v with
    | list items =>
      cases key with
      | member _ => cases h
      | index index =>
        rw [writePath] at h
        obtain ⟨i, hindex, h⟩ := except_bind_eq_ok_iff.1 h
        rcases hv : items[i]? with - | v
        · rw [hv] at h
          cases h
        · rw [hv] at h
          obtain ⟨w', hw, h⟩ := except_bind_eq_ok_iff.1 h
          cases h
          exact .item hindex hv (ih hw)
    | map entries =>
      rw [writePath] at h
      obtain ⟨k, hkey, h⟩ := except_bind_eq_ok_iff.1 h
      rcases hv : entries.lookup k with - | v
      · rw [hv] at h
        cases rest with
        | nil =>
          dsimp only at h
          split at h
          · cases h
          · cases h
            exact .added hkey hv (by omega)
        | cons _ _ => cases h
      · rw [hv] at h
        obtain ⟨w', hw, h⟩ := except_bind_eq_ok_iff.1 h
        cases h
        exact .entry hkey hv (ih hw)
    | _ => cases h

/-! ### Kinds -/

/-- A collection and another one of its kind. -/
inductive Rebuilt : Value → Value → Prop
  | list (xs ys : List Value) : Rebuilt (.list xs) (.list ys)
  | map (xs ys : List (String × Value)) : Rebuilt (.map xs) (.map ys)

/-- A write into a collection keeps its kind; nothing else can be written into. -/
theorem rebuilt_of_writePath {key : PathKey} {rest : List PathKey}
    (h : writePath limit new (key :: rest) v = .ok w) : Rebuilt v w := by
  cases written_of_writePath h with
  | item _ _ _ => exact .list _ _
  | entry _ _ _ => exact .map _ _
  | added _ _ _ => exact .map _ _

/-! ### Elements -/

/-- A path that ends with a key that is not there yet. -/
inductive AddsKey : List PathKey → Value → Prop
  | here {key k entries} (hkey : mapKey key = .ok k) (hnone : entries.lookup k = none) :
      AddsKey [key] (.map entries)
  | item {index rest items i} {v : Value} (hindex : listIndex items.length index = .ok i)
      (hv : items[i]? = some v) (h : AddsKey rest v) :
      AddsKey (.index index :: rest) (.list items)
  | entry {key k rest entries} {v : Value} (hkey : mapKey key = .ok k)
      (hv : entries.lookup k = some v) (h : AddsKey rest v) : AddsKey (key :: rest) (.map entries)

theorem Written.elementCount (h : Written limit new keys v w) :
    AddsKey keys v ∧ w.elementCount = v.elementCount + 1 + new.elementCount ∨
      ¬ AddsKey keys v ∧ w.elementCount ≤ v.elementCount + new.elementCount := by
  induction h with
  | here => exact .inr ⟨nofun, Nat.le_add_left _ _⟩
  | @item index rest items i v w hindex hv _ ih =>
    have hset := Value.itemCount_set (w := w) hv
    have hiff : AddsKey (.index index :: rest) (.list items) ↔ AddsKey rest v := by
      refine ⟨fun h ↦ ?_, .item hindex hv⟩
      cases h with
      | item hindex' hv' h =>
        cases hindex.symm.trans hindex'
        cases hv.symm.trans hv'
        exact h
    rw [hiff, Value.elementCount, Value.elementCount]
    exact ih.imp (And.imp_right fun h ↦ by omega) (And.imp_right fun h ↦ by omega)
  | @entry key k rest entries v w hkey hv _ ih =>
    have hput := Value.entryCount_putEntry_of_some (w := w) hv
    have hiff : AddsKey (key :: rest) (.map entries) ↔ AddsKey rest v := by
      refine ⟨fun h ↦ ?_, .entry hkey hv⟩
      cases h with
      | here hkey' hnone =>
        cases hkey.symm.trans hkey'
        cases hv.symm.trans hnone
      | entry hkey' hv' h =>
        cases hkey.symm.trans hkey'
        cases hv.symm.trans hv'
        exact h
    rw [hiff, Value.elementCount, Value.elementCount]
    exact ih.imp (And.imp_right fun h ↦ by omega) (And.imp_right fun h ↦ by omega)
  | added hkey hnone _ =>
    exact .inl ⟨.here hkey hnone, Value.entryCount_putEntry_of_none hnone⟩

end Snippet.Run
