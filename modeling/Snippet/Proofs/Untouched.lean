import Snippet.Proofs.ReadBack

/-!
# What a write leaves alone

A write through a path changes one element, and what it rebuilds on the way to it. This module says
what else is to be seen of it, which is nothing: a path that leads to another element reads what it
read before, value or fault, and the collections on the way are as large as they were
(`write_leaves`).

Whether two steps lead to the same element is not a matter of how they are written. In a map the
index `1`, the index `"1"` and the member of that name are one key, and in a list every index that
is out of range leads nowhere. So steps are compared by the places they name (`place?`), and two
paths by the first step at which their places differ (`Parts`).

A place is not always what is read. The member `length` names a key in a map, and is read as a
count; that is why nothing is said here of paths that ask for a length, and why the elements on a
path are found by following it (`follow?`) and not by reading it.
-/

namespace Snippet

variable {k : String} {new v : Value} {entries : List (String × Value)}

/-- Writing a key that is there keeps the keys in their order. -/
theorem map_fst_putEntry_of_some (h : entries.lookup k = some v) (new : Value) :
    (putEntry k new entries).map Prod.fst = entries.map Prod.fst := by
  induction entries with
  | nil => cases h
  | cons e rest ih =>
    obtain ⟨k', v'⟩ := e
    rw [putEntry]
    by_cases hk : k' = k
    · rw [if_pos hk]
      rfl
    · rw [List.lookup_cons, beq_eq_false_iff_ne.2 (Ne.symm hk)] at h
      rw [if_neg hk, List.map_cons, List.map_cons, ih h]

/-- A key that is not there is written at the end. -/
theorem putEntry_of_none (h : entries.lookup k = none) (new : Value) :
    putEntry k new entries = entries ++ [(k, new)] := by
  induction entries with
  | nil => rfl
  | cons e rest ih =>
    obtain ⟨k', v'⟩ := e
    have hk : k' ≠ k := by
      rintro rfl
      rw [List.lookup_cons_self] at h
      cases h
    rw [List.lookup_cons, beq_eq_false_iff_ne.2 (Ne.symm hk)] at h
    rw [putEntry, if_neg hk, ih h, List.cons_append]

namespace Run

variable {limit : Nat} {u u' w : Value} {key key' : PathKey} {keys front rest q : List PathKey}

/-! ### Places -/

/-- The place of an element in a collection. -/
inductive Place where
  | item (position : Nat)
  | entry (key : String)
  deriving DecidableEq, Repr

/-- The place that a step of a path names in a value, if it names one. -/
def place? : Value → PathKey → Option Place
  | .list items, .index index => (listIndex items.length index).toOption.map .item
  | .map _, key => (mapKey key).toOption.map .entry
  | _, _ => none

/-- What stands at a place of a value. -/
def elementAt? : Value → Place → Option Value
  | .list items, .item i => items[i]?
  | .map entries, .entry k => entries.lookup k
  | _, _ => none

/-- The element of an element of a value to which a path leads. -/
def follow? (v : Value) : List PathKey → Option Value
  | [] => some v
  | key :: rest => do
    let u ← elementAt? v (← place? v key)
    follow? u rest

theorem follow?_cons {place : Place} (hplace : place? v key = some place)
    (hu : elementAt? v place = some u) (rest : List PathKey) :
    follow? v (key :: rest) = follow? u rest := by
  rw [follow?, hplace]
  show (elementAt? v place).bind (follow? · rest) = _
  rw [hu, Option.bind_some]

theorem place?_list {items : List Value} {index : Value} {i : Nat}
    (hindex : listIndex items.length index = .ok i) :
    place? (.list items) (.index index) = some (.item i) := by
  rw [place?, hindex]
  rfl

theorem place?_map {k : String} (hkey : mapKey key = .ok k)
    (entries : List (String × Value)) : place? (.map entries) key = some (.entry k) := by
  rw [place?, hkey]
  rfl

/-- Replacing an item changes no place. -/
theorem place?_set (items : List Value) (i : Nat) (w : Value) (key : PathKey) :
    place? (.list (items.set i w)) key = place? (.list items) key := by
  cases key with
  | index index => rw [place?, place?, List.length_set]
  | member name => rfl

/-! ### Reading one step -/

/-- A step that names a place where something stands reads it, unless it asks for a length. -/
theorem readKey_of_place? {place : Place} (hplace : place? v key = some place)
    (hu : elementAt? v place = some u) (hlength : key ≠ .member "length") :
    readKey v key = .ok u := by
  cases v with
  | list items =>
    cases key with
    | member name => cases hplace
    | index index =>
      rw [place?] at hplace
      show readItem items index = .ok u
      cases hindex : listIndex items.length index with
      | error fault =>
        rw [hindex] at hplace
        cases hplace
      | ok i =>
        rw [hindex] at hplace
        cases hplace
        rw [elementAt?] at hu
        simp only [readItem, hindex, bind, Except.bind, hu]
  | map entries =>
    rw [place?] at hplace
    cases hkey : mapKey key with
    | error fault =>
      rw [hkey] at hplace
      cases hplace
    | ok k =>
      rw [hkey] at hplace
      cases hplace
      rw [elementAt?] at hu
      rw [readKey_map hlength, hkey]
      show readEntry k entries = .ok u
      rw [readEntry, hu]
  | _ => cases hplace

/-- A list in which one item was replaced reads as before by every step that names another place
in it, or none. -/
theorem readKey_set_of_ne {items : List Value} {i : Nat}
    (hplace : place? (.list items) key ≠ some (.item i)) (w : Value) :
    readKey (.list (items.set i w)) key = readKey (.list items) key := by
  cases key with
  | member name =>
    show readMember _ name = readMember _ name
    simp only [readMember, lengthOf?, List.length_set, Value.typeName]
  | index index =>
    show readItem (items.set i w) index = readItem items index
    rw [readItem, readItem, List.length_set]
    cases hindex : listIndex items.length index with
    | error fault => rfl
    | ok j =>
      have hij : i ≠ j := by
        rintro rfl
        exact hplace (place?_list hindex)
      simp only [bind, Except.bind, List.getElem?_set_ne hij]

/-- So does a map in which one entry was written, by every step that does not ask for its
length. -/
theorem readKey_putEntry_of_ne {entries : List (String × Value)} {k : String}
    (hplace : place? (.map entries) key ≠ some (.entry k)) (hlength : key ≠ .member "length")
    (w : Value) : readKey (.map (putEntry k w entries)) key = readKey (.map entries) key := by
  rw [readKey_map hlength, readKey_map hlength]
  cases hkey : mapKey key with
  | error fault => rfl
  | ok k' =>
    have hk : k' ≠ k := by
      rintro rfl
      exact hplace (place?_map hkey entries)
    show readEntry k' (putEntry k w entries) = readEntry k' entries
    rw [readEntry, readEntry, lookup_putEntry_of_ne hk]

/-! ### Reading elsewhere -/

/-- Two paths that lead from a value through the same elements up to a step at which the second one
names another place than the first, or none. -/
inductive Parts : Value → List PathKey → List PathKey → Prop
  | here {v key key' rest rest'} (hother : place? v key' ≠ place? v key) :
      Parts v (key :: rest) (key' :: rest')
  | later {v u key key' place rest rest'} (hplace : place? v key = some place)
      (hplace' : place? v key' = some place) (hu : elementAt? v place = some u)
      (h : Parts u rest rest') : Parts v (key :: rest) (key' :: rest')

/-- Behind the same element in two values, two paths read alike if the rest of them does. -/
theorem readPath_cons_congr {place : Place} (hplace : place? w key = place? v key)
    (hv : place? v key = some place) (hu : elementAt? v place = some u)
    (hu' : elementAt? w place = some u') (hlength : key ≠ .member "length")
    (hrest : readPath u' rest = readPath u rest) :
    readPath w (key :: rest) = readPath v (key :: rest) := by
  rw [readPath_cons, readPath_cons, readKey_of_place? (hplace.trans hv) hu' hlength,
    readKey_of_place? hv hu hlength]
  exact hrest

/-- What was written along one path is not to be seen on a path that parts from it. -/
theorem readPath_of_parts (h : Written limit new keys v w) (hq : Parts v keys q)
    (hlength : PathKey.member "length" ∉ q) : readPath w q = readPath v q := by
  induction h generalizing q with
  | here => cases hq
  | @item index rest items i v w hindex hv _ ih =>
    have hwritten := place?_list hindex
    cases hq with
    | here hother =>
      rw [hwritten] at hother
      rw [readPath_cons, readPath_cons, readKey_set_of_ne hother]
    | @later _ _ _ _ place _ _ hplace hplace' hu hrest =>
      obtain rfl : place = .item i := Option.some.inj (hplace.symm.trans hwritten)
      obtain rfl := Option.some.inj (hu.symm.trans hv)
      have hset : elementAt? (.list (items.set i w)) (.item i) = some w :=
        List.getElem?_set_self (List.getElem?_eq_some_iff.1 hv).1
      exact readPath_cons_congr (place?_set items i w _) hplace' hu hset
        (List.ne_of_not_mem_cons hlength).symm (ih hrest (List.not_mem_of_not_mem_cons hlength))
  | @entry key k rest entries v w hkey hv _ ih =>
    have hwritten := place?_map hkey entries
    cases hq with
    | here hother =>
      rw [hwritten] at hother
      rw [readPath_cons, readPath_cons,
        readKey_putEntry_of_ne hother (List.ne_of_not_mem_cons hlength).symm]
    | @later _ _ _ _ place _ _ hplace hplace' hu hrest =>
      obtain rfl : place = .entry k := Option.some.inj (hplace.symm.trans hwritten)
      obtain rfl := Option.some.inj (hu.symm.trans hv)
      have hput : elementAt? (.map (putEntry k w entries)) (.entry k) = some w :=
        lookup_putEntry_self k w entries
      exact readPath_cons_congr rfl hplace' hu hput
        (List.ne_of_not_mem_cons hlength).symm (ih hrest (List.not_mem_of_not_mem_cons hlength))
  | @added key k entries hkey _ _ =>
    cases hq with
    | here hother =>
      rw [place?_map hkey entries] at hother
      rw [readPath_cons, readPath_cons,
        readKey_putEntry_of_ne hother (List.ne_of_not_mem_cons hlength).symm]
    | later _ _ _ hrest => cases hrest

/-! ### Collections on the path -/

/-- A list and one of the same length, or a map and one with the same keys in the same order. -/
inductive SameOutline : Value → Value → Prop
  | list {xs ys : List Value} (h : ys.length = xs.length) : SameOutline (.list xs) (.list ys)
  | map {xs ys : List (String × Value)} (h : ys.map Prod.fst = xs.map Prod.fst) :
      SameOutline (.map xs) (.map ys)

/-- A map, and the same map with one more entry at its end, under a key that was not there. -/
inductive OneMore (key : PathKey) (new : Value) : Value → Value → Prop
  | intro {k : String} {entries : List (String × Value)} (hkey : mapKey key = .ok k)
      (hnew : k ∉ entries.map Prod.fst) :
      OneMore key new (.map entries) (.map (entries ++ [(k, new)]))

/-- Every step of a path that was written starts from a collection. It keeps its outline, but for a
map at the last step, which may have got one more entry. -/
theorem outline_of_written (h : Written limit new (front ++ key :: rest) v w) :
    ∃ u u', follow? v front = some u ∧ follow? w front = some u' ∧
      (SameOutline u u' ∨ rest = [] ∧ OneMore key new u u') := by
  generalize hkeys : front ++ key :: rest = keys at h
  induction h generalizing front with
  | here => cases front <;> cases hkeys
  | @item index rest' items i v w hindex hv _ ih =>
    cases front with
    | nil => exact ⟨_, _, rfl, rfl, .inl (.list List.length_set)⟩
    | cons first front =>
      obtain ⟨rfl, hrest⟩ := List.cons.inj hkeys
      obtain ⟨u, u', hu, hu', houtline⟩ := ih hrest
      have hset : elementAt? (.list (items.set i w)) (.item i) = some w :=
        List.getElem?_set_self (List.getElem?_eq_some_iff.1 hv).1
      have hplace := place?_list hindex
      refine ⟨u, u', ?_, ?_, houtline⟩
      · rw [follow?_cons hplace hv, hu]
      · rw [follow?_cons ((place?_set ..).trans hplace) hset, hu']
  | @entry first' k rest' entries v w hkey hv _ ih =>
    cases front with
    | nil => exact ⟨_, _, rfl, rfl, .inl (.map (map_fst_putEntry_of_some hv w))⟩
    | cons first front =>
      obtain ⟨rfl, hrest⟩ := List.cons.inj hkeys
      obtain ⟨u, u', hu, hu', houtline⟩ := ih hrest
      have hput : elementAt? (.map (putEntry k w entries)) (.entry k) = some w :=
        lookup_putEntry_self k w entries
      refine ⟨u, u', ?_, ?_, houtline⟩
      · rw [follow?_cons (place?_map hkey entries) hv, hu]
      · rw [follow?_cons (place?_map hkey _) hput, hu']
  | @added last k entries hkey hnone _ =>
    cases front with
    | nil =>
      obtain ⟨rfl, rfl⟩ := List.cons.inj hkeys
      refine ⟨_, _, rfl, rfl, .inr ⟨rfl, ?_⟩⟩
      rw [putEntry_of_none hnone]
      refine .intro hkey fun hmem ↦ ?_
      obtain ⟨e, he, rfl⟩ := List.mem_map.1 hmem
      exact absurd (List.lookup_eq_none_iff.1 hnone e he) (by simp)
    | cons first front => cases front <;> cases hkeys

/-- **What a write leaves alone.** After a write that succeeds, every path that parts from the
written one and asks for no length reads what it read before, whether that is a value or a fault.

Every step of the written path starts from a collection, before and behind the write. A list on the
path has kept its length, and a map its keys in their order. Only the map at the last step may have
one more key, which is then the last of its keys. -/
theorem write_leaves (h : writePath limit new keys v = .ok w) :
    (∀ q, Parts v keys q → PathKey.member "length" ∉ q → readPath w q = readPath v q) ∧
    ∀ front key rest, keys = front ++ key :: rest →
      ∃ u u', follow? v front = some u ∧ follow? w front = some u' ∧
        (SameOutline u u' ∨ rest = [] ∧ OneMore key new u u') := by
  have hwritten := written_of_writePath h
  refine ⟨fun _ hq hlength ↦ readPath_of_parts hwritten hq hlength, ?_⟩
  rintro front key rest rfl
  exact outline_of_written hwritten

/-- The path to the row in front of the one that is named, with its first key spelled as a
member. -/
def firstRow : List PathKey :=
  [.member "rows", .index (.int 0)]

/-- A name is added to the second of two rows. The first row is read as before, and the second one
has the same keys or one more. -/
theorem write_leaves_firstRow :
    ∃ w, writePath 4 (.string "b") rowName twoRows = .ok w ∧
      Parts twoRows rowName firstRow ∧ readPath w firstRow = readPath twoRows firstRow ∧
      ∃ u u', follow? twoRows [.index (.string "rows"), .index (.int 1)] = some u ∧
        follow? w [.index (.string "rows"), .index (.int 1)] = some u' ∧
        (SameOutline u u' ∨ OneMore (.member "name") (.string "b") u u') := by
  obtain ⟨w, hwrite⟩ : ∃ w, writePath 4 (.string "b") rowName twoRows = .ok w := ⟨_, rfl⟩
  obtain ⟨helsewhere, honPath⟩ := write_leaves hwrite
  have hrows : place? twoRows (.index (.string "rows")) = some (.entry "rows") := rfl
  have hparts : Parts twoRows rowName firstRow := .later hrows rfl rfl (.here (by decide))
  have hlength : PathKey.member "length" ∉ firstRow := by simp [firstRow]
  obtain ⟨u, u', hu, hu', houtline⟩ := honPath [_, _] (.member "name") [] rfl
  exact ⟨w, hwrite, hparts, helsewhere _ hparts hlength, u, u', hu, hu',
    houtline.imp_right And.right⟩

end Run

end Snippet
