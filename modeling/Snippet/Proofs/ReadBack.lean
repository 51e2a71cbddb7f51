import Snippet.Proofs.Paths
import Snippet.Proofs.Scopes

/-!
# Reading what was written

A value that is written at the end of a path is what the same path reads afterwards
(`readPath_of_written`), however deep the path is and whatever lists and maps it passes. Both
directions give the same meaning to an index, whether it is the number of an item or stands for a
key.

There is one step on which they differ. `length` is a member that lists, strings and maps have, and
reading it counts. Writing knows it for lists and strings, where it is refused, but takes it for an
ordinary key in a map. So a path with this step reads a count, or nothing at all
(`readPath_of_length`), and `readPath_written_iff` says exactly when a value is read back.

An assignment writes through a path, so this holds of assignments as well.

* `read_back_iff`: when a write, or an assignment, is read back.
-/

namespace Snippet.Run

open Script (Accessor Expr Ident Stmt)

variable {limit : Nat} {new u v w : Value} {key : PathKey} {keys front rest : List PathKey}
  {entries : List (String × Value)}

/-! ### Single steps -/

theorem readPath_cons (v : Value) (key : PathKey) (rest : List PathKey) :
    readPath v (key :: rest) = readKey v key >>= (readPath · rest) :=
  rfl

/-- A path is read part by part. -/
theorem readPath_append (v : Value) (front rest : List PathKey) :
    readPath v (front ++ rest) = readPath v front >>= (readPath · rest) := by
  induction front generalizing v with
  | nil => rfl
  | cons key front ih =>
    rw [List.cons_append, readPath_cons, readPath_cons]
    cases readKey v key with
    | error fault => rfl
    | ok u => exact ih u

/-- An item that was replaced is read by its index. -/
theorem readKey_set {items : List Value} {index : Value} {i : Nat}
    (hindex : listIndex items.length index = .ok i) (hv : items[i]? = some v) (w : Value) :
    readKey (.list (items.set i w)) (.index index) = .ok w := by
  have hi : i < items.length := (List.getElem?_eq_some_iff.1 hv).1
  show readItem (items.set i w) index = .ok w
  simp only [readItem, List.length_set, hindex, bind, Except.bind, List.getElem?_set_self hi]

/-- A step that does not ask for the length of a map is read as a key. -/
theorem readKey_map (hlength : key ≠ .member "length") (entries : List (String × Value)) :
    readKey (.map entries) key = mapKey key >>= (readEntry · entries) := by
  cases key with
  | index index => rfl
  | member name =>
    have hname : name ≠ "length" := fun h ↦ hlength (congrArg PathKey.member h)
    show readMember _ name = _
    rw [readMember, if_neg hname]
    rfl

/-- An entry that was written is read by its key, if the key is not read as the length. -/
theorem readKey_putEntry {k : String} (hkey : mapKey key = .ok k) (hlength : key ≠ .member "length")
    (w : Value) (entries : List (String × Value)) :
    readKey (.map (putEntry k w entries)) key = .ok w := by
  rw [readKey_map hlength, hkey]
  show readEntry k (putEntry k w entries) = .ok w
  rw [readEntry, lookup_putEntry_self]

/-- A number has no elements. -/
theorem readKey_ofNat (n : Nat) (key : PathKey) :
    ∃ fault, readKey (.ofNat n) key = .error fault := by
  cases key with
  | index index => exact ⟨_, rfl⟩
  | member name =>
    refine ⟨.type (.noMember "int" name), ?_⟩
    by_cases hname : name = "length" <;>
      simp [readKey, readMember, lengthOf?, Value.ofNat, Value.typeName, hname]

/-! ### Whole paths -/

/-- What was written at the end of a path is read there, if no step of the path asks for a
length. -/
theorem readPath_of_written (h : Written limit new keys v w)
    (hlength : PathKey.member "length" ∉ keys) : readPath w keys = .ok new := by
  induction h with
  | here => rfl
  | item hindex hv _ ih =>
    rw [readPath_cons, readKey_set hindex hv]
    exact ih fun hmem ↦ hlength (.tail _ hmem)
  | entry hkey _ _ ih =>
    rw [readPath_cons, readKey_putEntry hkey fun heq ↦ hlength (heq ▸ .head _)]
    exact ih fun hmem ↦ hlength (.tail _ hmem)
  | added hkey _ _ =>
    rw [readPath_cons, readKey_putEntry hkey fun heq ↦ hlength (heq ▸ .head _)]
    rfl

/-- Where a write has passed the step `length`, there is a map. -/
theorem exists_map_of_written (h : Written limit new keys v w)
    (hlength : PathKey.member "length" ∈ keys) :
    ∃ front rest entries, keys = front ++ .member "length" :: rest ∧
      readPath w front = .ok (.map entries) := by
  induction h with
  | here => cases hlength
  | item hindex hv _ ih =>
    cases hlength with
    | tail _ hmem =>
      obtain ⟨front, rest, entries, rfl, hfront⟩ := ih hmem
      refine ⟨.index _ :: front, rest, entries, rfl, ?_⟩
      rw [readPath_cons, readKey_set hindex hv]
      exact hfront
  | @entry key _ _ _ _ _ hkey _ _ ih =>
    by_cases hfirst : key = .member "length"
    · exact ⟨[], _, _, congrArg (· :: _) hfirst, rfl⟩
    · obtain ⟨front, rest, entries, rfl, hfront⟩ :=
        ih ((List.mem_cons.1 hlength).resolve_left fun heq ↦ hfirst heq.symm)
      refine ⟨key :: front, rest, entries, rfl, ?_⟩
      rw [readPath_cons, readKey_putEntry hkey hfirst]
      exact hfront
  | added _ _ _ => exact ⟨[], [], _, congrArg (· :: []) (List.mem_singleton.1 hlength).symm, rfl⟩

/-- Behind the length of a map there is nothing to read. -/
theorem readPath_of_length (h : readPath w front = .ok (.map entries)) :
    readPath w (front ++ .member "length" :: rest) = .ok u ↔
      rest = [] ∧ u = .ofNat entries.length := by
  rw [readPath_append, h]
  -- the length is read as a number, also if there is an entry of this name
  show readPath (.ofNat entries.length) rest = .ok u ↔ _
  cases rest with
  | nil => simp [readPath, eq_comm]
  | cons key rest =>
    obtain ⟨fault, hfault⟩ := readKey_ofNat entries.length key
    rw [readPath_cons, hfault]
    exact ⟨nofun, nofun⟩

/-- A path that ends at the length of a map, with this length as the value in question. -/
def CountsTo (w : Value) (keys : List PathKey) (n : Value) : Prop :=
  ∃ front entries, keys = front ++ [.member "length"] ∧ readPath w front = .ok (.map entries) ∧
    n = .ofNat entries.length

/-- What was written is read back if the path asks for no length, or if it happens to be the length
that the path asks for; and in no other case. -/
theorem readPath_written_iff (h : Written limit new keys v w) :
    readPath w keys = .ok new ↔ PathKey.member "length" ∉ keys ∨ CountsTo w keys new := by
  refine ⟨fun hread ↦ Classical.or_iff_not_imp_left.2 fun hlength ↦ ?_, fun hcases ↦ ?_⟩
  · obtain ⟨front, rest, entries, rfl, hfront⟩ :=
      exists_map_of_written h (Classical.not_not.1 hlength)
    obtain ⟨rfl, hnew⟩ := (readPath_of_length hfront).1 hread
    exact ⟨front, entries, rfl, hfront, hnew⟩
  · obtain hlength | ⟨front, entries, rfl, hfront, hnew⟩ := hcases
    · exact readPath_of_written h hlength
    · exact (readPath_of_length hfront).2 ⟨rfl, hnew⟩

/-! ### Assignments -/

/-- **What is read back.** Under any limits, a write that succeeds is read back by its own path
exactly if no step of the path asks for a length, or the value happens to be the length that is
asked for.

An assignment that completes has evaluated the indices on its left and then the expression on its
right. The variable is there afterwards. If nothing but its name stands on the left, it holds the
value, converted to its type. Otherwise the indices read the value back, under the same
condition. -/
theorem read_back_iff (setting : Setting) :
    (∀ {new v w : Value} {keys : List PathKey},
      writePath setting.limits.maxElements new keys v = .ok w →
        (readPath w keys = .ok new ↔ PathKey.member "length" ∉ keys ∨ CountsTo w keys new)) ∧
    ∀ {span : Span} {root : Ident} {path : List Accessor} {e : Expr} {flow : Flow}
      {m m' : Machine},
      exec setting (.assign span root path .set e) m = .ok flow m' →
        ∃ keys v m₁ m₂ slot, evalPath setting path m.ticked = .ok keys m₁ ∧
          eval setting e m₁ = .ok v m₂ ∧ findSlot? root.name m'.scopes = some slot ∧
          (keys = [] → coerce slot.type v = .ok slot.value) ∧
          (keys ≠ [] → (readPath slot.value keys = .ok v ↔
            PathKey.member "length" ∉ keys ∨ CountsTo slot.value keys v)) := by
  refine ⟨fun h ↦ readPath_written_iff (written_of_writePath h), fun h ↦ ?_⟩
  obtain ⟨p, m₂, hprepare, hstore⟩ := exec_assign_eq_ok h
  obtain ⟨m₁, hpath, heval⟩ := prepare_set_eq_ok hprepare
  have hslot := findSlot?_of_prepare hprepare
  obtain ⟨hnil, w, hcoerce, rfl⟩ | ⟨key, rest, updated, hcons, hwrite, rfl, -⟩ :=
    storeAt_eq_ok hstore
  · exact ⟨p.keys, p.value, m₁, m₂, _, hpath, heval, findSlot?_setSlot hslot, fun _ ↦ hcoerce,
      fun hne ↦ absurd hnil hne⟩
  · refine ⟨p.keys, p.value, m₁, m₂, _, hpath, heval, findSlot?_setSlot hslot, fun hnil ↦ ?_,
      fun _ ↦ readPath_written_iff (written_of_writePath hwrite)⟩
    rw [hnil] at hcons
    cases hcons

/-- The assignment `m["rows"][1].name = "b"`. -/
def namingRow : Stmt :=
  .assign ⟨0, 24⟩ ⟨"m", ⟨0, 1⟩⟩
    [.index (.literal ⟨2, 8⟩ (.string "rows")), .index (.literal ⟨10, 11⟩ (.int 1)),
      .member ⟨"name", ⟨13, 17⟩⟩]
    .set (.literal ⟨20, 23⟩ (.string "b"))

/-- The path of that assignment, its indices evaluated. -/
def rowName : List PathKey :=
  [.index (.string "rows"), .index (.int 1), .member "name"]

/-- Two rows in a map, one of them without a name. -/
def twoRows : Value :=
  .map [("rows", .list [.null, .map []])]

/-- A name that is added to a row in a list in a map is read back, written at once or by an
assignment. -/
theorem read_back_iff_namingRow :
    (∃ w, writePath 4 (.string "b") rowName twoRows = .ok w ∧
      readPath w rowName = .ok (.string "b")) ∧
    ∃ m' slot, exec (.untimed ⟨100, 1000, 4⟩) namingRow
        ⟨0, [[⟨"m", .map, twoRows⟩]], .fresh true⟩ = .ok .normal m' ∧
      findSlot? "m" m'.scopes = some slot ∧ readPath slot.value rowName = .ok (.string "b") := by
  have hlength : PathKey.member "length" ∉ rowName := by simp [rowName]
  obtain ⟨hwrites, hassigns⟩ := read_back_iff (.untimed ⟨100, 1000, 4⟩)
  constructor
  · obtain ⟨w, hwrite⟩ : ∃ w, writePath 4 (.string "b") rowName twoRows = .ok w := ⟨_, rfl⟩
    exact ⟨w, hwrite, (hwrites hwrite).2 (.inl hlength)⟩
  · obtain ⟨m', hexec⟩ : ∃ m', exec (.untimed ⟨100, 1000, 4⟩) namingRow
        ⟨0, [[⟨"m", .map, twoRows⟩]], .fresh true⟩ = .ok .normal m' := ⟨_, rfl⟩
    obtain ⟨_, _, _, _, slot, hpath, heval, hslot, -, hread⟩ := hassigns hexec
    cases hpath
    cases heval
    exact ⟨m', slot, hexec, hslot, (hread (List.cons_ne_nil _ _)).2 (.inl hlength)⟩

/-- Not everything is read back: five is written under the key `length` of an empty map, and then
the path reads that the map has one entry. -/
theorem read_back_length :
    ¬ ∀ (v new w : Value) (keys : List PathKey), keys ≠ [] →
      writePath 100 new keys v = .ok w → readPath w keys = .ok new := by
  intro h
  have hread := h (.map []) (.int 5) _ [.member "length"] (List.cons_ne_nil _ _) rfl
  cases hread

end Snippet.Run
