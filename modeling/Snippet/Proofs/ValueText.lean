import Snippet.Value.Display

/-!
# The text of a value is its display, cut

The writer of values leaves off where its budget is spent, and passes over whole parts of a value.
What it passes over would not have been taken: a writer that is full takes nothing. So the writer
does what writing the whole display would do (`writeFrom_eq`), and the text of a value is its
display, or as many characters of it as fit and the mark for what is missing (`toList_toText`).

The display itself is what is printed for the items of a list, or the entries of a map, with commas
between them (`display_list`, `display_map`). An item prints as it does alone, but for a string,
which is quoted, and which can be told from its quoted form (`Text.quoted_inj`); so what stands in a
value in several places is printed in each of them.

* `toText_cuts_display`: both together.

Truth values and numbers are written in letters, digits, signs and points, so that their texts may
stand in a block of code (`backtick_notMem_display_float`).
-/

namespace Snippet

/-- Joining texts puts a separator in front of all of them but the first. -/
theorem intercalate_cons {α : Type} (sep first : List α) (rest : List (List α)) :
    sep.intercalate (first :: rest) = first ++ rest.flatMap (sep ++ ·) := by
  induction rest generalizing first with
  | nil => rw [List.intercalate_singleton, List.flatMap_nil, List.append_nil]
  | cons second rest ih =>
    rw [List.intercalate_cons_cons, ih, List.flatMap_cons, List.append_assoc, List.append_assoc]

namespace Decimal

theorem backtick_notMem_repr (n : Nat) : '`' ∉ (Nat.repr n).toList := by
  intro h
  rw [Nat.repr, String.toList_ofList] at h
  exact absurd (Nat.isDigit_of_mem_toDigits (by decide) (by decide) h) (by decide)

theorem backtick_notMem_positional (d : Dec) : '`' ∉ d.positional.toList := by
  have hdigits := backtick_notMem_repr d.digits
  have hzeros (n : Nat) : '`' ∉ List.replicate n '0' := fun h ↦
    absurd (List.eq_of_mem_replicate h) (by decide)
  unfold Dec.positional
  dsimp only
  split
  · rw [String.toList_ofList]
    exact List.not_mem_append hdigits (hzeros _)
  · have hpadded (n : Nat) := List.not_mem_append (hzeros n) hdigits
    rw [String.toList_ofList]
    refine List.not_mem_append (mt List.mem_of_mem_take (hpadded _)) fun h ↦ ?_
    obtain h | h := List.mem_cons.1 h
    · exact absurd h (by decide)
    · exact hpadded _ (List.mem_of_mem_drop h)

theorem backtick_notMem_textOf (x : Float) : '`' ∉ (textOf x).toList := by
  unfold textOf
  split
  · rw [String.toList_append]
    refine List.not_mem_append ?_ (backtick_notMem_positional _)
    split <;> decide
  · repeat' split
    all_goals decide

end Decimal

namespace Value

open Text (Bounded)

mutual

/-- Writing a value piece by piece is writing its display. -/
theorem writeFrom_eq : ∀ (nested : Bool) (v : Value) (b : Bounded),
    writeFrom nested v b = b.write (displayFrom nested v)
  | _, .list items, b => by
    rw [writeFrom, displayFrom, writeItems_eq, Bounded.write_cons, Bounded.write_append]
    rfl
  | _, .map entries, b => by
    rw [writeFrom, displayFrom, writeEntries_eq, Bounded.write_cons, Bounded.write_append]
    rfl
  | _, .null, _ | _, .bool _, _ | _, .int _, _ | _, .float _, _ | _, .string _, _
  | _, .object _ _ _, _ | _, .response _, _ => rfl

/-- So is writing the items of a list, also where the rest of them is passed over. -/
theorem writeItems_eq : ∀ (first : Bool) (items : List Value) (b : Bounded),
    writeItems first items b = b.write (displayItems first items)
  | _, [], _ => rfl
  | first, v :: rest, b => by
    rw [writeItems]
    split
    · next hfull => rw [Bounded.write_of_full hfull]
    · rw [writeItems_eq, writeFrom_eq, displayItems, Bounded.write_append, Bounded.write_append]

/-- And writing the entries of a map. -/
theorem writeEntries_eq : ∀ (first : Bool) (entries : List (String × Value)) (b : Bounded),
    writeEntries first entries b = b.write (displayEntries first entries)
  | _, [], _ => rfl
  | first, (k, v) :: rest, b => by
    rw [writeEntries]
    split
    · next hfull => rw [Bounded.write_of_full hfull]
    · rw [writeEntries_eq, writeFrom_eq, displayEntries]
      simp only [Bounded.write_append]

end

/-- The text of a value is the whole display if that fits, and otherwise its beginning with the
mark. -/
theorem toList_toText (limit : Nat) (v : Value) :
    (v.toText limit).toList =
      if v.display.length ≤ limit then v.display else v.display.take limit ++ [Text.ellipsis] := by
  rw [toText_eq_close, writeFrom_eq, Bounded.close_write_ofLimit, String.toList_ofList, display]

/-! ### The display of a collection -/

/-- The text of a value that stands in a collection. Strings are quoted there. -/
def nestedText : Value → List Char
  | string s => Text.quoted s
  | v => v.display

/-- The text of an entry of a map. -/
def entryText (entry : String × Value) : List Char :=
  Text.quoted entry.1 ++ [':', ' '] ++ nestedText entry.2

/-- Being nested makes no difference to anything but strings. -/
theorem displayFrom_true (v : Value) : displayFrom true v = nestedText v := by
  cases v with
  | list items =>
    show displayFrom true (list items) = displayFrom false (list items)
    rw [displayFrom, displayFrom]
  | map entries =>
    show displayFrom true (map entries) = displayFrom false (map entries)
    rw [displayFrom, displayFrom]
  | _ => rfl

theorem displayItems_false (items : List Value) :
    displayItems false items = (items.map nestedText).flatMap ([',', ' '] ++ ·) := by
  induction items with
  | nil => rfl
  | cons v rest ih =>
    rw [displayItems, ih, displayFrom_true, List.map_cons, List.flatMap_cons]
    rfl

theorem displayEntries_false (entries : List (String × Value)) :
    displayEntries false entries = (entries.map entryText).flatMap ([',', ' '] ++ ·) := by
  induction entries with
  | nil => rfl
  | cons entry rest ih =>
    obtain ⟨k, v⟩ := entry
    rw [displayEntries, ih, displayFrom_true, List.map_cons, List.flatMap_cons, entryText]
    rfl

/-- A list displays its items with commas between them. -/
theorem display_list (items : List Value) :
    (list items).display = '[' :: ([',', ' '].intercalate (items.map nestedText) ++ [']']) := by
  rw [display, displayFrom]
  cases items with
  | nil => rfl
  | cons v rest =>
    rw [displayItems, displayItems_false, displayFrom_true, List.map_cons, intercalate_cons]
    rfl

/-- A map displays its entries with commas between them. -/
theorem display_map (entries : List (String × Value)) :
    (map entries).display =
      '\x7b' :: ([',', ' '].intercalate (entries.map entryText) ++ ['\x7d']) := by
  rw [display, displayFrom]
  cases entries with
  | nil => rfl
  | cons entry rest =>
    obtain ⟨k, v⟩ := entry
    rw [displayEntries, displayEntries_false, displayFrom_true, List.map_cons, intercalate_cons,
      entryText]
    rfl

/-- **The text of a value.** With a budget of `limit` characters a value writes its whole display if
that has at most so many, and otherwise the first `limit` of them and the mark. The display of a
list or map holds that of each of its elements, as often as there are places in which it stands. -/
theorem toText_cuts_display (limit : Nat) :
    (∀ v : Value, v.toText limit =
      if v.display.length ≤ limit then String.ofList v.display
      else String.ofList (v.display.take limit ++ [Text.ellipsis])) ∧
    (∀ items, (list items).display =
      '[' :: ([',', ' '].intercalate (items.map nestedText) ++ [']'])) ∧
    ∀ entries, (map entries).display =
      '\x7b' :: ([',', ' '].intercalate (entries.map entryText) ++ ['\x7d']) := by
  refine ⟨fun v ↦ ?_, display_list, display_map⟩
  rw [← String.toList_inj, toList_toText, apply_ite String.toList, String.toList_ofList,
    String.toList_ofList]

/-! ### Backticks -/

/-- A cut adds no backtick. -/
theorem backtick_notMem_toText {v : Value} (h : '`' ∉ v.display) (limit : Nat) :
    '`' ∉ (v.toText limit).toList := by
  rw [toList_toText]
  split
  · exact h
  · exact List.not_mem_append (mt List.mem_of_mem_take h) (by decide)

theorem backtick_notMem_display_bool (b : Bool) : '`' ∉ (bool b).display := by
  cases b <;> decide

theorem backtick_notMem_display_int (i : Int64) : '`' ∉ (int i).display := by
  show '`' ∉ (Int.repr i.toInt).toList
  cases i.toInt with
  | ofNat n => exact Decimal.backtick_notMem_repr n
  | negSucc n =>
    rw [Int.repr, String.toList_append]
    exact List.not_mem_append (by decide) (Decimal.backtick_notMem_repr _)

theorem backtick_notMem_display_float (x : Float) : '`' ∉ (float x).display :=
  Decimal.backtick_notMem_textOf x

end Value

end Snippet
