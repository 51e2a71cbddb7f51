import Snippet.Text.Shorten

/-!
# Text with a budget

A text that is written piece by piece and stops at a number of characters. Once a character has
been refused nothing more is taken, and the text ends in the mark for a missing end.

Writing two pieces is writing them joined (`write_append`), so a writer over a tree need not build
the text of the tree; it may stop as soon as the budget is spent (`write_of_full`). What comes out
is the text, or its first characters and the mark (`close_write_ofLimit`).
-/

namespace Snippet.Text

/-- A text under construction. -/
structure Bounded where
  /-- The characters taken so far, newest first. -/
  kept : List Char
  /-- How many more will be taken. -/
  room : Nat
  /-- Whether a character has been refused. -/
  full : Bool
  deriving DecidableEq, Repr, Inhabited

namespace Bounded

/-- The empty text with room for `limit` characters. -/
def ofLimit (limit : Nat) : Bounded :=
  ⟨[], limit, false⟩

/-- Takes a character, unless one was refused before or there is no room. -/
def put (b : Bounded) (c : Char) : Bounded :=
  if b.full then b
  else if b.room = 0 then { b with full := true }
  else ⟨c :: b.kept, b.room - 1, false⟩

/-- Takes characters one after the other. -/
def write (b : Bounded) (s : List Char) : Bounded :=
  s.foldl put b

/-- The finished text. -/
def close (b : Bounded) : String :=
  String.ofList (if b.full then (ellipsis :: b.kept).reverse else b.kept.reverse)

@[simp]
theorem write_nil (b : Bounded) : b.write [] = b :=
  rfl

@[simp]
theorem write_cons (b : Bounded) (c : Char) (s : List Char) :
    b.write (c :: s) = (b.put c).write s :=
  rfl

@[simp]
theorem write_append (b : Bounded) (s t : List Char) :
    b.write (s ++ t) = (b.write s).write t :=
  List.foldl_append

/-- A full text takes nothing more. -/
theorem write_of_full {b : Bounded} (h : b.full = true) (s : List Char) : b.write s = b := by
  induction s with
  | nil => rfl
  | cons c s ih => simp [put, h, ih]

/-- What is written up to the end of the room is kept; the rest is refused. -/
theorem write_of_not_full {b : Bounded} (h : b.full = false) (s : List Char) :
    b.write s =
      ⟨(s.take b.room).reverse ++ b.kept, b.room - s.length, decide (b.room < s.length)⟩ := by
  induction s generalizing b with
  | nil =>
    obtain ⟨kept, room, full⟩ := b
    simp_all
  | cons c s ih =>
    obtain ⟨kept, room, full⟩ := b
    cases room with
    | zero =>
      cases h
      rw [write_cons, show (⟨kept, 0, false⟩ : Bounded).put c = ⟨kept, 0, true⟩ from rfl,
        write_of_full rfl]
      simp
    | succ room =>
      rw [write_cons, ih (by simp_all [put])]
      simp_all [put]

/-- A text that fits is finished as it is, and of a longer one what fits, with the mark. -/
theorem close_write_ofLimit (s : List Char) (limit : Nat) :
    ((ofLimit limit).write s).close =
      String.ofList (if s.length ≤ limit then s else s.take limit ++ [ellipsis]) := by
  rw [write_of_not_full rfl]
  by_cases h : s.length ≤ limit
  · simp [close, ofLimit, h, Nat.not_lt.mpr h, List.take_of_length_le h]
  · simp [close, ofLimit, h, Nat.lt_of_not_le h]

end Bounded

end Snippet.Text
