/-!
# Bytes of a text

The places of a source text are numbers of characters. The grammar counts bytes instead, and a text
is cut at bytes, where a character takes between one and four of them. A cut through a character is
refused, so that a text can be cut where one of its characters starts or ends and nowhere else
(`cutAt?_eq_some_iff`). A table leads from each byte back to its character (`Offsets`); it undoes
what a number of characters is in bytes (`Offsets.charAt_byteAt`).
-/

namespace Snippet

/-- How many bytes a text takes. -/
def byteLength (s : List Char) : Nat :=
  (String.ofList s).utf8ByteSize

@[simp]
theorem byteLength_nil : byteLength [] = 0 :=
  rfl

@[simp]
theorem byteLength_append (s t : List Char) :
    byteLength (s ++ t) = byteLength s + byteLength t := by
  rw [byteLength, String.ofList_append, String.utf8ByteSize_append, byteLength, byteLength]

@[simp]
theorem byteLength_cons (c : Char) (s : List Char) :
    byteLength (c :: s) = c.utf8Size + byteLength s := by
  have hone : byteLength [c] = c.utf8Size := by
    rw [byteLength, ← String.singleton_eq_ofList, String.utf8ByteSize_singleton]
  rw [← hone]
  exact byteLength_append [c] s

/-- The byte at which each character of a text starts, if the first one starts at `byte`. -/
def charStarts (byte : Nat) : List Char → List Nat
  | [] => []
  | c :: s => byte :: charStarts (byte + c.utf8Size) s

/-- The byte at which a character starts, by its number. Behind the last one this is the end of the
text. -/
def byteAt (source : List Char) (n : Nat) : Nat :=
  (charStarts 0 source)[n]?.getD (byteLength source)

theorem getElem?_charStarts (byte n : Nat) (s : List Char) :
    (charStarts byte s)[n]? =
      if n < s.length then some (byte + byteLength (s.take n)) else none := by
  induction s generalizing byte n with
  | nil => rfl
  | cons c s ih =>
    cases n with
    | zero => rfl
    | succ n =>
      rw [charStarts, List.getElem?_cons_succ, ih, List.take_succ_cons, byteLength_cons,
        Nat.add_assoc]
      simp only [List.length_cons, Nat.succ_lt_succ_iff]

/-- A character starts behind the bytes of those before it. -/
theorem byteAt_eq (s : List Char) (n : Nat) : byteAt s n = byteLength (s.take n) := by
  rw [byteAt, getElem?_charStarts]
  split
  · exact Nat.zero_add _
  · next hle => rw [List.take_of_length_le (Nat.le_of_not_lt hle), Option.getD_none]

theorem getElem?_charStarts_of_lt {n : Nat} {s : List Char} (h : n < s.length) :
    (charStarts 0 s)[n]? = some (byteAt s n) := by
  rw [getElem?_charStarts, if_pos h, Nat.zero_add, byteAt_eq]

theorem byteAt_le (s : List Char) (n : Nat) : byteAt s n ≤ byteLength s := by
  have hlength := byteLength_append (s.take n) (s.drop n)
  rw [List.take_append_drop] at hlength
  rw [byteAt_eq, hlength]
  exact Nat.le_add_right ..

/-! ### Cuts -/

/-- The parts of a text before and behind its first `n` bytes. There are none if it is shorter, or
if one of its characters is partly before and partly behind. -/
def cutAt? : Nat → List Char → Option (List Char × List Char)
  | 0, s => some ([], s)
  | _ + 1, [] => none
  | n + 1, c :: s =>
    if c.utf8Size ≤ n + 1 then
      (cutAt? (n + 1 - c.utf8Size) s).map fun (before, behind) ↦ (c :: before, behind)
    else none

theorem cutAt?_append (before behind : List Char) :
    cutAt? (byteLength before) (before ++ behind) = some (before, behind) := by
  induction before with
  | nil => rw [byteLength_nil, List.nil_append, cutAt?]
  | cons c before ih =>
    have hpos := c.utf8Size_pos
    obtain ⟨n, hn⟩ : ∃ n, c.utf8Size + byteLength before = n + 1 :=
      Nat.exists_eq_add_one.2 (by omega)
    have hrest : n + 1 - c.utf8Size = byteLength before := by omega
    rw [List.cons_append, byteLength_cons, hn, cutAt?, if_pos (by omega), hrest, ih]
    rfl

/-- A cut can be made exactly where a character starts or ends. -/
theorem cutAt?_eq_some_iff {n : Nat} {s before behind : List Char} :
    cutAt? n s = some (before, behind) ↔ s = before ++ behind ∧ byteLength before = n := by
  refine ⟨fun h ↦ ?_, fun ⟨hs, hn⟩ ↦ by rw [hs, ← hn, cutAt?_append]⟩
  fun_induction cutAt? n s generalizing before behind with
  | case1 => cases h; exact ⟨rfl, rfl⟩
  | case2 => cases h
  | case3 n c s hle ih =>
    obtain ⟨⟨before, behind⟩, hcut, heq⟩ := Option.map_eq_some_iff.1 h
    cases heq
    obtain ⟨rfl, hlength⟩ := ih hcut
    exact ⟨rfl, by rw [byteLength_cons, hlength, Nat.add_sub_cancel' hle]⟩
  | case4 => cases h

theorem cutAt?_byteAt (s : List Char) (n : Nat) :
    cutAt? (byteAt s n) s = some (s.take n, s.drop n) :=
  cutAt?_eq_some_iff.2 ⟨(List.take_append_drop n s).symm, (byteAt_eq s n).symm⟩

/-- The text between two bytes, if it can be cut at both of them. -/
def slice? (start stop : Nat) (s : List Char) : Option (List Char) :=
  if start ≤ stop then do
    let (_, rest) ← cutAt? start s
    let (chars, _) ← cutAt? (stop - start) rest
    return chars
  else none

/-- A text can be cut between the starts of two characters. -/
theorem slice?_byteAt {start stop : Nat} (hle : start ≤ stop) (s : List Char) :
    slice? (byteAt s start) (byteAt s stop) s = some ((s.drop start).take (stop - start)) := by
  have hstop : byteAt s stop = byteAt s start + byteAt (s.drop start) (stop - start) := by
    rw [byteAt_eq, byteAt_eq, byteAt_eq, ← byteLength_append, ← List.take_add,
      Nat.add_sub_cancel' hle]
  rw [hstop, slice?, if_pos (Nat.le_add_right ..), cutAt?_byteAt, Nat.add_sub_cancel_left]
  simp only [Option.bind_eq_bind, Option.bind_some, cutAt?_byteAt]
  rfl

/-! ### Offsets -/

/-- The number of the character to which each byte of a text belongs, and behind them the number of
all characters. -/
structure Offsets where
  chars : Array Nat
  size_pos : 0 < chars.size

namespace Offsets

/-- What the table has for a text that starts with character `count`. -/
def entries (count : Nat) : List Char → List Nat
  | [] => [count]
  | c :: s => List.replicate c.utf8Size count ++ entries (count + 1) s

theorem length_entries (count : Nat) (s : List Char) :
    (entries count s).length = byteLength s + 1 := by
  induction s generalizing count with
  | nil => rfl
  | cons c s ih =>
    rw [entries, List.length_append, List.length_replicate, ih, byteLength_cons, Nat.add_assoc]

/-- The table of a text. -/
def ofText (source : List Char) : Offsets where
  chars := (entries 0 source).toArray
  size_pos := by
    rw [List.size_toArray, length_entries]
    exact Nat.succ_pos _

/-- The character of a byte. All bytes behind the text count as its end. -/
def charAt (o : Offsets) (byte : Nat) : Nat :=
  have := o.size_pos
  o.chars[min byte (o.chars.size - 1)]

/-- Behind the entries of the first characters are those of the others. -/
theorem getElem?_entries (count : Nat) (before behind : List Char) (k : Nat) :
    (entries count (before ++ behind))[byteLength before + k]? =
      (entries (count + before.length) behind)[k]? := by
  induction before generalizing count with
  | nil => rw [byteLength_nil, Nat.zero_add, List.nil_append, List.length_nil, Nat.add_zero]
  | cons c before ih =>
    have hle : (List.replicate c.utf8Size count).length ≤
        c.utf8Size + (byteLength before + k) := by
      rw [List.length_replicate]
      exact Nat.le_add_right ..
    rw [byteLength_cons, Nat.add_assoc, List.cons_append, entries, List.getElem?_append_right hle,
      List.length_replicate, Nat.add_sub_cancel_left, ih, List.length_cons, Nat.add_right_comm,
      Nat.add_assoc]

theorem charAt_of_getElem? {source : List Char} {byte n : Nat}
    (h : (entries 0 source)[min byte (byteLength source)]? = some n) :
    (ofText source).charAt byte = n := by
  have hsize : (entries 0 source).toArray.size - 1 = byteLength source := by
    rw [List.size_toArray, length_entries, Nat.add_sub_cancel]
  obtain ⟨hlt, rfl⟩ := List.getElem?_eq_some_iff.1 h
  simp only [charAt, ofText, hsize, List.getElem_toArray]

/-- Every byte of a character leads to this character. -/
theorem charAt_ofText (before : List Char) (c : Char) (behind : List Char) {k : Nat}
    (hk : k < c.utf8Size) :
    (ofText (before ++ c :: behind)).charAt (byteLength before + k) = before.length := by
  have hle : byteLength before + k ≤ byteLength (before ++ c :: behind) := by
    rw [byteLength_append, byteLength_cons]
    omega
  refine charAt_of_getElem? ?_
  rw [Nat.min_eq_left hle, getElem?_entries, Nat.zero_add, entries, List.getElem?_append_left]
  · exact List.getElem?_replicate_of_lt hk
  · rwa [List.length_replicate]

/-- Every place behind the text leads to its end. -/
theorem charAt_of_le {source : List Char} {byte : Nat} (h : byteLength source ≤ byte) :
    (ofText source).charAt byte = source.length := by
  have hend := getElem?_entries 0 source [] 0
  rw [List.append_nil, Nat.add_zero, Nat.zero_add] at hend
  refine charAt_of_getElem? ?_
  rw [Nat.min_eq_right h, hend]
  rfl

/-- The table undoes what the number of a character is in bytes. -/
theorem charAt_byteAt {source : List Char} {n : Nat} (h : n ≤ source.length) :
    (ofText source).charAt (byteAt source n) = n := by
  rw [byteAt_eq]
  rcases Nat.lt_or_eq_of_le h with hlt | rfl
  · have hsplit : source = source.take n ++ source[n] :: source.drop (n + 1) := by
      rw [← List.drop_eq_getElem_cons hlt, List.take_append_drop]
    have hchar := charAt_ofText (source.take n) source[n] (source.drop (n + 1)) (k := 0)
      (Char.utf8Size_pos _)
    rwa [← hsplit, Nat.add_zero, List.length_take, Nat.min_eq_left h] at hchar
  · rw [List.take_length]
    exact charAt_of_le (Nat.le_refl _)

end Offsets

end Snippet
