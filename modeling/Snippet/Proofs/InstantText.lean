import Mathlib.Algebra.Group.Nat.Defs
import Mathlib.Data.List.Basic
import Snippet.Proofs.CalendarDates

/-!
# The written form of an instant

An instant is read back from its date and time (`ofText?_text`), whatever its year and however many
digits the part of its second has. Each part is read from its own digits: leading zeros count for
nothing (`number_padded`), and what stands behind the digits ends them. The fraction is read to nine
places, so that the zeros left out behind it are put back (`fraction?_fractionText`).
-/

namespace Snippet.Instant

/-! ### Digits -/

section Digits

variable {digits rest : List Char} {n width : Nat}

theorem number_append (digits digits' : List Char) :
    number (digits ++ digits') = Nat.ofDigitChars 10 digits' (number digits) :=
  Nat.ofDigitChars_append 0

/-- Zeros in front count for nothing. -/
theorem number_replicate_append (count : Nat) (digits : List Char) :
    number (List.replicate count '0' ++ digits) = number digits := by
  induction count with
  | zero => rfl
  | succ count ih => exact ih

/-- Zeros behind count for a power of ten. -/
theorem number_append_replicate (digits : List Char) (count : Nat) :
    number (digits ++ List.replicate count '0') = number digits * 10 ^ count := by
  induction count generalizing digits with
  | zero => rw [List.replicate_zero, List.append_nil, Nat.pow_zero, Nat.mul_one]
  | succ count ih =>
    have hzero : number (digits ++ ['0']) = number digits * 10 := by
      rw [number_append, Nat.mul_comm]
      rfl
    rw [List.replicate_succ, List.append_cons, ih, hzero, Nat.mul_assoc, Nat.pow_succ']

theorem number_padded (width n : Nat) : number (padded width n) = n := by
  rw [padded, number_replicate_append, Nat.toList_repr]
  exact Nat.ofDigitChars_ten_toDigits

theorem isDigit_of_mem_padded {c : Char} (h : c ∈ padded width n) : c.isDigit = true := by
  obtain h | h := List.mem_append.1 h
  · rw [List.eq_of_mem_replicate h]
    rfl
  · rw [Nat.toList_repr] at h
    exact Nat.isDigit_of_mem_toDigits (by decide) (by decide) h

theorem le_length_padded (width n : Nat) : width ≤ (padded width n).length := by
  rw [padded, List.length_append, List.length_replicate]
  omega

theorem length_padded (hwidth : 0 < width) (h : n < 10 ^ width) :
    (padded width n).length = width := by
  have hle : (Nat.repr n).toList.length ≤ width := by
    rw [Nat.toList_repr]
    exact (Nat.length_toDigits_le_iff (by decide) hwidth).2 h
  rw [padded, List.length_append, List.length_replicate]
  omega

theorem takeWhile_padded {c : Char} (hc : c.isDigit = false) (width n : Nat) (rest : List Char) :
    (padded width n ++ c :: rest).takeWhile Char.isDigit = padded width n := by
  rw [List.takeWhile_append_of_pos fun _ ↦ isDigit_of_mem_padded,
    List.takeWhile_cons_of_neg (Bool.eq_false_iff.1 hc), List.append_nil]

theorem dropWhile_padded {c : Char} (hc : c.isDigit = false) (width n : Nat) (rest : List Char) :
    (padded width n ++ c :: rest).dropWhile Char.isDigit = c :: rest := by
  rw [List.dropWhile_append_of_pos fun _ ↦ isDigit_of_mem_padded,
    List.dropWhile_cons_of_neg (Bool.eq_false_iff.1 hc)]

theorem exists_cons_padded (n : Nat) (hwidth : 0 < width) :
    ∃ c digits, padded width n = c :: digits ∧ c.isDigit = true := by
  obtain ⟨c, digits, hdigits⟩ := List.exists_cons_of_length_pos
    (Nat.lt_of_lt_of_le hwidth (le_length_padded width n))
  exact ⟨c, digits, hdigits, isDigit_of_mem_padded (hdigits ▸ List.mem_cons_self)⟩

/-- A number below a hundred has two digits, that tell it. -/
theorem exists_padded_two (h : n < 100) :
    ∃ a b, padded 2 n = [a, b] ∧ a.isDigit = true ∧ b.isDigit = true ∧ number [a, b] = n := by
  have hlength : (padded 2 n).length = 2 := length_padded (by decide) h
  obtain ⟨a, b, hab⟩ := List.length_eq_two.1 hlength
  have hdigit {c : Char} (hc : c ∈ [a, b]) : c.isDigit = true := isDigit_of_mem_padded (hab ▸ hc)
  exact ⟨a, b, hab, hdigit (.head _), hdigit (.tail _ (.head _)), hab ▸ number_padded 2 n⟩

end Digits

/-! ### Parts -/

theorem twoDigits?_padded (mark : Char) {n : Nat} (h : n < 100) (rest : List Char) :
    twoDigits? mark (padded 2 n ++ mark :: rest) = some (n, rest) := by
  obtain ⟨a, b, hab, ha, hb, hn⟩ := exists_padded_two h
  rw [hab]
  show (if a.isDigit ∧ b.isDigit ∧ mark = mark then some (number [a, b], rest) else none) = _
  rw [if_pos ⟨ha, hb, rfl⟩, hn]

/-- A year has a sign exactly if it is outside of what four digits have room for. -/
theorem sign_yearText_iff (year : Int) :
    (∃ c ∈ (yearText year).head?, c = '+' ∨ c = '-') ↔ year < 0 ∨ 9999 < year := by
  rw [yearText]
  split
  · next hyear =>
    obtain ⟨c, digits, hdigits, hc⟩ := exists_cons_padded year.toNat (by decide : 0 < 4)
    rw [hdigits]
    refine iff_of_false ?_ (by omega)
    rintro ⟨_, ⟨⟩, rfl | rfl⟩ <;> exact absurd hc (by decide)
  · next hyear =>
    refine iff_of_true ⟨_, rfl, ?_⟩ (by omega)
    split
    · exact .inr rfl
    · exact .inl rfl

/-- The digits of a year are read up to the hyphen behind them. -/
theorem year?_of_digits {s : List Char} (n : Nat) (rest : List Char)
    (h : (if s.head? = some '-' ∨ s.head? = some '+' then s.drop 1 else s) =
      padded 4 n ++ '-' :: rest) :
    year? s = some (if s.head? = some '-' then -(n : Int) else n, rest) := by
  have hlength := le_length_padded 4 n
  simp only [year?, beq_iff_eq, h, takeWhile_padded (by decide : '-'.isDigit = false),
    dropWhile_padded (by decide : '-'.isDigit = false), number_padded]
  rw [if_neg (by omega)]

/-- A year is read with its sign. -/
theorem year?_yearText (year : Int) (rest : List Char) :
    year? (yearText year ++ '-' :: rest) = some (year, rest) := by
  rw [yearText]
  split
  · next hyear =>
    obtain ⟨c, digits, hdigits, hc⟩ := exists_cons_padded year.toNat (by decide : 0 < 4)
    have hhead : (padded 4 year.toNat ++ '-' :: rest).head? = some c := by
      rw [hdigits]
      rfl
    have hne {sign : Char} (hsign : sign.isDigit = false) : some c ≠ some sign :=
      fun h ↦ Bool.false_ne_true (hsign.symm.trans (Option.some.inj h ▸ hc))
    rw [year?_of_digits year.toNat rest, hhead, if_neg (hne rfl)]
    · rw [Int.toNat_of_nonneg hyear.1]
    · rw [hhead, if_neg (not_or.2 ⟨hne rfl, hne rfl⟩)]
  · split
    · rw [year?_of_digits year.natAbs rest]
      · simp only [List.cons_append, List.head?_cons, if_pos]
        congr 2
        omega
      · rfl
    · rw [year?_of_digits year.natAbs rest]
      · simp
        omega
      · rfl

/-- The part of a second is read to nine places. -/
theorem fraction?_padded {width n : Nat} (hwidth : 0 < width) (hle : width ≤ 9)
    (h : n < 10 ^ width) :
    fraction? ('.' :: padded width n ++ ['Z']) = some (Fin.ofNat _ (n * 10 ^ (9 - width))) := by
  have hlength := length_padded hwidth h
  have hne : padded width n ≠ [] := List.ne_nil_of_length_pos (by omega)
  have htake : (padded width n ++ List.replicate 9 '0').take 9 =
      padded width n ++ List.replicate (9 - width) '0' := by
    rw [List.take_append, List.take_of_length_le (by omega), List.take_replicate, hlength]
    congr 2
    omega
  rw [List.cons_append, fraction?]
  simp only [takeWhile_padded (by decide : 'Z'.isDigit = false),
    dropWhile_padded (by decide : 'Z'.isDigit = false)]
  rw [htake, number_append_replicate, number_padded]

/-- The zeros left out behind the part of a second are put back. -/
theorem fraction?_fractionText (nanos : Fin 1000000000) :
    fraction? (fractionText nanos ++ ['Z']) = some nanos := by
  have hlt := nanos.isLt
  have hfin {n : Nat} (h : n = nanos.val) : Fin.ofNat 1000000000 n = nanos := by
    rw [h]
    exact Fin.ofNat_val_eq_self nanos
  rw [fractionText]
  split
  · next hzero => exact congrArg some (Fin.ext hzero.symm)
  · split
    · rw [fraction?_padded (by decide) (by decide) (by omega), hfin (by omega)]
    · split
      · rw [fraction?_padded (by decide) (by decide) (by omega), hfin (by omega)]
      · rw [fraction?_padded (by decide) (by decide) hlt, hfin (by omega)]

/-- The part of a second has as many digits as it needs, by threes, and a point if it has any. -/
theorem length_fractionText (nanos : Fin 1000000000) :
    (fractionText nanos).length ∈ [0, 4, 7, 10] := by
  have hlt := nanos.isLt
  rw [fractionText]
  split
  · exact .head _
  · split
    · rw [List.length_cons, length_padded (by decide) (by omega)]
      decide
    · split
      · rw [List.length_cons, length_padded (by decide) (by omega)]
        decide
      · rw [List.length_cons, length_padded (by decide) hlt]
        decide

/-- An instant is read back from its written form. -/
theorem ofText?_text (t : Instant) : ofText? t.text = some t := by
  obtain ⟨date, hdate⟩ : ∃ d, d = CalendarDate.ofDays (t.seconds / 86400) := ⟨_, rfl⟩
  obtain ⟨second, hsecond⟩ : ∃ n : Nat, t.seconds % 86400 = n :=
    Int.eq_ofNat_of_zero_le (Int.emod_nonneg _ (by decide))
  obtain ⟨hmonth, hmonth'⟩ := CalendarDate.month_ofDays (t.seconds / 86400)
  obtain ⟨-, hday⟩ := CalendarDate.day_ofDays (t.seconds / 86400)
  have hdays := CalendarDate.toDays_ofDays (t.seconds / 86400)
  rw [← hdate] at hmonth hmonth' hday hdays
  obtain ⟨a, b, hab, ha, hb, hnumber⟩ := exists_padded_two (n := second % 60) (by omega)
  have hmonths := twoDigits?_padded '-' (n := date.month) (by omega)
  have hdaysOfMonth := twoDigits?_padded 'T' (n := date.day) (by omega)
  have hhours := twoDigits?_padded ':' (n := second / 3600) (by omega)
  have hminutes := twoDigits?_padded ':' (n := second / 60 % 60) (by omega)
  rw [ofText?, text, ← hdate]
  simp only [hsecond, Int.toNat_natCast, hab, String.toList_ofList, List.append_assoc,
    List.cons_append, List.nil_append, year?_yearText, Option.bind_eq_bind, Option.bind_some,
    hmonths, hdaysOfMonth, hhours, hminutes, ha, hb, and_self, if_true, fraction?_fractionText,
    hnumber]
  rw [if_neg (by omega), if_neg (by rw [hdays, hdate]; exact not_not_intro rfl)]
  have hseconds : date.toDays * 86400 + (second / 3600 : Nat) * 3600 +
      (second / 60 % 60 : Nat) * 60 + (second % 60 : Nat) = t.seconds := by
    omega
  rw [hseconds]

end Snippet.Instant
