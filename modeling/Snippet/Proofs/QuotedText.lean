import Snippet.Proofs.StringBodies
import Snippet.Text.Quoted

/-!
# What quoted text says

A character in a quoted text is written in one of three ways (`escapeChar_cases`). No escape is the
beginning of another one, so a text can be told from its quoted form (`quoted_inj`). This form is
one string token of the script language, and so its closing quote can be told from the quotes in the
text (`lexeme_quoted`). Where no character is written by its number, it is a literal of that
language for the text (`spells_quoted`).
-/

namespace Snippet

namespace Text

open Script

/-! ### Numbers in hexadecimal digits -/

/-- The characters of hexadecimal numbers. -/
theorem exists_digitChar {n : Nat} {c : Char} (h : c ∈ Nat.toDigits 16 n) :
    ∃ d < 16, c = d.digitChar := by
  induction n using Nat.strongRecOn with
  | ind n ih =>
    rw [Nat.toDigits_eq_if (by decide)] at h
    split at h
    · next hlt => exact ⟨n, hlt, List.mem_singleton.1 h⟩
    · rcases List.mem_append.1 h with h | h
      · exact ih _ (by omega) h
      · exact ⟨n % 16, Nat.mod_lt _ (by decide), List.mem_singleton.1 h⟩

theorem digitChar_inj : ∀ a < 16, ∀ b < 16, a.digitChar = b.digitChar → a = b := by
  decide

theorem toDigits_inj {m n : Nat} (h : Nat.toDigits 16 m = Nat.toDigits 16 n) : m = n := by
  have hlonger {k : Nat} {c d : Char} : [c] ≠ Nat.toDigits 16 k ++ [d] := by
    intro h
    rcases List.append_eq_singleton_iff.1 h.symm with ⟨hnil, -⟩ | ⟨-, hnil⟩
    · exact Nat.toDigits_ne_nil hnil
    · cases hnil
  induction m using Nat.strongRecOn generalizing n with
  | ind m ih =>
    rw [Nat.toDigits_eq_if (by decide), Nat.toDigits_eq_if (n := n) (by decide)] at h
    split at h <;> split at h
    · next hm hn => exact digitChar_inj m hm n hn (List.cons.inj h).1
    · exact absurd h hlonger
    · exact absurd h.symm hlonger
    · obtain ⟨hfront, hend⟩ := List.append_inj' h rfl
      have hdiv := ih (m / 16) (by omega) hfront
      have hmod := digitChar_inj _ (Nat.mod_lt m (by decide)) _ (Nat.mod_lt n (by decide))
        (List.cons.inj hend).1
      omega

/-! ### Escapes -/

/-- Three ways in which a character is written: as it is, by a letter, and by its number. -/
theorem escapeChar_cases (c : Char) :
    (escapeChar c = [c] ∧ c ≠ '"' ∧ c ≠ '\\') ∨
      (∃ letter, escapeChar c = ['\\', letter] ∧ (letter, c) ∈ escapes) ∨
        escapeChar c = codeEscape c := by
  unfold escapeChar
  split
  case h_7 hslash hquote =>
    split
    · exact .inr (.inr rfl)
    · exact .inl ⟨rfl, hquote, hslash⟩
  all_goals exact .inr (.inl ⟨_, rfl, by decide⟩)

/-- No letter behind a backslash stands for two characters, and none announces a number. -/
theorem escapes_inj : ∀ e ∈ escapes, e.1 ≠ 'u' ∧ ∀ e' ∈ escapes, e.1 = e'.1 → e = e' := by
  decide

/-- The digits of a number are none of the characters that are written around them. -/
theorem ne_of_mem_toDigits {n : Nat} {c : Char} (h : c ∈ Nat.toDigits 16 n) :
    c ≠ '"' ∧ c ≠ '\\' ∧ c ≠ '\x7d' := by
  obtain ⟨d, hd, rfl⟩ := exists_digitChar h
  have hother : ∀ d < 16, Nat.digitChar d ≠ '"' ∧ Nat.digitChar d ≠ '\\' ∧
      Nat.digitChar d ≠ '\x7d' := by
    decide
  exact hother d hd

/-- A number ends with its brace. -/
theorem codeEscape_append_inj {c d : Char} {s t : List Char}
    (h : codeEscape c ++ s = codeEscape d ++ t) : c = d ∧ s = t := by
  simp only [codeEscape, List.cons_append, List.append_assoc, List.nil_append, List.cons.injEq,
    true_and] at h
  have hend {m n : Nat} {more s t : List Char} (hm : Nat.toDigits 16 m = Nat.toDigits 16 n ++ more)
      (hmore : '\x7d' :: t = more ++ '\x7d' :: s) : m = n ∧ s = t := by
    cases more with
    | nil =>
      rw [List.append_nil] at hm
      exact ⟨toDigits_inj hm, (List.cons.inj hmore).2.symm⟩
    | cons brace more =>
      have hbrace : brace ∈ Nat.toDigits 16 m :=
        hm ▸ List.mem_append_right _ (List.mem_cons_self ..)
      exact absurd (List.cons.inj hmore).1.symm (ne_of_mem_toDigits hbrace).2.2
  rcases List.append_eq_append_iff.1 h with ⟨more, hmore, hrest⟩ | ⟨more, hmore, hrest⟩
  · obtain ⟨hcode, htail⟩ := hend hmore hrest
    exact ⟨Char.toNat_inj.1 hcode.symm, htail.symm⟩
  · obtain ⟨hcode, htail⟩ := hend hmore hrest
    exact ⟨Char.toNat_inj.1 hcode, htail⟩

/-- No escape is the beginning of another one. -/
theorem escapeChar_append_inj {c d : Char} {s t : List Char}
    (h : escapeChar c ++ s = escapeChar d ++ t) : c = d ∧ s = t := by
  rcases escapeChar_cases c with ⟨hc, -, hslash⟩ | ⟨letter, hc, hletter⟩ | hc <;>
    rcases escapeChar_cases d with ⟨hd, -, hslash'⟩ | ⟨letter', hd, hletter'⟩ | hd <;>
    rw [hc, hd] at h
  · exact List.cons.inj h
  · exact absurd (List.cons.inj h).1 hslash
  · exact absurd (List.cons.inj h).1 hslash
  · exact absurd (List.cons.inj h).1.symm hslash'
  · obtain ⟨hsame, hrest⟩ := List.cons.inj (List.cons.inj h).2
    have heq := (escapes_inj _ hletter).2 _ hletter' hsame
    exact ⟨congrArg Prod.snd heq, hrest⟩
  · exact absurd (List.cons.inj (List.cons.inj h).2).1 (escapes_inj _ hletter).1
  · exact absurd (List.cons.inj h).1.symm hslash'
  · exact absurd (List.cons.inj (List.cons.inj h).2).1.symm (escapes_inj _ hletter').1
  · exact codeEscape_append_inj h

theorem flatMap_escapeChar_inj {s t : List Char}
    (h : s.flatMap escapeChar = t.flatMap escapeChar) : s = t := by
  have hpos (c : Char) : escapeChar c ≠ [] := by
    rcases escapeChar_cases c with ⟨hc, -⟩ | ⟨_, hc, -⟩ | hc <;> rw [hc]
    all_goals exact List.cons_ne_nil _ _
  induction s generalizing t with
  | nil =>
    cases t with
    | nil => rfl
    | cons d t => exact absurd (List.append_eq_nil_iff.1 h.symm).1 (hpos d)
  | cons c s ih =>
    cases t with
    | nil => exact absurd (List.append_eq_nil_iff.1 h).1 (hpos c)
    | cons d t =>
      obtain ⟨rfl, hrest⟩ := escapeChar_append_inj h
      rw [ih hrest]

/-- **Texts that are quoted alike are the same.** -/
theorem quoted_inj {s t : String} (h : quoted s = quoted t) : s = t :=
  String.toList_inj.1 (flatMap_escapeChar_inj (List.append_inj' (List.cons.inj h).2 rfl).1)

/-! ### Literals -/

/-- Quotes and backslashes stand behind a backslash. -/
theorem quotedBody_flatMap (s : List Char) : QuotedBody (s.flatMap escapeChar) := by
  have hplain {chars body : List Char} (hchars : ∀ c ∈ chars, c ≠ '"' ∧ c ≠ '\\')
      (hbody : QuotedBody body) : QuotedBody (chars ++ body) := by
    induction chars with
    | nil => exact hbody
    | cons c chars ih =>
      obtain ⟨⟨hquote, hslash⟩, hrest⟩ := List.forall_mem_cons.1 hchars
      exact .plain hquote hslash (ih hrest)
  induction s with
  | nil => exact .nil
  | cons c s ih =>
    rw [List.flatMap_cons]
    rcases escapeChar_cases c with ⟨hc, hquote, hslash⟩ | ⟨letter, hc, -⟩ | hc <;> rw [hc]
    · exact .plain hquote hslash ih
    · exact .pair ih
    · have hnumber : QuotedBody
          ('\x7b' :: (Nat.toDigits 16 c.toNat ++ '\x7d' :: s.flatMap escapeChar)) :=
        .plain (by decide) (by decide) (hplain
          (fun d hd ↦ ⟨(ne_of_mem_toDigits hd).1, (ne_of_mem_toDigits hd).2.1⟩)
          (.plain (by decide) (by decide) ih))
      rw [codeEscape, List.cons_append, List.cons_append, List.cons_append, List.append_assoc]
      exact .pair hnumber

/-- A quoted text is one string token, whatever stands behind it. -/
theorem lexeme_quoted (s : String) (tail : List Char) :
    Lexeme.quoted (quoted s ++ tail) = some (quoted s).length := by
  simpa [quoted] using (quotedBody_flatMap s.toList).quoted tail

/-- A text without characters that are written by their numbers is spelled by what stands between
its quotes. -/
theorem spells_quoted {s : List Char} (h : ∀ c ∈ s, escapeChar c ≠ codeEscape c) :
    Spells (s.flatMap escapeChar) s := by
  induction s with
  | nil => exact .nil
  | cons c s ih =>
    obtain ⟨hc, hrest⟩ := List.forall_mem_cons.1 h
    rw [List.flatMap_cons]
    rcases escapeChar_cases c with ⟨heq, hquote, hslash⟩ | ⟨letter, heq, hletter⟩ | heq
    · rw [heq]
      exact .plain hquote hslash (ih hrest)
    · rw [heq]
      exact .escape hletter (ih hrest)
    · exact absurd heq hc

end Text

end Snippet
