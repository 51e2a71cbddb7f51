import Snippet.Script.Parse

/-!
# Between double quotes

A string body ends at the first double quote without a backslash in front of it, where every
backslash takes the character behind it along. Three functions go over such a body, each on its own:
the bracket guard, the lexeme of strings and the reader of escapes. They agree on where it ends
(`QuotedBody.closeQuote`,
`QuotedBody.excessBracket?`), and on a body that spells a string the last
one answers with this string (`Spells.unescape_append`).
-/

namespace Snippet.Script

/-- What can stand between double quotes: every double quote is behind a backslash, and no backslash
is the last character. -/
inductive QuotedBody : List Char → Prop
  | nil : QuotedBody []
  | plain {c body} (hquote : c ≠ '"') (hslash : c ≠ '\\') (h : QuotedBody body) :
    QuotedBody (c :: body)
  | pair {c body} (h : QuotedBody body) : QuotedBody ('\\' :: c :: body)

/-- The characters that may stand behind a backslash, each with the one that the two stand for. -/
def escapes : List (Char × Char) :=
  [('\\', '\\'), ('"', '"'), ('n', '\n'), ('t', '\t'), ('r', '\r'), ('0', '\x00'), ('\'', '\'')]

/-- A body and the string that it spells. Double quotes and backslashes are escaped; other
characters with an escape may be. -/
inductive Spells : List Char → List Char → Prop
  | nil : Spells [] []
  | plain {c body s} (hquote : c ≠ '"') (hslash : c ≠ '\\') (h : Spells body s) :
    Spells (c :: body) (c :: s)
  | escape {c e body s} (he : (c, e) ∈ escapes) (h : Spells body s) :
    Spells ('\\' :: c :: body) (e :: s)

/-! ### The end of a body -/

theorem closeQuote_cons {c : Char} (hquote : c ≠ '"') (hslash : c ≠ '\\') (s : List Char) :
    Lexeme.closeQuote (c :: s) = (Lexeme.closeQuote s).map (· + 1) := by
  rw [Lexeme.closeQuote]
  · exact hquote
  · exact fun _ _ h ↦ absurd h hslash
  · exact fun h ↦ absurd h hslash

/-- A body ends with the double quote behind it. -/
theorem QuotedBody.closeQuote {body : List Char} (h : QuotedBody body) (tail : List Char) :
    Lexeme.closeQuote (body ++ '"' :: tail) = some (body.length + 1) := by
  induction h with
  | nil => rfl
  | plain hquote hslash _ ih => rw [List.cons_append, closeQuote_cons hquote hslash, ih]; rfl
  | pair _ ih => simp [Lexeme.closeQuote, ih]

/-- A string is one token, whatever stands behind it. -/
theorem QuotedBody.quoted {body : List Char} (h : QuotedBody body) (tail : List Char) :
    Lexeme.quoted ('"' :: (body ++ '"' :: tail)) = some (body.length + 2) := by
  rw [Lexeme.quoted, h.closeQuote tail]
  rfl

/-- A text with a body between its quotes is that body in quotes. -/
theorem eq_of_quotedBody? {text body : List Char} (h : quotedBody? text = some body) :
    text = '"' :: (body ++ ['"']) := by
  unfold quotedBody? at h
  split at h
  · split at h
    · next hlast =>
      obtain ⟨front, rfl⟩ := List.getLast?_eq_some_iff.1 hlast
      cases h
      rw [List.dropLast_concat]
    · cases h
  · cases h

/-- What ends with a double quote has a body in front of it. -/
theorem exists_quotedBody {s : List Char} {n : Nat} (h : Lexeme.closeQuote s = some n) :
    ∃ body tail, QuotedBody body ∧ s = body ++ '"' :: tail ∧ n = body.length + 1 := by
  fun_induction Lexeme.closeQuote s generalizing n with
  | case1 => cases h
  | case2 tail => cases h; exact ⟨[], tail, .nil, rfl, rfl⟩
  | case3 c s ih =>
    obtain ⟨m, hm, rfl⟩ := Option.map_eq_some_iff.1 h
    obtain ⟨body, tail, hbody, rfl, rfl⟩ := ih hm
    exact ⟨'\\' :: c :: body, tail, .pair hbody, rfl, rfl⟩
  | case4 => cases h
  | case5 c s hquote hslash hslash' ih =>
    obtain ⟨m, hm, rfl⟩ := Option.map_eq_some_iff.1 h
    obtain ⟨body, tail, hbody, rfl, rfl⟩ := ih hm
    have hne : c ≠ '\\' := by
      rintro rfl
      cases body with
      | nil => exact hslash '"' tail rfl rfl
      | cons d body => exact hslash d _ rfl rfl
    exact ⟨c :: body, tail, .plain hquote hne hbody, rfl, rfl⟩

/-- The guard is outside of the quotes again behind a body and its closing quote. -/
theorem QuotedBody.excessBracket? {body : List Char} (h : QuotedBody body)
    (limit place depth : Nat) (tail : List Char) :
    excessBracket? limit place depth .inside (body ++ '"' :: tail) =
      excessBracket? limit (place + (body.length + 1)) depth .outside tail := by
  induction h generalizing place with
  | nil => rfl
  | @plain c body hquote hslash _ ih =>
    rw [List.cons_append, Script.excessBracket?]
    simp only [if_neg hslash, if_neg hquote, ih (place + 1), List.length_cons]
    rw [Nat.add_right_comm, Nat.add_assoc, Nat.add_assoc]
  | @pair c body _ ih =>
    rw [List.cons_append, List.cons_append, Script.excessBracket?]
    simp only [if_true, Script.excessBracket?, ih (place + 1 + 1), List.length_cons]
    rw [Nat.add_assoc place, Nat.add_assoc place, Nat.add_comm (1 + 1)]

/-! ### Escapes -/

theorem escape?_eq_some_iff {c e : Char} : escape? c = some e ↔ (c, e) ∈ escapes := by
  unfold escape?
  split
  case h_8 => simp_all [escapes]
  all_goals simp [escapes, eq_comm]

theorem Spells.quotedBody {body s : List Char} (h : Spells body s) : QuotedBody body := by
  induction h with
  | nil => exact .nil
  | plain hquote hslash _ ih => exact .plain hquote hslash ih
  | escape _ _ ih => exact .pair ih

theorem unescape_cons {c : Char} (hslash : c ≠ '\\') (place : Nat) (body : List Char) :
    unescape place (c :: body) = (unescape (place + 1) body).map (c :: ·) := by
  rw [unescape]
  · exact fun _ _ h ↦ absurd h hslash
  · exact fun h ↦ absurd h hslash

/-- Reading the escapes of a body that spells a string gives the string, up to where the body goes
on in another way. -/
theorem Spells.unescape_append {front s : List Char} (h : Spells front s) (place : Nat)
    (tail : List Char) :
    unescape place (front ++ tail) =
      (unescape (place + front.length) tail).map (s ++ ·) := by
  induction h generalizing place with
  | nil =>
    show unescape place tail = _
    cases unescape place tail <;> rfl
  | @plain c body s hquote hslash _ ih =>
    rw [List.cons_append, unescape_cons hslash, ih (place + 1), List.length_cons]
    rw [Nat.add_right_comm, Nat.add_assoc]
    cases unescape _ tail <;> rfl
  | @escape c e body s he _ ih =>
    rw [List.cons_append, List.cons_append, unescape, escape?_eq_some_iff.2 he]
    simp only [ih (place + 2), List.length_cons]
    rw [Nat.add_assoc place, Nat.add_comm 2]
    cases unescape _ tail <;> rfl

theorem Spells.unescape {body s : List Char} (h : Spells body s) (place : Nat) :
    unescape place body = .ok s := by
  have hbody := h.unescape_append place []
  rwa [List.append_nil, Script.unescape, Except.map, List.append_nil] at hbody

/-- A body spells a string, or it has a first backslash with another character behind it. -/
theorem QuotedBody.spells_or {body : List Char} (h : QuotedBody body) : (∃ s, Spells body s) ∨
    ∃ front s c rest, body = front ++ '\\' :: c :: rest ∧ Spells front s ∧
      ∀ e, (c, e) ∉ escapes := by
  induction h with
  | nil => exact .inl ⟨[], .nil⟩
  | @plain c body hquote hslash _ ih =>
    rcases ih with ⟨s, hs⟩ | ⟨front, s, d, rest, rfl, hs, hd⟩
    · exact .inl ⟨c :: s, .plain hquote hslash hs⟩
    · exact .inr ⟨c :: front, c :: s, d, rest, rfl, .plain hquote hslash hs, hd⟩
  | @pair c body _ ih =>
    by_cases hc : ∃ e, (c, e) ∈ escapes
    · obtain ⟨e, he⟩ := hc
      rcases ih with ⟨s, hs⟩ | ⟨front, s, d, rest, rfl, hs, hd⟩
      · exact .inl ⟨e :: s, .escape he hs⟩
      · exact .inr ⟨'\\' :: c :: front, e :: s, d, rest, rfl, .escape he hs, hd⟩
    · exact .inr ⟨[], [], c, body, rfl, .nil, not_exists.1 hc⟩

end Snippet.Script
