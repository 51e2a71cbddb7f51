import Snippet.Proofs.Derivation
import Snippet.Script.Symbols

/-!
# How far lexemes look

A separator, a slash and a double quote end every token they do not start. No lexeme but that of
strings looks past such a character (`ignoresTail_of_rule`), and what a lexeme takes is there
(`le_length_of_rule`).
-/

namespace Snippet.Script

open Grammar

/-- The characters that only stand at the front of a token, if in one at all. -/
def isHalt (c : Char) : Bool :=
  isSeparator c || c == '/' || c == '"'

/-- Nothing, or a text that starts with a character that ends tokens. -/
def Halted (tail : List Char) : Prop :=
  ∀ c ∈ tail.head?, isHalt c = true

theorem halted_cons_iff {c : Char} {tail : List Char} : Halted (c :: tail) ↔ isHalt c = true := by
  simp [Halted]

/-- A text without characters that end tokens. -/
def Plain (chars : List Char) : Prop :=
  ∀ c ∈ chars, isHalt c = false

instance (chars : List Char) : Decidable (Plain chars) :=
  List.decidableBAll (fun c ↦ isHalt c = false) chars

/-- A character that ends tokens belongs to no word. -/
theorem isWordChar_eq_false {c : Char} (h : isHalt c = true) : isWordChar c = false := by
  simp only [isHalt, isSeparator, Bool.or_eq_true, beq_iff_eq] at h
  rcases h with ((((rfl | rfl) | rfl) | rfl) | rfl) | rfl <;> decide

theorem isWordChar_of_isDigit {c : Char} (h : c.isDigit = true) : isWordChar c = true := by
  simp [isWordChar, Char.isAlphanum, h]

theorem isDigit_eq_false {c : Char} (h : isHalt c = true) : c.isDigit = false := by
  cases hc : c.isDigit
  · rfl
  · simpa [isWordChar_of_isDigit hc] using isWordChar_eq_false h

/-- A lexeme that never looks past the character that ends a token. -/
def IgnoresTail (lexeme : Recogniser) : Prop :=
  ∀ token tail, token ≠ [] → Halted tail → lexeme (token ++ tail) = lexeme token

section Append

variable (token : List Char) {tail : List Char} (htail : Halted tail)
include htail

theorem takeWhile_append_halted {p : Char → Bool} (hp : ∀ c, isHalt c = true → p c = false) :
    (token ++ tail).takeWhile p = token.takeWhile p := by
  induction token with
  | nil =>
    cases tail with
    | nil => rfl
    | cons c tail => simp [hp c (htail c rfl)]
  | cons c token ih =>
    rw [List.cons_append, List.takeWhile_cons, List.takeWhile_cons, ih]

theorem isPrefixOf_append_halted {chars : List Char} (hchars : ∀ c ∈ chars, isHalt c = false) :
    chars.isPrefixOf (token ++ tail) = chars.isPrefixOf token := by
  induction token generalizing chars with
  | nil =>
    cases chars with
    | nil => simp
    | cons c chars =>
      cases tail with
      | nil => rfl
      | cons d tail =>
        have hne : c ≠ d := by
          rintro rfl
          simpa [hchars c (by simp)] using htail c rfl
        simp [List.isPrefixOf, hne]
  | cons d token ih =>
    cases chars with
    | nil => simp
    | cons c chars =>
      rw [List.cons_append, List.isPrefixOf_cons_cons, List.isPrefixOf_cons_cons,
        ih fun c hc ↦ hchars c (List.mem_cons_of_mem _ hc)]

theorem wordAt_append : wordAt (token ++ tail) = wordAt token :=
  takeWhile_append_halted token htail fun _ ↦ isWordChar_eq_false

theorem digits_append :
    spanLength Char.isDigit (token ++ tail) = spanLength Char.isDigit token := by
  rw [spanLength, spanLength, takeWhile_append_halted token htail fun _ ↦ isDigit_eq_false]

end Append

/-- Only the first character of a fixed text may be one that ends tokens. -/
theorem isPrefixOf_append {chars : List Char} (hchars : ∀ c ∈ chars.tail, isHalt c = false)
    {token tail : List Char} (htoken : token ≠ []) (htail : Halted tail) :
    chars.isPrefixOf (token ++ tail) = chars.isPrefixOf token := by
  cases token with
  | nil => exact absurd rfl htoken
  | cons d token =>
    cases chars with
    | nil => simp
    | cons c chars =>
      have hrest := isPrefixOf_append_halted token htail hchars
      rw [List.tail_cons] at hrest
      rw [List.cons_append, List.isPrefixOf_cons_cons, List.isPrefixOf_cons_cons, hrest]

theorem ignoresTail_exactly {lexeme : String} (h : Plain lexeme.toList.tail) :
    IgnoresTail (Lexeme.exactly lexeme) := by
  intro token tail htoken htail
  rw [Lexeme.exactly, isPrefixOf_append h htoken htail, Lexeme.exactly]

theorem ignoresTail_oneOf {lexemes : List String}
    (h : ∀ lexeme ∈ lexemes, Plain lexeme.toList.tail) :
    IgnoresTail (Lexeme.oneOf lexemes) := by
  intro token tail htoken htail
  rw [Lexeme.oneOf, Lexeme.oneOf]
  induction lexemes with
  | nil => rfl
  | cons lexeme lexemes ih =>
    rw [List.findSome?_cons, List.findSome?_cons,
      ignoresTail_exactly (h lexeme (by simp)) token tail htoken htail,
      ih fun l hl ↦ h l (List.mem_cons_of_mem _ hl)]

theorem ignoresTail_word (words : List String) : IgnoresTail (Lexeme.word words) := by
  intro token tail _ htail
  rw [Lexeme.word, Lexeme.word, wordAt_append token htail]

theorem ignoresTail_name : IgnoresTail Lexeme.name := by
  intro token tail _ htail
  rw [Lexeme.name, Lexeme.name, wordAt_append token htail]

theorem ignoresTail_integer : IgnoresTail Lexeme.integer := by
  intro token tail _ htail
  rw [Lexeme.integer, Lexeme.integer, digits_append token htail]

theorem spanLength_le (p : Char → Bool) (s : List Char) : spanLength p s ≤ s.length :=
  (List.takeWhile_prefix p).length_le

/-- The longest front part with a property consists of characters with it. -/
theorem of_mem_take_spanLength {p : Char → Bool} {s : List Char} {c : Char}
    (h : c ∈ s.take (spanLength p s)) : p c = true := by
  rw [spanLength, ← List.prefix_iff_eq_take.1 (List.takeWhile_prefix p)] at h
  exact List.all_eq_true.1 List.all_takeWhile c h

theorem ignoresTail_fraction : IgnoresTail Lexeme.fraction := by
  intro token tail _ htail
  simp only [Lexeme.fraction, digits_append token htail]
  have hle := spanLength_le Char.isDigit token
  generalize spanLength Char.isDigit token = n at hle ⊢
  split
  · rfl
  rw [List.drop_append_of_le_length hle]
  cases token.drop _ with
  | nil =>
    cases tail with
    | nil => rfl
    | cons c tail =>
      have hne : c ≠ '.' := by
        rintro rfl
        exact absurd (htail '.' rfl) (by decide)
      simp [hne]
  | cons c rest =>
    by_cases hc : c = '.'
    · subst hc
      simp only [List.cons_append, digits_append rest htail]
    · simp [hc]

theorem ignoresTail_assignment : IgnoresTail Lexeme.assignment := by
  intro token tail htoken htail
  have hops : IgnoresTail (Lexeme.oneOf ["+=", "-=", "*=", "/="]) := ignoresTail_oneOf (by decide)
  match token with
  | [] => exact absurd rfl htoken
  | [c] =>
    by_cases hc : c = '='
    · subst hc
      cases tail with
      | nil => rfl
      | cons d tail =>
        have hne : d ≠ '=' := by
          rintro rfl
          exact absurd (htail '=' rfl) (by decide)
        simp [Lexeme.assignment, hne]
    · simpa [Lexeme.assignment, hc] using hops [c] tail htoken htail
  | c :: d :: token =>
    by_cases hc : c = '='
    · subst hc
      by_cases hd : d = '='
      · subst hd
        rfl
      · simp [Lexeme.assignment, hd]
    · simpa [Lexeme.assignment, hc] using hops (c :: d :: token) tail htoken htail

theorem ignoresTail_ending : IgnoresTail Lexeme.ending := by
  intro token tail htoken _
  cases token with
  | nil => exact absurd rfl htoken
  | cons c token => rfl

/-- Strings are the only tokens in which characters that end tokens may stand anywhere. -/
theorem ignoresTail_of_rule {symbol : Symbol} {lexeme : Recogniser}
    (h : language.rule symbol = .token lexeme) (hsymbol : symbol ≠ .stringLit) :
    IgnoresTail lexeme := by
  cases symbol <;> cases h
  case stringLit => exact absurd rfl hsymbol
  case floatLit => exact ignoresTail_fraction
  case intLit => exact ignoresTail_integer
  case ident => exact ignoresTail_name
  case assignOp => exact ignoresTail_assignment
  case ending => exact ignoresTail_ending
  case orOp | andOp | semi => exact ignoresTail_exactly (by decide)
  case eqOp | cmpOp | addOp | mulOp | unaryOp => exact ignoresTail_oneOf (by decide)
  all_goals exact ignoresTail_word _

/-! ### Fixed texts -/

/-- The fixed texts of the grammar are plain. -/
theorem plain_of_rule {symbol : Symbol} {body : Pattern Symbol}
    (h : language.rule symbol = .phrase true body) : body.TextsIn Plain := by
  cases symbol <;> cases h <;>
    simp [Pattern.TextsIn, Pattern.all, Pattern.any, Pattern.lit, Symbol.anyStatement,
      Symbol.anyPrimary] <;> decide

/-! ### What a lexeme takes is there -/

section Found

variable {s : List Char} {n : Nat}

theorem exactly_eq_some {lexeme : String} (h : Lexeme.exactly lexeme s = some n) :
    lexeme.toList <+: s ∧ n = lexeme.toList.length := by
  rw [Lexeme.exactly] at h
  split at h
  · next hstart =>
    cases h
    exact ⟨List.isPrefixOf_iff_prefix.1 hstart, rfl⟩
  · cases h

theorem oneOf_eq_some {lexemes : List String} (h : Lexeme.oneOf lexemes s = some n) :
    ∃ lexeme ∈ lexemes, lexeme.toList <+: s ∧ n = lexeme.toList.length := by
  obtain ⟨lexeme, hmem, hlexeme⟩ := List.exists_of_findSome?_eq_some h
  exact ⟨lexeme, hmem, exactly_eq_some hlexeme⟩

theorem word_eq_some {words : List String} (h : Lexeme.word words s = some n) :
    n = spanLength isWordChar s := by
  simp only [Lexeme.word] at h
  split at h
  · exact (Option.some.inj h).symm
  · cases h

theorem name_eq_some (h : Lexeme.name s = some n) : n = spanLength isWordChar s := by
  simp only [Lexeme.name] at h
  split at h
  · cases h
  · split at h
    · cases h
    · exact (Option.some.inj h).symm

theorem integer_eq_some (h : Lexeme.integer s = some n) : n = spanLength Char.isDigit s := by
  simp only [Lexeme.integer] at h
  split at h
  · cases h
  · exact (Option.some.inj h).symm

/-- Digits, a point and digits again. -/
theorem fraction_eq_some (h : Lexeme.fraction s = some n) :
    ∃ rest, s.drop (spanLength Char.isDigit s) = '.' :: rest ∧
      n = spanLength Char.isDigit s + (spanLength Char.isDigit rest + 1) := by
  simp only [Lexeme.fraction] at h
  split at h
  · cases h
  · split at h
    · next rest hdrop =>
      split at h
      · cases h
      · cases h
        exact ⟨rest, hdrop, by omega⟩
    · cases h

theorem assignment_eq_some (h : Lexeme.assignment s = some n) :
    ∃ lexeme ∈ ["=", "+=", "-=", "*=", "/="], lexeme.toList <+: s ∧ n = lexeme.toList.length := by
  unfold Lexeme.assignment at h
  split at h
  · cases h
  · next rest _ =>
    cases h
    exact ⟨"=", by decide, ⟨rest, rfl⟩, rfl⟩
  · obtain ⟨lexeme, hmem, hlexeme⟩ := oneOf_eq_some h
    exact ⟨lexeme, List.mem_cons_of_mem _ hmem, hlexeme⟩

theorem quoted_eq_some (h : Lexeme.quoted s = some n) :
    ∃ rest m, s = '"' :: rest ∧ Lexeme.closeQuote rest = some m ∧ n = m + 1 := by
  unfold Lexeme.quoted at h
  split at h
  · next rest =>
    obtain ⟨m, hclose, rfl⟩ := Option.map_eq_some_iff.1 h
    exact ⟨rest, m, rfl, hclose, rfl⟩
  · cases h

theorem fraction_le_length (h : Lexeme.fraction s = some n) : n ≤ s.length := by
  obtain ⟨rest, hdrop, rfl⟩ := fraction_eq_some h
  have hlength := congrArg List.length hdrop
  have hle := spanLength_le Char.isDigit rest
  simp only [List.length_drop, List.length_cons] at hlength
  omega

/-- A fixed text that is there is no longer than the text. -/
theorem le_length_of_prefix {lexemes : List String}
    (h : ∃ lexeme ∈ lexemes, lexeme.toList <+: s ∧ n = lexeme.toList.length) : n ≤ s.length := by
  obtain ⟨lexeme, -, hstart, rfl⟩ := h
  exact hstart.length_le

end Found

/-- The closing quote of a string is there. -/
theorem closeQuote_le_length {s : List Char} {n : Nat} (h : Lexeme.closeQuote s = some n) :
    n ≤ s.length := by
  fun_induction Lexeme.closeQuote s generalizing n with
  | case1 | case4 => cases h
  | case2 => cases h; exact Nat.succ_le_succ (Nat.zero_le _)
  | case3 _ _ ih =>
    obtain ⟨m, hm, rfl⟩ := Option.map_eq_some_iff.1 h
    exact Nat.add_le_add_right (ih hm) 2
  | case5 _ _ _ _ _ ih =>
    obtain ⟨m, hm, rfl⟩ := Option.map_eq_some_iff.1 h
    exact Nat.succ_le_succ (ih hm)

/-- A lexeme takes no more than there is. -/
theorem le_length_of_rule {symbol : Symbol} {lexeme : Recogniser}
    (h : language.rule symbol = .token lexeme) {s : List Char} {n : Nat} (hn : lexeme s = some n) :
    n ≤ s.length := by
  cases symbol <;> cases h
  case stringLit =>
    obtain ⟨rest, m, rfl, hclose, rfl⟩ := quoted_eq_some hn
    exact Nat.succ_le_succ (closeQuote_le_length hclose)
  case floatLit => exact fraction_le_length hn
  case intLit => exact integer_eq_some hn ▸ spanLength_le _ s
  case ident => exact name_eq_some hn ▸ spanLength_le _ s
  case assignOp => exact le_length_of_prefix (assignment_eq_some hn)
  case ending =>
    cases s <;> cases hn
    exact Nat.le_refl _
  case orOp | andOp | semi =>
    exact le_length_of_prefix ⟨_, List.mem_singleton_self _, exactly_eq_some hn⟩
  case eqOp | cmpOp | addOp | mulOp | unaryOp => exact le_length_of_prefix (oneOf_eq_some hn)
  all_goals exact word_eq_some hn ▸ spanLength_le _ s

/-! ### Blanks -/

/-- Separators are blanks. -/
theorem blanks_append {gap : List Char} (hgap : ∀ c ∈ gap, isSeparator c = true) (s : List Char) :
    blanks (gap ++ s) = gap.length + blanks s := by
  induction gap with
  | nil => simp
  | cons c gap ih =>
    have ih := ih fun d hd ↦ hgap d (List.mem_cons_of_mem _ hd)
    rw [blanks] at ih ⊢
    rw [List.cons_append, blanksFrom, if_pos (hgap c (List.mem_cons_self ..)), ih, List.length_cons]
    omega

/-- A text that starts neither with a separator nor with a comment starts with no blanks. -/
theorem blanks_eq_zero {s : List Char} (hhead : ∀ c ∈ s.head?, isSeparator c = false)
    (hcomment : comment? s = none) : blanks s = 0 := by
  cases s with
  | nil => rfl
  | cons c s =>
    rw [blanks, blanksFrom, hhead c rfl, hcomment]
    rfl

end Snippet.Script
