import Snippet.Proofs.Reading

/-!
# Texts of spaced tokens

A list of tokens can be laid out with any separators between them (`Spaced`). Reading such a text
character by character is the same as reading the tokens one by one, whatever the separators are,
so a derivation over the tokens is one over the text (`derives_of_spaced`).
-/

namespace Snippet.Script

open Grammar

/-! ### Layouts -/

/-- Nothing, or a text that starts with a separator. -/
def Delimited (tail : List Char) : Prop :=
  ∀ c ∈ tail.head?, isSeparator c = true

theorem Delimited.halted {tail : List Char} (h : Delimited tail) : Halted tail :=
  fun c hc ↦ by simp [isHalt, h c hc]

/-- A text consists of these tokens, with separators between them and perhaps around them. -/
inductive Spaced : List (List Char) → List Char → Prop
  | done {gap} (hgap : ∀ c ∈ gap, isSeparator c = true) : Spaced [] gap
  | next {gap token tokens rest} (hgap : ∀ c ∈ gap, isSeparator c = true) (hrest : Delimited rest)
      (h : Spaced tokens rest) : Spaced (token :: tokens) (gap ++ (token ++ rest))

/-- Tokens with one space behind each of them. -/
theorem spaced_flatMap (tokens : List (List Char)) :
    Spaced tokens (tokens.flatMap (· ++ [' '])) := by
  -- the space behind a token is read in front of the next one
  have hgap : ∀ c ∈ [' '], isSeparator c = true := List.forall_mem_singleton.2 rfl
  have hbehind : ∀ tokens, Spaced tokens (' ' :: tokens.flatMap (· ++ [' '])) := by
    intro tokens
    induction tokens with
    | nil => exact .done hgap
    | cons token tokens ih =>
      simpa using Spaced.next hgap (by simp [Delimited, isSeparator]) ih
  cases tokens with
  | nil => exact .done (List.forall_mem_nil _)
  | cons token tokens =>
    simpa using Spaced.next (List.forall_mem_nil _) (by simp [Delimited, isSeparator])
      (hbehind tokens)

/-- A text that can stand between separators as one token: it starts neither with a separator nor
with a comment, and it is a whole string if it is the start of one. -/
structure Whole (token : List Char) : Prop where
  ne_nil : token ≠ []
  not_separator : ∀ c ∈ token.head?, isSeparator c = false
  not_comment : ∀ tail, Delimited tail → comment? (token ++ tail) = none
  quoted : ∀ tail, Lexeme.quoted (token ++ tail) = Lexeme.quoted token

/-! ### Blanks -/

theorem Whole.head_append {token : List Char} (h : Whole token) (tail : List Char) :
    (token ++ tail).head? = token.head? := by
  obtain ⟨c, cs, rfl⟩ := List.exists_cons_of_ne_nil h.ne_nil
  rfl

theorem Whole.blanks_append_eq_zero {token : List Char} (h : Whole token) {tail : List Char}
    (htail : Delimited tail) : blanks (token ++ tail) = 0 :=
  blanks_eq_zero (by simpa only [h.head_append] using h.not_separator) (h.not_comment tail htail)

/-! ### Reading tokens -/

/-- The next token; at the end, the empty text. -/
def front (tokens : List (List Char)) : List Char :=
  tokens.headD []

@[simp]
theorem front_nil : front [] = [] :=
  rfl

@[simp]
theorem front_cons (token : List Char) (tokens : List (List Char)) :
    front (token :: tokens) = token :=
  rfl

/-- Reading whole tokens. Looking for a part of a token has no answer. -/
def tokenReader : Reader Symbol (List (List Char)) where
  token symbol tokens r := ∃ lexeme, language.rule symbol = .token lexeme ∧
    (lexeme (front tokens) = some (front tokens).length ∧ r = some (front tokens, tokens.tail) ∨
      lexeme (front tokens) = none ∧ r = none)
  text chars tokens r := chars ≠ [] ∧
    (chars = front tokens ∧ r = some tokens.tail ∨
      chars.isPrefixOf (front tokens) = false ∧ r = none)
  skip tokens := tokens
  size := List.length

/-- A text that is left to read once these tokens are left to read. -/
def Left (tokens : List (List Char)) (s : List Char) : Prop :=
  Spaced tokens s ∧ ∀ token ∈ tokens, Whole token

/-- The same, with the next token at the front of the text. -/
def Next (tokens : List (List Char)) (s : List Char) : Prop :=
  Left tokens s ∧ blanks s = 0

theorem Next.eq_nil {s : List Char} (h : Next [] s) : s = [] := by
  obtain ⟨⟨hspaced, -⟩, hblanks⟩ := h
  cases hspaced with
  | done hgap =>
    have hlength := blanks_append hgap []
    rw [List.append_nil, hblanks] at hlength
    exact List.length_eq_zero_iff.1 (by omega)

theorem Next.eq_append {token : List Char} {tokens : List (List Char)} {s : List Char}
    (h : Next (token :: tokens) s) :
    ∃ rest, s = token ++ rest ∧ Delimited rest ∧ Left tokens rest ∧ Whole token := by
  obtain ⟨⟨hspaced, hwhole⟩, hblanks⟩ := h
  cases hspaced with
  | @next gap _ _ rest hgap hrest h =>
    rw [blanks_append hgap] at hblanks
    obtain rfl := List.length_eq_zero_iff.1 (Nat.eq_zero_of_add_eq_zero_right hblanks)
    exact ⟨rest, rfl, hrest, ⟨h, fun t ht ↦ hwhole t (List.mem_cons_of_mem _ ht)⟩,
      hwhole token (List.mem_cons_self ..)⟩

/-- Passing over the blanks leads to the next token. -/
theorem Left.next {tokens : List (List Char)} {s : List Char} (h : Left tokens s) :
    Next tokens (s.drop (blanks s)) := by
  obtain ⟨hspaced, hwhole⟩ := h
  cases hspaced with
  | done hgap =>
    have hlength : blanks s = s.length := by
      simpa [blanks, blanksFrom] using blanks_append hgap []
    rw [hlength, List.drop_length]
    exact ⟨⟨.done (by simp), by simp⟩, rfl⟩
  | @next gap token tokens rest hgap hrest h =>
    have hzero := (hwhole token (List.mem_cons_self ..)).blanks_append_eq_zero hrest
    rw [blanks_append hgap, hzero, Nat.add_zero, List.drop_left]
    exact ⟨⟨Spaced.next (List.forall_mem_nil _) hrest h, hwhole⟩, hzero⟩

/-- Reading a spaced text is reading its tokens. -/
theorem tokenReader_follows : Follows tokenReader scriptReader Plain Left Next where
  near h := h.1
  skip_eq {tokens s} h := ⟨rfl, by
    show s.drop (blanks s) = s
    rw [h.2, List.drop_zero]⟩
  skip h := h.next
  size_skip_le _ := Nat.le_refl _
  size_skip_le' s := by
    show (s.drop (blanks s)).length ≤ s.length
    simp
  token {tokens s symbol r} hnext h := by
    obtain ⟨lexeme, hrule, hr⟩ := h
    refine ⟨_, ⟨lexeme, hrule, rfl⟩, ?_⟩
    cases tokens with
    | nil =>
      obtain rfl := hnext.eq_nil
      rcases hr with ⟨hlexeme, rfl⟩ | ⟨hlexeme, rfl⟩
      · rw [front_nil] at hlexeme
        rw [hlexeme]
        exact .some ⟨hnext.1, .stay⟩
      · rw [front_nil] at hlexeme
        rw [hlexeme]
        exact .none
    | cons token tokens =>
      obtain ⟨rest, rfl, hrest, hleft, hwhole⟩ := hnext.eq_append
      have hignores : lexeme (token ++ rest) = lexeme token := by
        by_cases hsymbol : symbol = .stringLit
        · subst hsymbol
          cases hrule
          exact hwhole.quoted rest
        · exact ignoresTail_of_rule hrule hsymbol token rest hwhole.ne_nil hrest.halted
      rw [hignores]
      rcases hr with ⟨hlexeme, rfl⟩ | ⟨hlexeme, rfl⟩
      · rw [front_cons] at hlexeme
        rw [hlexeme]
        simp only [Option.map_some, List.take_left, List.drop_left]
        have := List.length_pos_iff.2 hwhole.ne_nil
        exact .some ⟨hleft, .go (Nat.lt_succ_self _) (by simpa [Language.reader] using this)⟩
      · rw [front_cons] at hlexeme
        rw [hlexeme]
        exact .none
  text {tokens s chars r} hplain hnext h := by
    obtain ⟨hne, hr⟩ := h
    refine ⟨_, rfl, ?_⟩
    cases tokens with
    | nil =>
      obtain rfl := hnext.eq_nil
      rcases hr with ⟨heq, -⟩ | ⟨hstart, rfl⟩
      · exact absurd heq hne
      · rw [front_nil] at hstart
        rw [hstart]
        exact .none
    | cons token tokens =>
      obtain ⟨rest, rfl, hrest, hleft, hwhole⟩ := hnext.eq_append
      rw [isPrefixOf_append_halted token hrest.halted hplain]
      rcases hr with ⟨heq, rfl⟩ | ⟨hstart, rfl⟩
      · have := List.length_pos_iff.2 hwhole.ne_nil
        rw [front_cons] at heq
        rw [heq, if_pos (List.isPrefixOf_iff_prefix.2 (List.prefix_refl _)), List.drop_left]
        exact .some ⟨hleft, .go (Nat.lt_succ_self _) (by simpa [Language.reader] using this)⟩
      · rw [front_cons] at hstart
        rw [hstart]
        exact .none

/-- What is derived from the tokens is derived from the text. -/
theorem derives_of_spaced {p : Pattern Symbol} (hp : p.TextsIn Plain)
    {tokens rest : List (List Char)}
    {nodes : List (Node Symbol)} {s : List Char}
    (h : Derives language tokenReader p tokens (some (nodes, rest))) (hs : Spaced tokens s)
    (hwhole : ∀ token ∈ tokens, Whole token) :
    ∃ t, Derives language scriptReader p (scriptReader.skip s) (some (nodes, t)) := by
  obtain ⟨_, h', ⟨-⟩⟩ := h.transfer tokenReader_follows plain_of_rule hp (Left.next ⟨hs, hwhole⟩)
  exact ⟨_, h'⟩

end Snippet.Script
