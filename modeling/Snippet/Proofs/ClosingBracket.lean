import Snippet.Proofs.BalancedScripts

/-!
# A closing bracket behind a text

A closing parenthesis is put behind a source text. No lexeme sees it (`lexeme_append_closer`),
unless the text goes on to its end in a line comment or in a string that is never closed. In the
code of the longer text the bracket is there or it is a space (`code_append_closer`); where it is
there, the blanks at the front of the text are the same as before (`blanks_append_closer`).
-/

namespace Snippet.Script

open Grammar

/-! ### Lexemes -/

section Lexemes

variable (s : List Char)

theorem takeWhile_append_closer {p : Char → Bool} (hp : p ')' = false) :
    (s ++ [')']).takeWhile p = s.takeWhile p := by
  induction s with
  | nil => simp [hp]
  | cons c s ih => rw [List.cons_append, List.takeWhile_cons, List.takeWhile_cons, ih]

theorem isPrefixOf_append_closer {chars : List Char} (hchars : ')' ∉ chars) :
    chars.isPrefixOf (s ++ [')']) = chars.isPrefixOf s := by
  induction s generalizing chars with
  | nil =>
    cases chars with
    | nil => rfl
    | cons c chars => simp [List.isPrefixOf, Ne.symm (List.ne_of_not_mem_cons hchars)]
  | cons d s ih =>
    cases chars with
    | nil => simp
    | cons c chars =>
      rw [List.cons_append, List.isPrefixOf_cons_cons, List.isPrefixOf_cons_cons,
        ih (List.not_mem_of_not_mem_cons hchars)]

theorem exactly_append_closer {lexeme : String} (h : ')' ∉ lexeme.toList) :
    Lexeme.exactly lexeme (s ++ [')']) = Lexeme.exactly lexeme s := by
  rw [Lexeme.exactly, isPrefixOf_append_closer s h, Lexeme.exactly]

theorem oneOf_append_closer {lexemes : List String}
    (h : ∀ lexeme ∈ lexemes, ')' ∉ lexeme.toList) :
    Lexeme.oneOf lexemes (s ++ [')']) = Lexeme.oneOf lexemes s := by
  rw [Lexeme.oneOf, Lexeme.oneOf]
  induction lexemes with
  | nil => rfl
  | cons lexeme lexemes ih =>
    obtain ⟨hlexeme, hlexemes⟩ := List.forall_mem_cons.1 h
    rw [List.findSome?_cons, List.findSome?_cons, exactly_append_closer s hlexeme, ih hlexemes]

theorem wordAt_append_closer : wordAt (s ++ [')']) = wordAt s :=
  takeWhile_append_closer s (by decide)

theorem digits_append_closer :
    spanLength Char.isDigit (s ++ [')']) = spanLength Char.isDigit s := by
  rw [spanLength, takeWhile_append_closer s (by decide), spanLength]

theorem fraction_append_closer : Lexeme.fraction (s ++ [')']) = Lexeme.fraction s := by
  simp only [Lexeme.fraction, digits_append_closer]
  have hle := spanLength_le Char.isDigit s
  generalize spanLength Char.isDigit s = n at hle ⊢
  split
  · rfl
  rw [List.drop_append_of_le_length hle]
  cases s.drop _ with
  | nil => rfl
  | cons c rest =>
    by_cases hc : c = '.'
    · subst hc
      simp only [List.cons_append, digits_append_closer]
    · simp [hc]

theorem assignment_append_closer : Lexeme.assignment (s ++ [')']) = Lexeme.assignment s := by
  have hops (s : List Char) : Lexeme.oneOf ["+=", "-=", "*=", "/="] (s ++ [')']) =
      Lexeme.oneOf ["+=", "-=", "*=", "/="] s := oneOf_append_closer s (by decide)
  match s with
  | [] => rfl
  | [c] =>
    by_cases hc : c = '='
    · subst hc
      rfl
    · simpa [Lexeme.assignment, hc] using hops [c]
  | c :: d :: rest =>
    by_cases hc : c = '='
    · subst hc
      by_cases hd : d = '='
      · subst hd
        rfl
      · simp [Lexeme.assignment, hd]
    · simpa [Lexeme.assignment, hc] using hops (c :: d :: rest)

theorem closeQuote_append_closer : Lexeme.closeQuote (s ++ [')']) = Lexeme.closeQuote s := by
  fun_induction Lexeme.closeQuote s with
  | case1 | case2 | case4 => rfl
  | case3 c rest ih => rw [List.cons_append, List.cons_append, Lexeme.closeQuote, ih]
  | case5 c rest hquote hslash hslash' ih =>
    have hne : c ≠ '\\' := by
      rintro rfl
      cases rest with
      | nil => exact hslash' rfl rfl
      | cons d rest => exact hslash d rest rfl rfl
    rw [List.cons_append, closeQuote_cons hquote hne, ih]

theorem quoted_append_closer : Lexeme.quoted (s ++ [')']) = Lexeme.quoted s := by
  cases s with
  | nil => rfl
  | cons c rest =>
    by_cases hc : c = '"'
    · subst hc
      rw [List.cons_append, Lexeme.quoted, closeQuote_append_closer, Lexeme.quoted]
    · simp [Lexeme.quoted, hc]

/-- No token but the end of the text depends on a closing bracket behind the text. -/
theorem lexeme_append_closer {symbol : Symbol} {lexeme : Recogniser}
    (h : language.rule symbol = .token lexeme) (hsymbol : symbol ≠ .ending) :
    lexeme (s ++ [')']) = lexeme s := by
  cases symbol <;> cases h
  case ending => exact absurd rfl hsymbol
  case floatLit => exact fraction_append_closer s
  case intLit => rw [Lexeme.integer, digits_append_closer, Lexeme.integer]
  case ident => rw [Lexeme.name, wordAt_append_closer, Lexeme.name]
  case assignOp => exact assignment_append_closer s
  case stringLit => exact quoted_append_closer s
  case orOp | andOp | semi => exact exactly_append_closer s (by decide)
  case eqOp | cmpOp | addOp | mulOp | unaryOp => exact oneOf_append_closer s (by decide)
  all_goals rw [Lexeme.word, wordAt_append_closer, Lexeme.word]

end Lexemes

/-! ### Comments -/

theorem closeComment_append_closer (s : List Char) :
    closeComment (s ++ [')']) = closeComment s := by
  fun_induction closeComment s with
  | case1 | case3 => rfl
  | case2 c rest hne ih =>
    rw [List.cons_append, closeComment, ih]
    rintro rest' rfl heq
    cases rest with
    | nil => cases heq
    | cons d rest => exact hne rest rfl (congrArg (· :: rest) (List.cons.inj heq).1)

theorem spanLength_append_closer (s : List Char) :
    spanLength (· != '\n') (s ++ [')']) = spanLength (· != '\n') s ∨
      spanLength (· != '\n') s = s.length ∧
        spanLength (· != '\n') (s ++ [')']) = s.length + 1 := by
  simp only [spanLength, List.takeWhile_append]
  split
  · next hall => exact .inr ⟨hall, by simp⟩
  · exact .inl rfl

/-- A comment is as long as before, unless it is a line comment up to the end of the text. -/
theorem comment?_append_closer (s : List Char) :
    comment? (s ++ [')']) = comment? s ∨
      comment? s = some s.length ∧ comment? (s ++ [')']) = some (s ++ [')']).length := by
  fun_cases comment? s with
  | case1 rest =>
    simp only [List.cons_append, comment?, List.length_cons]
    rcases spanLength_append_closer rest with h | ⟨h, hlong⟩
    · exact .inl (by rw [h])
    · refine .inr ⟨by rw [h, Nat.add_comm], ?_⟩
      rw [hlong, List.length_append, Nat.add_comm]
      rfl
  | case2 rest => exact .inl (by simp only [List.cons_append, comment?, closeComment_append_closer])
  | case3 s hline hblock =>
    -- two characters that open no comment have to be in front of the bracket
    have hfront {d : Char} {rest : List Char} (hd : d ≠ ')') (h : s ++ [')'] = '/' :: d :: rest) :
        ∃ rest, s = '/' :: d :: rest := by
      rcases s with - | ⟨c, - | ⟨e, s⟩⟩
      · cases h
      · exact absurd (List.cons.inj (List.cons.inj h).2).1.symm hd
      · cases h
        exact ⟨s, rfl⟩
    refine .inl ?_
    rw [comment?]
    · rintro rest heq
      obtain ⟨rest, rfl⟩ := hfront (by decide) heq
      exact hline rest rfl
    · rintro rest heq
      obtain ⟨rest, rfl⟩ := hfront (by decide) heq
      exact hblock rest rfl

theorem comment?_append_closer_eq_none {s : List Char} (h : comment? s = none) :
    comment? (s ++ [')']) = none := by
  rcases comment?_append_closer s with hsame | ⟨hs, -⟩
  · exact hsame.trans h
  · cases h.symm.trans hs

/-! ### The code -/

theorem code_of_comment {s : List Char} (h : comment? s = some s.length) :
    code s = List.replicate s.length ' ' := by
  rw [code_comment h, List.drop_length]
  exact List.append_nil _

/-- Behind a text, a bracket belongs to the code, or it stands in a comment or a string that goes on
to the end of the text. -/
theorem code_append_closer (s : List Char) :
    code (s ++ [')']) = code s ++ [')'] ∨ code (s ++ [')']) = code s ++ [' '] := by
  induction s using text_induction with
  | nil => exact .inl rfl
  | comment s n hcomment ih =>
    rcases comment?_append_closer s with hsame | ⟨hs, hlong⟩
    · have hdrop : (s ++ [')']).drop n = s.drop n ++ [')'] :=
        List.drop_append_of_le_length (comment?_bounds hcomment).2.2
      rw [code_comment (hsame.trans hcomment), code_comment hcomment, hdrop]
      simpa [List.append_assoc] using ih
    · refine .inr ?_
      rw [code_of_comment hlong, code_of_comment hs, List.length_append, List.length_singleton,
        List.replicate_succ']
  | string rest n hclose ih =>
    have hdrop : (rest ++ [')']).drop n = rest.drop n ++ [')'] :=
      List.drop_append_of_le_length (closeQuote_append hclose []).1
    rw [List.cons_append, code_string ((closeQuote_append_closer rest).trans hclose),
      code_string hclose, hdrop]
    simpa [List.append_assoc] using ih
  | unclosed rest hclose =>
    refine .inr ?_
    rw [List.cons_append, code_open ((closeQuote_append_closer rest).trans hclose),
      code_open hclose, List.length_append, List.length_singleton, List.replicate_succ']
  | char c rest hcomment hquote ih =>
    have hnone : comment? (c :: (rest ++ [')'])) = none := comment?_append_closer_eq_none hcomment
    rw [List.cons_append, code_cons hnone hquote, code_cons hcomment hquote]
    simpa using ih

/-- The last character of the code tells whether the bracket is there. -/
theorem code_append_closer_iff (s : List Char) :
    code (s ++ [')']) = code s ++ [')'] ↔ (code (s ++ [')'])).getLast? = some ')' := by
  refine ⟨fun h ↦ by rw [h, List.getLast?_concat], fun h ↦ ?_⟩
  rcases code_append_closer s with hcode | hcode
  · exact hcode
  · rw [hcode, List.getLast?_concat] at h
    cases h

/-- In front of a bracket that belongs to the code there are as many blanks as without it. -/
theorem blanks_append_closer {s : List Char} (h : code (s ++ [')']) = code s ++ [')']) :
    blanks (s ++ [')']) = blanks s := by
  induction s using text_induction with
  | nil => rfl
  | comment s n hcomment ih =>
    rcases comment?_append_closer s with hsame | ⟨hs, hlong⟩
    · have hdrop : (s ++ [')']).drop n = s.drop n ++ [')'] :=
        List.drop_append_of_le_length (comment?_bounds hcomment).2.2
      rw [hcomment] at hsame
      rw [code_comment hsame, code_comment hcomment, hdrop, List.append_assoc] at h
      rw [blanks_of_comment hsame, blanks_of_comment hcomment, hdrop,
        ih (List.append_cancel_left h)]
    · rw [code_of_comment hlong, code_of_comment hs, List.length_append, List.length_singleton,
        List.replicate_succ'] at h
      cases List.append_cancel_left h
  | string rest | unclosed rest =>
    rw [List.cons_append, blanks_eq_zero (by simp [isSeparator]) rfl,
      blanks_eq_zero (by simp [isSeparator]) rfl]
  | char c rest hcomment hquote ih =>
    have hnone : comment? (c :: (rest ++ [')'])) = none := comment?_append_closer_eq_none hcomment
    rw [List.cons_append] at h ⊢
    rw [code_cons hnone hquote, code_cons hcomment hquote] at h
    cases hseparator : isSeparator c with
    | true =>
      have hgap : ∀ d ∈ [c], isSeparator d = true := List.forall_mem_singleton.2 hseparator
      have hnext (t : List Char) : blanks (c :: t) = 1 + blanks t := blanks_append hgap t
      rw [hnext, hnext, ih (List.cons.inj h).2]
    | false =>
      rw [blanks_eq_zero (by simpa using hseparator) hnone,
        blanks_eq_zero (by simpa using hseparator) hcomment]

/-! ### What may stand behind a text -/

theorem blanks_le_length (s : List Char) : blanks s ≤ s.length := by
  rw [blanks]
  generalize 0 = inside
  fun_induction blanksFrom inside s <;> simp_all

theorem length_skip_add (s : List Char) : (scriptReader.skip s).length + blanks s = s.length := by
  rw [skip_eq, List.length_drop]
  exact Nat.sub_add_cancel (blanks_le_length s)

/-- Nothing, or a closing bracket that is read as code, behind a text that closes every bracket it
opens. The text may close brackets that were opened in front of it. -/
structure Behind (tail s : List Char) : Prop where
  tail_eq : tail = [] ∨ tail = [')'] ∧ code (s ++ [')']) = code s ++ [')']
  closes : ∃ e, depthBehind e (code s) = some 0

namespace Behind

variable {tail s t : List Char} {d e d' e' : Nat}

theorem blanks_eq (h : Behind tail s) : blanks (s ++ tail) = blanks s := by
  rcases h.tail_eq with rfl | ⟨rfl, hcode⟩
  · rw [List.append_nil]
  · exact blanks_append_closer hcode

theorem skip_eq (h : Behind tail s) :
    scriptReader.skip (s ++ tail) = scriptReader.skip s ++ tail := by
  rw [Script.skip_eq, h.blanks_eq, List.drop_append_of_le_length (blanks_le_length s),
    Script.skip_eq]

/-- What is left of the text keeps the property, where both texts are read up to there. -/
theorem of_passes (h : Behind tail s) (hs : Passes d s e t)
    (hs' : Passes d' (s ++ tail) e' (t ++ tail)) : Behind tail t where
  tail_eq := by
    refine h.tail_eq.imp id fun ⟨htail, hcode⟩ ↦ ⟨htail, ?_⟩
    subst htail
    obtain ⟨front, hfront, -⟩ := hs'
    -- the code that is left ends as the code of the whole text does
    rcases code_append_closer t with ht | ht
    · exact ht
    · rw [code_append_closer_iff, hfront, ht, ← List.append_assoc, List.getLast?_concat] at hcode
      cases hcode
  closes := by
    obtain ⟨k, hk⟩ := h.closes
    obtain ⟨front, hfront, -⟩ := hs
    rw [hfront] at hk
    obtain ⟨m, -, hm⟩ := depthBehind_append.1 hk
    exact ⟨m, hm⟩

theorem skip (h : Behind tail s) : Behind tail (scriptReader.skip s) := by
  have hskip := passes_skip 0 (s ++ tail)
  rw [h.skip_eq] at hskip
  exact h.of_passes (passes_skip 0 s) hskip

/-- What ends at no lower depth than it starts at does not reach into what stands behind. -/
theorem length_le (h : Behind tail s) (hs' : Passes d (s ++ tail) e t) (hde : d ≤ e) :
    tail.length ≤ t.length := by
  rcases h.tail_eq with rfl | ⟨rfl, hcode⟩
  · exact Nat.zero_le _
  · cases t with
    | cons => exact Nat.succ_le_succ (Nat.zero_le _)
    | nil =>
      obtain ⟨front, hfront, hdepth⟩ := hs'
      obtain ⟨k, hk⟩ := h.closes
      have hwhole : code (s ++ [')']) = front := by rw [hfront]; exact List.append_nil _
      rw [← hwhole, hcode] at hdepth
      obtain ⟨m, hm, hlast⟩ := depthBehind_append.1 hdepth
      -- the bracket is one of those that are open behind the text
      have hclosed : m = e + 1 := by
        obtain ⟨n, hstep, hnil⟩ := depthBehind_cons.1 hlast
        cases hnil
        rcases bracketStep_cases hstep with ⟨hopen, -⟩ | ⟨-, -, heq⟩ | ⟨-, hclose, -⟩
        · exact absurd hopen (by decide)
        · exact heq
        · exact absurd (by decide) hclose
      have hs := add_surplus hm
      have hrest := add_surplus hk
      omega

end Behind

end Snippet.Script
