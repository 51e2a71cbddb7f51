import Snippet.Proofs.RoundTrip

/-!
# Comments as blanks

`Blanked comment s t` says that `t` is the text `s` with one comment in it, at a place where it is
read as a comment, replaced by one space. The grammar finds the same in both texts
(`blanked_follows`). The bracket guard in front of it does not know comments, so the parser gives
the same verdict on both texts if and only if the guard does, or the text that the guard lets
through is too deep all the same (`verdict_blanked_iff`). A comment without quotes, backslashes and
brackets means nothing to the guard either (`verdict_of_harmless`).
-/

namespace Snippet.Script

open Grammar

/-- The second text is the first one with one comment replaced by a space. The comment is reached by
passing over strings and over other comments as wholes. -/
inductive Blanked (comment : List Char) : List Char → List Char → Prop
  | here {s n} (h : comment? s = some n) (hcomment : comment = s.take n) :
    Blanked comment s (' ' :: s.drop n)
  | char {c s t} (hquote : c ≠ '"') (hnone : comment? (c :: s) = none) (h : Blanked comment s t) :
    Blanked comment (c :: s) (c :: t)
  | string {s n t} (hclose : Lexeme.closeQuote s = some n) (h : Blanked comment (s.drop n) t) :
    Blanked comment ('"' :: s) ('"' :: (s.take n ++ t))
  | other {s n t} (hother : comment? s = some n) (h : Blanked comment (s.drop n) t) :
    Blanked comment s (s.take n ++ t)

/-- A comment at the front of a text. -/
theorem Blanked.front {comment rest : List Char}
    (h : comment? (comment ++ rest) = some comment.length) :
    Blanked comment (comment ++ rest) (' ' :: rest) := by
  have hhere := Blanked.here h (List.take_left' rfl).symm
  rwa [List.drop_left' rfl] at hhere

/-! ### The ends of comments and strings -/

/-- The end of a block comment is found whatever stands behind it. -/
theorem closeComment_append {s : List Char} {n : Nat} (h : closeComment s = some n)
    (tail : List Char) : 0 < n ∧ n ≤ s.length ∧ closeComment (s.take n ++ tail) = some n := by
  fun_induction closeComment s generalizing n with
  | case1 => cases h; exact ⟨by simp, by simp, rfl⟩
  | case2 c s hne ih =>
    obtain ⟨m, hm, rfl⟩ := Option.map_eq_some_iff.1 h
    obtain ⟨hpos, hle, hclose⟩ := ih hm
    refine ⟨Nat.succ_pos m, by simpa using hle, ?_⟩
    rw [List.take_succ_cons, List.cons_append, closeComment, hclose]
    · rfl
    · rintro rest rfl heq
      cases s with
      | nil => cases hm
      | cons d s =>
        obtain ⟨m, rfl⟩ := Nat.exists_eq_succ_of_ne_zero (Nat.ne_of_gt hpos)
        exact hne s rfl (by rw [(List.cons.inj heq).1])
  | case3 => cases h

/-- The end of a string is found whatever stands behind it. -/
theorem closeQuote_append {s : List Char} {n : Nat} (h : Lexeme.closeQuote s = some n)
    (tail : List Char) :
    n ≤ s.length ∧ Lexeme.closeQuote (s.take n ++ tail) = some n := by
  obtain ⟨body, rest, hbody, rfl, rfl⟩ := exists_quotedBody h
  refine ⟨by simp, ?_⟩
  have htake : (body ++ '"' :: rest).take (body.length + 1) = body ++ ['"'] := by
    rw [List.take_length_add_append]
    rfl
  rw [htake, List.append_assoc]
  exact hbody.closeQuote tail

/-- What ends no block comment does not end one where less of it is left. -/
theorem closeComment_drop {s : List Char} (h : closeComment s = none) (n : Nat) :
    closeComment (s.drop n) = none := by
  induction n generalizing s with
  | zero => exact h
  | succ n ih =>
    cases s with
    | nil => rfl
    | cons c s =>
      refine ih (s := s) ?_
      unfold closeComment at h
      split at h
      · cases h
      · next heq =>
        obtain ⟨rfl, rfl⟩ := List.cons.inj heq
        exact Option.map_eq_none_iff.1 h
      · next heq => cases heq

/-- A text that ends no block comment still ends none behind the same characters, unless a slash
follows them now. -/
theorem closeComment_eq_none_of_append (front : List Char) {s t : List Char}
    (h : closeComment (front ++ s) = none) (ht : closeComment t = none)
    (hslash : t.head? = some '/' → s.head? = some '/') : closeComment (front ++ t) = none := by
  induction front with
  | nil => exact ht
  | cons c front ih =>
    have hrest := ih (closeComment_drop h 1)
    rw [List.cons_append, closeComment, hrest]
    · rfl
    · rintro rest rfl heq
      have hfront : (front ++ s).head? = some '/' := by
        cases front with
        | nil => exact hslash (by simpa using congrArg List.head? heq)
        | cons d front => simpa using congrArg List.head? heq
      obtain ⟨rest', hrest'⟩ : ∃ rest', front ++ s = '/' :: rest' := by
        cases hs : front ++ s with
        | nil => simp [hs] at hfront
        | cons d rest' =>
          rw [hs] at hfront
          cases hfront
          exact ⟨rest', rfl⟩
      rw [List.cons_append, hrest'] at h
      cases h

/-- The line at the front of a text. -/
theorem exists_line (s : List Char) : ∃ line tail, s = line ++ tail ∧ (∀ c ∈ line, c ≠ '\n') ∧
    ∀ c ∈ tail.head?, c = '\n' := by
  induction s with
  | nil => exact ⟨[], [], rfl, by simp, by simp⟩
  | cons c s ih =>
    by_cases hc : c = '\n'
    · exact ⟨[], c :: s, rfl, by simp, by simpa using hc⟩
    · obtain ⟨line, tail, rfl, hline, htail⟩ := ih
      exact ⟨c :: line, tail, rfl, List.forall_mem_cons.2 ⟨hc, hline⟩, htail⟩

theorem spanLength_line {line tail : List Char} (hline : ∀ c ∈ line, c ≠ '\n')
    (htail : ∀ c ∈ tail.head?, c = '\n') : spanLength (· != '\n') (line ++ tail) = line.length := by
  rw [spanLength, List.takeWhile_append_of_pos (by simpa using hline)]
  cases tail with
  | nil => simp
  | cons c tail => simp [htail c rfl]

/-! ### Comments on both sides -/

theorem comment?_eq_none_of_ne {c : Char} (h : c ≠ '/') (s : List Char) :
    comment? (c :: s) = none := by
  rw [comment?]
  · exact fun _ heq ↦ h (List.cons.inj heq).1
  · exact fun _ heq ↦ h (List.cons.inj heq).1

/-- A comment is at least its two opening characters long, and is there. -/
theorem comment?_bounds {s : List Char} {n : Nat} (h : comment? s = some n) :
    s.head? = some '/' ∧ 0 < n ∧ n ≤ s.length := by
  unfold comment? at h
  split at h
  · next rest =>
    cases h
    have := spanLength_le (· != '\n') rest
    exact ⟨rfl, by omega, by simp; omega⟩
  · next rest =>
    obtain ⟨m, hm, rfl⟩ := Option.map_eq_some_iff.1 h
    have := (closeComment_append hm []).2.1
    exact ⟨rfl, by omega, by simp; omega⟩
  · cases h

namespace Blanked

variable {comment s t : List Char}

/-- A slash at the front of the changed text was there before. -/
theorem head_slash (h : Blanked comment s t) (ht : t.head? = some '/') : s.head? = some '/' := by
  cases h with
  | here => cases ht
  | char => exact ht
  | string => cases ht
  | other hother => exact (comment?_bounds hother).1

/-- A comment that is never closed stays so. -/
theorem closeComment_eq_none (h : Blanked comment s t) (hs : closeComment s = none) :
    closeComment t = none := by
  induction h with
  | here =>
    rw [closeComment, closeComment_drop hs]
    · rfl
    · exact fun _ h ↦ absurd h (by decide)
  | @char c s t hquote hnone h ih =>
    exact closeComment_eq_none_of_append [c] hs (ih (closeComment_drop hs 1)) h.head_slash
  | @string s n t hclose h ih =>
    have hrest : closeComment (s.drop n) = none := closeComment_drop hs (n + 1)
    rw [← List.take_append_drop n s] at hs
    exact closeComment_eq_none_of_append ('"' :: s.take n) hs (ih hrest) h.head_slash
  | @other s n t hother h ih =>
    have hrest := closeComment_drop hs n
    rw [← List.take_append_drop n s] at hs
    exact closeComment_eq_none_of_append (s.take n) hs (ih hrest) h.head_slash

theorem ne_nil (h : Blanked comment s t) : s ≠ [] := by
  rintro rfl
  cases h with
  | here h => cases h
  | other h => cases h

/-- What is no comment at the front is none afterwards. -/
theorem comment?_eq_none {c : Char} (h : Blanked comment s t) (hnone : comment? (c :: s) = none) :
    comment? (c :: t) = none := by
  by_cases hc : c = '/'
  · subst hc
    -- a comment right behind a slash would have been one together with it
    have hslash : s.head? ≠ some '/' := by
      intro hs
      obtain ⟨rest, rfl⟩ := List.head?_eq_some_iff.1 hs
      cases hnone
    cases h with
    | here hhere => exact absurd (comment?_bounds hhere).1 hslash
    | other hother => exact absurd (comment?_bounds hother).1 hslash
    | string => rfl
    | @char d s t _ _ h =>
      by_cases hd : d = '*'
      · subst hd
        have hclose := Option.map_eq_none_iff.1 hnone
        exact Option.map_eq_none_iff.2 (h.closeComment_eq_none hclose)
      · rw [comment?]
        · rintro rest heq
          exact hslash (by rw [(List.cons.inj (List.cons.inj heq).2).1]; rfl)
        · rintro rest heq
          exact hd (List.cons.inj (List.cons.inj heq).2).1
  · exact comment?_eq_none_of_ne hc t

/-- What starts with a line break still does. -/
theorem head_newline (h : Blanked comment s t) (hs : s.head? = some '\n') :
    t.head? = some '\n' := by
  cases h with
  | here h => simp [(comment?_bounds h).1] at hs
  | char => exact hs
  | string => cases hs
  | other h => simp [(comment?_bounds h).1] at hs

/-- A comment at the front is as long as before where another one behind it is replaced. -/
theorem comment?_append {n : Nat} (hcomment : comment? s = some n)
    (h : Blanked comment (s.drop n) t) : comment? (s.take n ++ t) = some n := by
  unfold comment? at hcomment
  split at hcomment
  · next rest =>
    cases hcomment
    -- the line goes on to its break, which is still there
    obtain ⟨line, tail, rfl, hline, htail⟩ := exists_line rest
    rw [spanLength_line hline htail, Nat.add_comm] at h ⊢
    have hdrop : ('/' :: '/' :: (line ++ tail)).drop (line.length + 2) = tail := by simp
    have htake : ('/' :: '/' :: (line ++ tail)).take (line.length + 2) = '/' :: '/' :: line := by
      simp
    rw [hdrop] at h
    obtain ⟨c, tail, rfl⟩ := List.exists_cons_of_ne_nil h.ne_nil
    cases htail c rfl
    obtain ⟨t', rfl⟩ := List.head?_eq_some_iff.1 (h.head_newline rfl)
    rw [htake, List.cons_append, List.cons_append, comment?, spanLength_line hline (by simp),
      Nat.add_comm]
  · next rest =>
    obtain ⟨m, hm, rfl⟩ := Option.map_eq_some_iff.1 hcomment
    have htake : ('/' :: '*' :: rest).take (2 + m) ++ t = '/' :: '*' :: (rest.take m ++ t) := by
      rw [Nat.add_comm]
      rfl
    rw [htake, comment?, (closeComment_append hm t).2.2]
    rfl
  · cases hcomment

end Blanked

/-! ### Passing over blanks -/

theorem blanksFrom_eq {inside : Nat} {s : List Char} (h : inside ≤ s.length) :
    blanksFrom inside s = inside + blanks (s.drop inside) := by
  induction s generalizing inside with
  | nil =>
    cases Nat.le_zero.1 h
    rfl
  | cons c s ih =>
    cases inside with
    | zero => simp [blanks]
    | succ n =>
      rw [blanksFrom, ih (by simpa using h), List.drop_succ_cons]
      omega

/-- A comment is a blank. -/
theorem blanks_of_comment {s : List Char} {n : Nat} (h : comment? s = some n) :
    blanks s = n + blanks (s.drop n) := by
  obtain ⟨hslash, hpos, hle⟩ := comment?_bounds h
  obtain ⟨rest, rfl⟩ := List.head?_eq_some_iff.1 hslash
  obtain ⟨n, rfl⟩ := Nat.exists_eq_succ_of_ne_zero (Nat.ne_of_gt hpos)
  have hseparator : isSeparator '/' = false := by decide
  rw [blanks, blanksFrom, hseparator, h, List.drop_succ_cons]
  simp only [Bool.false_eq_true, if_false, Nat.succ_sub_one]
  rw [blanksFrom_eq (by simpa using hle)]
  omega

/-- What stands at the front of a text without blanks is no comment. -/
theorem comment?_eq_none_of_blanks {s : List Char} (h : blanks s = 0) : comment? s = none := by
  cases hcomment : comment? s with
  | none => rfl
  | some n =>
    have := (comment?_bounds hcomment).2.1
    have := blanks_of_comment hcomment
    omega

/-- Blanks start with a separator or a comment, and go on behind it. -/
theorem blanks_cases (s : List Char) : blanks s = 0 ∨
    ∃ n, 0 < n ∧ n ≤ s.length ∧ blanks s = n + blanks (s.drop n) := by
  cases s with
  | nil => exact .inl rfl
  | cons c s =>
    cases hseparator : isSeparator c with
    | true =>
      have hgap : ∀ d ∈ [c], isSeparator d = true := by simpa using hseparator
      exact .inr ⟨1, Nat.one_pos, by simp, blanks_append hgap s⟩
    | false =>
      cases hcomment : comment? (c :: s) with
      | some n =>
        obtain ⟨-, hpos, hle⟩ := comment?_bounds hcomment
        exact .inr ⟨n, hpos, hle, blanks_of_comment hcomment⟩
      | none => exact .inl (blanks_eq_zero (by simpa using hseparator) hcomment)

/-- No blanks are left behind the blanks. -/
theorem blanks_drop_blanks (s : List Char) : blanks (s.drop (blanks s)) = 0 := by
  rcases blanks_cases s with h | ⟨n, hpos, hle, h⟩
  · rw [h, List.drop_zero, h]
  · rw [h, ← List.drop_drop]
    exact blanks_drop_blanks (s.drop n)
termination_by s.length
decreasing_by simp; omega

/-- The text behind its blanks. -/
theorem skip_eq (s : List Char) : scriptReader.skip s = s.drop (blanks s) :=
  rfl

theorem skip_append {gap : List Char} (hgap : ∀ c ∈ gap, isSeparator c = true) (s : List Char) :
    scriptReader.skip (gap ++ s) = scriptReader.skip s := by
  rw [skip_eq, blanks_append hgap, skip_eq, ← List.drop_drop, List.drop_left]

theorem skip_of_comment {s : List Char} {n : Nat} (h : comment? s = some n) :
    scriptReader.skip s = scriptReader.skip (s.drop n) := by
  rw [skip_eq, blanks_of_comment h, skip_eq, ← List.drop_drop]

theorem skip_of_blanks {s : List Char} (h : blanks s = 0) : scriptReader.skip s = s := by
  rw [skip_eq, h, List.drop_zero]

/-! ### Reading the two texts -/

/-- What is left to read of the two texts: the same, or texts of which one still has the comment. -/
def Near (comment : List Char) (s t : List Char) : Prop :=
  s = t ∨ Blanked comment s t

/-- The same, with a token at the front. -/
def Ready (comment : List Char) (s t : List Char) : Prop :=
  Near comment s t ∧ blanks s = 0 ∧ blanks t = 0

theorem Blanked.near_skip {comment s t : List Char} (h : Blanked comment s t) :
    Near comment (scriptReader.skip s) (scriptReader.skip t) := by
  induction h with
  | @here s n h =>
    have hspace : ∀ c ∈ [' '], isSeparator c = true := List.forall_mem_singleton.2 rfl
    exact .inl ((skip_of_comment h).trans (skip_append hspace (s.drop n)).symm)
  | @char c s t hquote hnone h ih =>
    cases hseparator : isSeparator c with
    | true =>
      have hgap : ∀ d ∈ [c], isSeparator d = true := by simpa using hseparator
      have hs := skip_append hgap s
      have ht := skip_append hgap t
      rw [List.singleton_append] at hs ht
      rwa [hs, ht]
    | false =>
      have hhead {u : List Char} : ∀ d ∈ (c :: u).head?, isSeparator d = false := by
        simpa using hseparator
      rw [skip_of_blanks (blanks_eq_zero hhead hnone),
        skip_of_blanks (blanks_eq_zero hhead (h.comment?_eq_none hnone))]
      exact .inr (.char hquote hnone h)
  | string hclose h =>
    rw [skip_of_blanks (blanks_eq_zero (by simp [isSeparator]) rfl),
      skip_of_blanks (blanks_eq_zero (by simp [isSeparator]) rfl)]
    exact .inr (.string hclose h)
  | @other s n t hother h ih =>
    have hlength : (s.take n).length = n := List.length_take_of_le (comment?_bounds hother).2.2
    have ht := skip_of_comment (h.comment?_append hother)
    rw [List.drop_left' hlength] at ht
    rwa [skip_of_comment hother, ht]

theorem Near.skip {comment s t : List Char} (h : Near comment s t) :
    Ready comment (scriptReader.skip s) (scriptReader.skip t) := by
  refine ⟨?_, blanks_drop_blanks s, blanks_drop_blanks t⟩
  rcases h with rfl | h
  · exact .inl rfl
  · exact h.near_skip

/-- The two texts agree up to a character that ends tokens. -/
theorem Blanked.exists_front {comment s t : List Char} (h : Blanked comment s t) :
    ∃ front u v, s = front ++ u ∧ t = front ++ v ∧ Plain front ∧ Halted u ∧ Halted v ∧
      Blanked comment u v := by
  have hslash {u : List Char} (hu : u.head? = some '/') : Halted u := fun c hc ↦ by
    cases hu.symm.trans hc
    decide
  induction h with
  | @here s n h hcomment =>
    exact ⟨[], s, ' ' :: s.drop n, rfl, rfl, List.forall_mem_nil _, hslash (comment?_bounds h).1,
      halted_cons_iff.2 (by decide), .here h hcomment⟩
  | @char c s t hquote hnone h ih =>
    cases hhalt : isHalt c with
    | true =>
      exact ⟨[], c :: s, c :: t, rfl, rfl, List.forall_mem_nil _, halted_cons_iff.2 hhalt,
        halted_cons_iff.2 hhalt, .char hquote hnone h⟩
    | false =>
      obtain ⟨front, u, v, rfl, rfl, hfront, hu, hv, huv⟩ := ih
      exact ⟨c :: front, u, v, rfl, rfl, List.forall_mem_cons.2 ⟨hhalt, hfront⟩, hu, hv, huv⟩
  | @string s n t hclose h =>
    exact ⟨[], '"' :: s, '"' :: (s.take n ++ t), rfl, rfl, List.forall_mem_nil _,
      halted_cons_iff.2 (by decide), halted_cons_iff.2 (by decide), .string hclose h⟩
  | @other s n t hother h =>
    have hhead := (comment?_bounds (h.comment?_append hother)).1
    exact ⟨[], s, s.take n ++ t, rfl, rfl, List.forall_mem_nil _,
      hslash (comment?_bounds hother).1, hslash hhead, .other hother h⟩

/-- A plain character starts neither a string nor a comment. -/
theorem ne_of_isHalt_eq_false {c : Char} (h : isHalt c = false) : c ≠ '"' ∧ c ≠ '/' := by
  constructor <;> rintro rfl <;> exact absurd h (by decide)

/-- The texts still agree behind plain characters. -/
theorem Blanked.append {comment front s t : List Char} (hfront : Plain front)
    (h : Blanked comment s t) : Blanked comment (front ++ s) (front ++ t) := by
  induction front with
  | nil => exact h
  | cons c front ih =>
    obtain ⟨hc, hfront⟩ := List.forall_mem_cons.1 hfront
    obtain ⟨hquote, hslash⟩ := ne_of_isHalt_eq_false hc
    exact .char hquote (comment?_eq_none_of_ne hslash _) (ih hfront)

/-- A token at the front of the two texts: a string, or a first character and plain ones that the
texts agree on. -/
theorem Blanked.cases_token {comment s t : List Char} (h : Blanked comment s t)
    (hblanks : blanks s = 0) :
    (∃ body n rest, s = '"' :: body ∧ t = '"' :: (body.take n ++ rest) ∧
      Lexeme.closeQuote body = some n ∧ Blanked comment (body.drop n) rest) ∨
    ∃ c front u v, s = c :: front ++ u ∧ t = c :: front ++ v ∧ c ≠ '"' ∧ Plain front ∧ Halted u ∧
      Halted v ∧ Blanked comment u v := by
  have hnone {n : Nat} (hcomment : comment? s = some n) : False := by
    cases hcomment.symm.trans (comment?_eq_none_of_blanks hblanks)
  cases h with
  | here hhere => exact (hnone hhere).elim
  | other hother => exact (hnone hother).elim
  | @string s n t hclose h => exact .inl ⟨s, n, t, rfl, rfl, hclose, h⟩
  | @char c s t hquote _ h =>
    obtain ⟨front, u, v, rfl, rfl, hfront, hu, hv, huv⟩ := h.exists_front
    exact .inr ⟨c, front, u, v, rfl, rfl, hquote, hfront, hu, hv, huv⟩

/-- Strings are the only tokens that start with a quote. -/
theorem lexeme_quote {symbol : Symbol} {lexeme : Recogniser}
    (h : language.rule symbol = .token lexeme) (hsymbol : symbol ≠ .stringLit) (s : List Char) :
    lexeme ('"' :: s) = none := by
  cases symbol <;> cases h
  case stringLit => exact absurd rfl hsymbol
  all_goals rfl

/-- Two texts that are not empty get on together. -/
theorem pace_drop {s t : List Char} (hs : s ≠ []) (ht : t ≠ []) (n : Nat) :
    Pace scriptReader scriptReader s (s.drop n) t (t.drop n) := by
  cases n with
  | zero => exact .stay
  | succ n =>
    have := List.length_pos_iff.2 hs
    have := List.length_pos_iff.2 ht
    exact .go (by simp [Language.reader]; omega) (by simp [Language.reader]; omega)

theorem pace_drop_self (s : List Char) (n : Nat) :
    Pace scriptReader scriptReader s (s.drop n) s (s.drop n) := by
  cases s with
  | nil =>
    rw [List.drop_nil]
    exact .stay
  | cons c s => exact pace_drop (List.cons_ne_nil c s) (List.cons_ne_nil c s) n

/-- What is taken from the part that the texts agree on is the same, and they agree as before on
what is left. -/
theorem Blanked.take_drop {comment front u v : List Char} {c : Char}
    (h : Blanked comment (c :: front ++ u) (c :: front ++ v)) (hfront : Plain front)
    (huv : Blanked comment u v) {n : Nat} (hn : n ≤ (c :: front).length) :
    (c :: front ++ u).take n = (c :: front ++ v).take n ∧
      Near comment ((c :: front ++ u).drop n) ((c :: front ++ v).drop n) := by
  refine ⟨by rw [List.take_append_of_le_length hn, List.take_append_of_le_length hn], .inr ?_⟩
  cases n with
  | zero => exact h
  | succ n =>
    rw [List.drop_append_of_le_length hn, List.drop_append_of_le_length hn, List.drop_succ_cons]
    exact huv.append fun d hd ↦ hfront d (List.mem_of_mem_drop hd)

/-- Looking for a token has the same answer on both texts. -/
theorem Blanked.same_token {comment s t : List Char} {symbol : Symbol} {lexeme : Recogniser}
    (h : Blanked comment s t) (hblanks : blanks s = 0)
    (hrule : language.rule symbol = .token lexeme) :
    SameAnswer (fun s' t' ↦ Near comment s' t' ∧ Pace scriptReader scriptReader s s' t t')
      ((lexeme s).map fun n ↦ (s.take n, s.drop n))
      ((lexeme t).map fun n ↦ (t.take n, t.drop n)) := by
  rcases h.cases_token hblanks with ⟨body, n, rest, rfl, rfl, hclose, hrest⟩ |
    ⟨c, front, u, v, rfl, rfl, hquote, hfront, hu, hv, huv⟩
  · by_cases hsymbol : symbol = .stringLit
    · subst hsymbol
      cases hrule
      obtain ⟨hle, hclose'⟩ := closeQuote_append hclose rest
      have hlength : (body.take n).length = n := List.length_take_of_le hle
      have hpace := pace_drop (List.cons_ne_nil '"' body)
        (List.cons_ne_nil '"' (body.take n ++ rest)) (n + 1)
      simp only [Lexeme.quoted, hclose, hclose', Option.map_some, List.take_succ_cons,
        List.drop_succ_cons, List.take_left' hlength, List.drop_left' hlength] at hpace ⊢
      exact .some ⟨.inr hrest, hpace⟩
    · rw [lexeme_quote hrule hsymbol, lexeme_quote hrule hsymbol]
      exact .none
  · by_cases hsymbol : symbol = .stringLit
    · subst hsymbol
      cases hrule
      have hnone (s : List Char) : Lexeme.quoted (c :: s) = none := by
        rw [Lexeme.quoted]
        exact fun _ heq ↦ hquote (List.cons.inj heq).1
      rw [List.cons_append, List.cons_append, hnone, hnone]
      exact .none
    · have hignores := ignoresTail_of_rule hrule hsymbol
      rw [hignores (c :: front) u (List.cons_ne_nil _ _) hu,
        hignores (c :: front) v (List.cons_ne_nil _ _) hv]
      cases hlexeme : lexeme (c :: front) with
      | none => exact .none
      | some n =>
        obtain ⟨htake, hnear⟩ := h.take_drop hfront huv (le_length_of_rule hrule hlexeme)
        rw [Option.map_some, Option.map_some, htake]
        exact .some ⟨hnear, pace_drop (by simp) (by simp) n⟩

/-- Looking for a fixed text has the same answer on both texts. -/
theorem Blanked.same_text {comment s t chars : List Char} (h : Blanked comment s t)
    (hblanks : blanks s = 0) (hplain : Plain chars) :
    Option.Rel (fun s' t' ↦ Near comment s' t' ∧ Pace scriptReader scriptReader s s' t t')
      (if chars.isPrefixOf s then some (s.drop chars.length) else none)
      (if chars.isPrefixOf t then some (t.drop chars.length) else none) := by
  cases chars with
  | nil =>
    simp only [List.isPrefixOf_nil_left, if_true]
    exact .some ⟨.inr h, .stay⟩
  | cons d chars =>
    rcases h.cases_token hblanks with ⟨body, n, rest, rfl, rfl, -, -⟩ |
      ⟨c, front, u, v, rfl, rfl, -, hfront, hu, hv, huv⟩
    · have hne : d ≠ '"' := by
        rintro rfl
        exact absurd (hplain '"' (List.mem_cons_self ..)) (by decide)
      simp only [List.isPrefixOf_cons_cons, beq_eq_false_iff_ne.2 hne, Bool.false_and,
        Bool.false_eq_true, if_false]
      exact .none
    · have hstart {tail : List Char} (htail : Halted tail) :=
        isPrefixOf_append_halted (c :: front) htail hplain
      rw [hstart hu, hstart hv]
      split
      · next hfound =>
        have hle := (List.isPrefixOf_iff_prefix.1 hfound).length_le
        exact .some ⟨(h.take_drop hfront huv hle).2, pace_drop (by simp) (by simp) _⟩
      · exact .none

/-- Reading the changed text is reading the text. -/
theorem blanked_follows (comment : List Char) :
    Follows scriptReader scriptReader Plain (Near comment) (Ready comment) where
  near h := h.1
  skip_eq h := ⟨skip_of_blanks h.2.1, skip_of_blanks h.2.2⟩
  skip h := h.skip
  size_skip_le s := by simp [Language.reader]
  size_skip_le' s := by simp [Language.reader]
  token {s t symbol r} hready h := by
    obtain ⟨lexeme, hrule, rfl⟩ := h
    refine ⟨_, ⟨lexeme, hrule, rfl⟩, ?_⟩
    obtain ⟨rfl | hst, hblanks, -⟩ := hready
    · cases lexeme s with
      | none => exact .none
      | some n => exact .some ⟨.inl rfl, pace_drop_self s n⟩
    · exact hst.same_token hblanks hrule
  text {s t chars r} hplain hready h := by
    refine ⟨_, rfl, ?_⟩
    cases h
    obtain ⟨rfl | hst, hblanks, -⟩ := hready
    · split
      · exact .some ⟨.inl rfl, pace_drop_self s _⟩
      · exact .none
    · exact hst.same_text hblanks hplain

/-! ### Verdicts -/

/-- What the parser says about a text, up to places: the program or the identifier of what is
wrong. -/
def verdict (source : String) : Except String Program :=
  match parse source with
  | .ok program => .ok program.bare
  | .error c => .error c.problem.id

theorem verdict_of_parse_error {source : String} {c : Complaint} (h : parse source = .error c) :
    verdict source = .error c.problem.id := by
  rw [verdict, h]

theorem verdict_of_checkNesting {source : String} (h : checkNesting source.toList ≠ .ok ()) :
    verdict source = .error "SC8078" := by
  obtain ⟨c, hguard, hc⟩ := (checkNesting_cases source.toList).resolve_left h
  rw [verdict_of_parse_error (parse_of_checkNesting hguard), hc]
  rfl

theorem verdict_of_outline {source source' : String}
    (h : outline Program.bare (parse source) = outline Program.bare (parse source')) :
    verdict source = verdict source' := by
  rw [verdict, verdict]
  cases hp : parse source <;> cases hp' : parse source' <;> rw [hp, hp'] at h
  · exact congrArg (fun problem : Problem ↦ Except.error problem.id) (Except.error.inj h)
  · cases h
  · cases h
  · exact congrArg Except.ok (Except.ok.inj h)

/-- Where the guard lets both texts through, the verdict is the same. -/
theorem verdict_of_blanked {source source' : String} {comment : List Char}
    (h : Blanked comment source.toList source'.toList)
    (hguard : checkNesting source.toList = .ok ())
    (hguard' : checkNesting source'.toList = .ok ()) :
    verdict source = verdict source' := by
  obtain ⟨r, hr⟩ := exists_derives scriptBody (scriptReader.skip source.toList)
  obtain ⟨r', hr', hsame⟩ :=
    hr.transfer (blanked_follows comment) plain_of_rule plain_scriptBody (Near.skip (.inr h))
  cases hsame with
  | some _ =>
    exact verdict_of_outline ((outline_parse hguard hr).trans (outline_parse hguard' hr').symm)
  | none =>
    obtain ⟨c, hparse, hc⟩ := parse_error hguard hr
    obtain ⟨c', hparse', hc'⟩ := parse_error hguard' hr'
    rw [verdict_of_parse_error hparse, verdict_of_parse_error hparse', hc, hc']

/-- Where the guard does the same with both texts, the verdict is the same. -/
theorem verdict_of_guard_iff {source source' : String} {comment : List Char}
    (h : Blanked comment source.toList source'.toList)
    (hiff : checkNesting source.toList = .ok () ↔ checkNesting source'.toList = .ok ()) :
    verdict source = verdict source' := by
  by_cases hguard : checkNesting source.toList = .ok ()
  · exact verdict_of_blanked h hguard (hiff.1 hguard)
  · rw [verdict_of_checkNesting hguard, verdict_of_checkNesting (mt hiff.2 hguard)]

/-- A comment counts as a blank just as far as the bracket guard goes: the verdict stays the same if
and only if the guard refuses both texts or neither, or what it lets through is too deep for the
parser as well. -/
theorem verdict_blanked_iff {source source' : String} {comment : List Char}
    (h : Blanked comment source.toList source'.toList) :
    verdict source = verdict source' ↔
      (checkNesting source.toList = .ok () ↔ checkNesting source'.toList = .ok ()) ∨
        verdict source = .error "SC8078" ∧ verdict source' = .error "SC8078" := by
  constructor
  · intro heq
    by_cases hguard : checkNesting source.toList = .ok () <;>
      by_cases hguard' : checkNesting source'.toList = .ok ()
    · exact .inl (iff_of_true hguard hguard')
    · exact .inr ⟨heq.trans (verdict_of_checkNesting hguard'), verdict_of_checkNesting hguard'⟩
    · exact .inr ⟨verdict_of_checkNesting hguard, heq.symm.trans (verdict_of_checkNesting hguard)⟩
    · exact .inl (iff_of_false hguard hguard')
  · rintro (hiff | ⟨hs, ht⟩)
    · exact verdict_of_guard_iff h hiff
    · rw [hs, ht]

/-- A comment with a quoted bracket, right behind a number. -/
theorem verdict_blanked_iff_quoted :
    let comment := "/* \"(\" */"
    let source := "1" ++ (comment ++ "+ 1")
    let source' := "1" ++ (" " ++ "+ 1")
    Blanked comment.toList source.toList source'.toList ∧
      verdict source = verdict source' := by
  intro comment source source'
  have h : Blanked comment.toList source.toList source'.toList := by
    simp only [source, source', String.toList_append]
    exact (Blanked.front (by decide +kernel)).append (by decide +kernel)
  refine ⟨h, (verdict_blanked_iff h).2 (.inl (iff_of_true ?_ ?_))⟩ <;>
    exact checkNesting_eq_ok_iff.2 (by decide +kernel)

/-- Brackets in a comment are refused as too deep, though the comment is a blank to the grammar. -/
theorem verdict_blanked_brackets :
    let comment := "/*" ++ String.ofList (List.replicate 65 '(') ++ "*/"
    Blanked comment.toList (comment ++ "1").toList (" " ++ "1").toList ∧
      verdict (comment ++ "1") = .error "SC8078" ∧
      verdict (" " ++ "1") = .ok ⟨[], some (.literal noSpan (.int 1))⟩ := by
  intro comment
  refine ⟨?_, verdict_of_checkNesting ?_, ?_⟩
  · have hcomment : comment? (comment.toList ++ "1".toList) = some comment.toList.length := by
      decide +kernel
    rw [String.toList_append (s := comment), String.toList_append (s := " ")]
    exact Blanked.front hcomment
  · rw [Ne, checkNesting_eq_ok_iff]
    decide +kernel
  · have he : (Expr.literal noSpan (.int 1)).Printable := by
      show 0 ≤ (1 : Int64).toInt
      decide
    have hspace : ∀ c ∈ [' '], isSeparator c = true := List.forall_mem_singleton.2 rfl
    have htext : Spaced (Expr.literal noSpan (.int 1)).tokens (" " ++ "1").toList :=
      Spaced.next hspace (by simp [Delimited]) (.done (List.forall_mem_nil _))
    have hguard : checkNesting (" " ++ "1").toList = .ok () :=
      checkNesting_eq_ok_iff.2 (by decide +kernel)
    obtain ⟨tree, hparse, hbare⟩ := exists_parse_printed he htext hguard (by decide +kernel)
    rw [verdict, hparse]
    show Except.ok (Program.mk [] (some tree.bare)) = _
    rw [hbare]
    rfl

/-! ### Comments that mean nothing to the guard -/

/-- Without the characters that the bracket guard looks at. -/
def Harmless (chars : List Char) : Prop :=
  ∀ c ∈ chars, c ∉ ['"', '\\', '(', '[', '\x7b', ')', ']', '\x7d']

/-- The guard lets both texts through or neither, from wherever it has got to. -/
def SameGuard (s t : List Char) : Prop :=
  ∀ place place' depth state, excessBracket? maxNesting place depth state s = none ↔
    excessBracket? maxNesting place' depth state t = none

theorem SameGuard.cons {s t : List Char} (h : SameGuard s t) (c : Char) :
    SameGuard (c :: s) (c :: t) := by
  intro place place' depth state
  cases state with
  | outside =>
    simp only [excessBracket?]
    by_cases hquote : c = '"'
    · rw [if_pos hquote, if_pos hquote]
      exact h _ _ _ _
    rw [if_neg hquote, if_neg hquote]
    by_cases hopen : c = '(' ∨ c = '[' ∨ c = '\x7b'
    · rw [if_pos hopen, if_pos hopen]
      by_cases hlimit : maxNesting ≤ depth
      · simp [hlimit]
      · rw [if_neg hlimit, if_neg hlimit]
        exact h _ _ _ _
    rw [if_neg hopen, if_neg hopen]
    split <;> exact h _ _ _ _
  | inside =>
    simp only [excessBracket?]
    split
    · exact h _ _ _ _
    · split <;> exact h _ _ _ _
  | escaped =>
    simp only [excessBracket?]
    exact h _ _ _ _

theorem SameGuard.append {s t : List Char} (front : List Char) (h : SameGuard s t) :
    SameGuard (front ++ s) (front ++ t) := by
  induction front with
  | nil => exact h
  | cons c front ih => exact ih.cons c

/-- The guard does not mind where a text starts. -/
theorem SameGuard.refl (s : List Char) : SameGuard s s := by
  induction s with
  | nil => simp [SameGuard, excessBracket?]
  | cons c s ih => exact ih.cons c

/-- Where the guard is behind characters it does not look at. -/
def QuoteState.passed : QuoteState → QuoteState
  | .escaped => .inside
  | state => state

theorem excessBracket?_harmless {chars : List Char} (h : Harmless chars) (hne : chars ≠ [])
    (place depth : Nat) (state : QuoteState) (s : List Char) :
    excessBracket? maxNesting place depth state (chars ++ s) =
      excessBracket? maxNesting (place + chars.length) depth state.passed s := by
  induction chars generalizing place state with
  | nil => exact absurd rfl hne
  | cons c chars ih =>
    obtain ⟨hc, hchars⟩ := List.forall_mem_cons.1 h
    simp only [List.mem_cons, List.not_mem_nil, or_false, not_or] at hc
    have hstep : excessBracket? maxNesting place depth state (c :: (chars ++ s)) =
        excessBracket? maxNesting (place + 1) depth state.passed (chars ++ s) := by
      rw [excessBracket?.eq_def]
      cases state <;> simp [hc, QuoteState.passed]
    rw [List.cons_append, hstep]
    cases chars with
    | nil => rfl
    | cons d chars =>
      rw [ih hchars (List.cons_ne_nil d chars)]
      cases state <;> simp [QuoteState.passed, Nat.add_comm, Nat.add_left_comm]

theorem Blanked.sameGuard {comment s t : List Char} (h : Blanked comment s t)
    (hcomment : Harmless comment) : SameGuard s t := by
  induction h with
  | @here s n h heq =>
    intro place place' depth state
    obtain ⟨-, hpos, hle⟩ := comment?_bounds h
    have hne : comment ≠ [] := by
      rintro rfl
      have := congrArg List.length heq
      rw [List.length_take_of_le hle] at this
      exact absurd this.symm (Nat.ne_of_gt hpos)
    have hharmless : Harmless [' '] := List.forall_mem_singleton.2 (by decide)
    have hspace := excessBracket?_harmless hharmless (by decide) place' depth state (s.drop n)
    have hs := excessBracket?_harmless hcomment hne place depth state (s.drop n)
    rw [heq, List.take_append_drop] at hs
    rw [hs]
    rw [List.singleton_append] at hspace
    rw [hspace]
    exact SameGuard.refl _ _ _ _ _
  | char _ _ _ ih => exact ih.cons _
  | @string s n t _ _ ih =>
    have hbody := (ih.append (s.take n)).cons '"'
    rwa [List.take_append_drop] at hbody
  | @other s n t _ _ ih =>
    have hother := ih.append (s.take n)
    rwa [List.take_append_drop] at hother

/-- A comment without quotes, backslashes and brackets is a blank. -/
theorem verdict_of_harmless {source source' : String} {comment : List Char}
    (h : Blanked comment source.toList source'.toList) (hcomment : Harmless comment) :
    verdict source = verdict source' := by
  have hguard : checkNesting source.toList = .ok () ↔ checkNesting source'.toList = .ok () := by
    rw [checkNesting_eq_ok_iff, checkNesting_eq_ok_iff]
    exact h.sameGuard hcomment 0 0 0 .outside
  exact verdict_of_guard_iff h hguard

end Snippet.Script
