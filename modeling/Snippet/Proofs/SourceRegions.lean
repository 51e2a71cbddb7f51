import Snippet.Proofs.SoleOperand

/-!
# Strings and comments of a source text

Read from its front, a source text falls into comments, strings and code. A comment or a string goes
on to its end, whatever stands in it; `text_induction` is the induction along these pieces. The code
alone (`code`) has spaces in place of the others, so that it is as long as the text (`length_code`).
-/

namespace Snippet.Script

/-! ### Regions -/

/-- What a character of a source text belongs to. -/
inductive Region where
  | code
  | string
  | comment
  deriving DecidableEq, Repr, Inhabited

/-- The characters with their regions, where the next `left` characters still belong to `region`. A
string that is never closed goes on to the end. -/
def regionsFrom (left : Nat) (region : Region) : List Char → List (Region × Char)
  | [] => []
  | c :: rest =>
    match left with
    | n + 1 => (region, c) :: regionsFrom n region rest
    | 0 =>
      match comment? (c :: rest) with
      | some n => (.comment, c) :: regionsFrom (n - 1) .comment rest
      | none =>
        if c = '"' then
          (.string, c) :: regionsFrom ((Lexeme.closeQuote rest).getD rest.length) .string rest
        else (.code, c) :: regionsFrom 0 .code rest

/-- The characters of a source text with their regions. -/
def regions (s : List Char) : List (Region × Char) :=
  regionsFrom 0 .code s

/-- A character of the code as it is, and a space for any other one. -/
def shown : Region × Char → Char
  | (.code, c) => c
  | _ => ' '

/-- The source text with a space in place of every character of a string or a comment. -/
def code (s : List Char) : List Char :=
  (regions s).map shown

theorem regionsFrom_eq (n : Nat) (region : Region) (s : List Char) :
    regionsFrom n region s = (s.take n).map (region, ·) ++ regions (s.drop n) := by
  induction s generalizing n with
  | nil => simp [regions, regionsFrom]
  | cons c s ih =>
    cases n with
    | zero => rfl
    | succ n =>
      rw [regionsFrom, ih]
      rfl

theorem regions_comment {s : List Char} {n : Nat} (h : comment? s = some n) :
    regions s = (s.take n).map (.comment, ·) ++ regions (s.drop n) := by
  obtain ⟨hslash, hpos, -⟩ := comment?_bounds h
  obtain ⟨rest, rfl⟩ := List.head?_eq_some_iff.1 hslash
  obtain ⟨n, rfl⟩ := Nat.exists_eq_succ_of_ne_zero (Nat.ne_of_gt hpos)
  rw [regions, regionsFrom, h]
  simp only [Nat.succ_sub_one, regionsFrom_eq]
  rfl

theorem regions_string {rest : List Char} {n : Nat} (h : Lexeme.closeQuote rest = some n) :
    regions ('"' :: rest) =
      (('"' :: rest).take (n + 1)).map (.string, ·) ++ regions (rest.drop n) := by
  have hnone : comment? ('"' :: rest) = none := rfl
  rw [regions, regionsFrom, hnone, h]
  simp only [Option.getD_some, regionsFrom_eq]
  rfl

theorem regions_open {rest : List Char} (h : Lexeme.closeQuote rest = none) :
    regions ('"' :: rest) = ('"' :: rest).map (.string, ·) := by
  have hnone : comment? ('"' :: rest) = none := rfl
  rw [regions, regionsFrom, hnone, h]
  simp only [Option.getD_none, regionsFrom_eq, List.take_length, List.drop_length]
  exact congrArg _ (List.append_nil _)

theorem regions_cons {c : Char} {rest : List Char} (hcomment : comment? (c :: rest) = none)
    (hquote : c ≠ '"') : regions (c :: rest) = (.code, c) :: regions rest := by
  rw [regions, regionsFrom, hcomment]
  simp only [if_neg hquote]
  rfl

/-- A source text is followed from its front, over its comments and strings as wholes. -/
theorem text_induction {P : List Char → Prop} (nil : P [])
    (comment : ∀ s n, comment? s = some n → P (s.drop n) → P s)
    (string : ∀ rest n, Lexeme.closeQuote rest = some n → P (rest.drop n) → P ('"' :: rest))
    (unclosed : ∀ rest, Lexeme.closeQuote rest = none → P ('"' :: rest))
    (char : ∀ c rest, comment? (c :: rest) = none → c ≠ '"' → P rest → P (c :: rest))
    (s : List Char) : P s := by
  match s with
  | [] => exact nil
  | c :: rest =>
    cases hcomment : comment? (c :: rest) with
    | some n =>
      have hpos := (comment?_bounds hcomment).2.1
      exact comment _ n hcomment
        (text_induction nil comment string unclosed char ((c :: rest).drop n))
    | none =>
      by_cases hquote : c = '"'
      · subst hquote
        cases hclose : Lexeme.closeQuote rest with
        | some n =>
          exact string rest n hclose
            (text_induction nil comment string unclosed char (rest.drop n))
        | none => exact unclosed rest hclose
      · exact char c rest hcomment hquote
          (text_induction nil comment string unclosed char rest)
termination_by s.length
decreasing_by
  all_goals simp_wf
  all_goals omega

/-- Every character of the text has a region. -/
theorem map_snd_regions (s : List Char) : (regions s).map Prod.snd = s := by
  have hself (region : Region) (s : List Char) : (s.map (region, ·)).map Prod.snd = s := by
    rw [List.map_map]
    exact List.map_id s
  induction s using text_induction with
  | nil => rfl
  | comment s n h ih => rw [regions_comment h, List.map_append, hself, ih, List.take_append_drop]
  | string rest n h ih =>
    rw [regions_string h, List.map_append, hself, ih, List.take_succ_cons, List.cons_append,
      List.take_append_drop]
  | unclosed rest h => rw [regions_open h, hself]
  | char c rest hcomment hquote ih => rw [regions_cons hcomment hquote, List.map_cons, ih]

/-! ### The code alone -/

theorem map_shown {region : Region} (h : region ≠ .code) (s : List Char) :
    (s.map (region, ·)).map shown = List.replicate s.length ' ' := by
  have hshown (c : Char) : shown (region, c) = ' ' := by
    cases region with
    | code => exact absurd rfl h
    | string | comment => rfl
  simp [Function.comp_def, hshown, List.map_const']

theorem code_comment {s : List Char} {n : Nat} (h : comment? s = some n) :
    code s = List.replicate n ' ' ++ code (s.drop n) := by
  rw [code, regions_comment h, List.map_append, map_shown (by decide),
    List.length_take_of_le (comment?_bounds h).2.2]
  rfl

theorem code_string {rest : List Char} {n : Nat} (h : Lexeme.closeQuote rest = some n) :
    code ('"' :: rest) = List.replicate (n + 1) ' ' ++ code (rest.drop n) := by
  have hle : n + 1 ≤ ('"' :: rest).length := Nat.succ_le_succ (closeQuote_append h []).1
  rw [code, regions_string h, List.map_append, map_shown (by decide), List.length_take_of_le hle]
  rfl

theorem code_open {rest : List Char} (h : Lexeme.closeQuote rest = none) :
    code ('"' :: rest) = List.replicate (rest.length + 1) ' ' := by
  rw [code, regions_open h, map_shown (by decide)]
  rfl

theorem code_cons {c : Char} {rest : List Char} (hcomment : comment? (c :: rest) = none)
    (hquote : c ≠ '"') : code (c :: rest) = c :: code rest := by
  rw [code, regions_cons hcomment hquote]
  rfl

/-- No quote stands in the code. -/
theorem ne_quote_of_mem_code {s : List Char} {c : Char} (h : c ∈ code s) : c ≠ '"' := by
  have hspace : ' ' ≠ '"' := by decide
  induction s using text_induction with
  | nil => cases h
  | comment s n hcomment ih =>
    rw [code_comment hcomment, List.mem_append] at h
    exact h.elim (fun h ↦ List.eq_of_mem_replicate h ▸ hspace) ih
  | string rest n hclose ih =>
    rw [code_string hclose, List.mem_append] at h
    exact h.elim (fun h ↦ List.eq_of_mem_replicate h ▸ hspace) ih
  | unclosed rest hclose =>
    rw [code_open hclose] at h
    exact List.eq_of_mem_replicate h ▸ hspace
  | char d rest hcomment hquote ih =>
    rw [code_cons hcomment hquote] at h
    rcases List.mem_cons.1 h with rfl | h
    · exact hquote
    · exact ih h

end Snippet.Script
