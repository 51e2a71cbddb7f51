import Snippet.Proofs.BracketDepth

/-!
# Brackets of scripts

In the code of a text that is parsed, every bracket is closed behind where it is opened, by a
bracket of some kind (`depthBehind_code`). Each phrase of the grammar closes the brackets it opens
(`balanced_of_rule`), no token but strings has brackets in it (`tame_of_rule`), and neither have
blanks. So reading a phrase leaves the depth of the code as it is, whatever the phrase is made of
(`passes_of_derives`, by induction on the derivation).
-/

namespace Snippet.Script

open Grammar

/-! ### Patterns -/

/-- How many brackets are open behind what a pattern matches, as far as its fixed texts tell: all
ways to match it end with the same. -/
def patternDepth : Pattern Symbol → Nat → Option Nat
  | .text chars, depth => depthBehind depth chars
  | .call _, depth | .absent _, depth => some depth
  | .seq a b, depth => (patternDepth a depth).bind (patternDepth b)
  | .choice a b, depth =>
    if patternDepth a depth = patternDepth b depth then patternDepth a depth else none
  | .optional a, depth | .many a, depth =>
    if patternDepth a depth = some depth then some depth else none

theorem patternDepth_choice {a b : Pattern Symbol} {d e : Nat}
    (h : patternDepth (.choice a b) d = some e) :
    patternDepth a d = some e ∧ patternDepth b d = some e := by
  rw [patternDepth] at h
  split at h
  · next heq => exact ⟨h, heq ▸ h⟩
  · cases h

/-- What may be there or not leaves the depth as it is. -/
theorem eq_of_ite_eq_some {a : Pattern Symbol} {d e : Nat}
    (h : (if patternDepth a d = some d then some d else none) = some e) :
    patternDepth a d = some d ∧ e = d := by
  split at h
  · next heq => exact ⟨heq, (Option.some.inj h).symm⟩
  · cases h

/-- Every phrase closes the brackets it opens. -/
theorem balanced_of_rule {symbol : Symbol} {body : Pattern Symbol}
    (h : language.rule symbol = .phrase true body) : patternDepth body 0 = some 0 := by
  cases symbol <;> cases h <;> rfl

theorem balanced_scriptBody : patternDepth scriptBody 0 = some 0 :=
  rfl

/-! ### Tokens -/

/-- The characters of a token that is no string: no brackets, and only the first one may be a
character that ends tokens. -/
structure Tame (token : List Char) : Prop where
  bracketless : Bracketless token
  quote : token.head? ≠ some '"'
  plain : Plain token.tail

instance (token : List Char) : Decidable (Tame token) :=
  decidable_of_iff (Bracketless token ∧ token.head? ≠ some '"' ∧ Plain token.tail)
    ⟨fun h ↦ ⟨h.1, h.2.1, h.2.2⟩, fun h ↦ ⟨h.1, h.2, h.3⟩⟩

/-- Letters, digits, underscores and points are tame. -/
theorem tame_of_forall {token : List Char} (h : ∀ c ∈ token, (isWordChar c || c == '.') = true) :
    Tame token := by
  have hplain : Plain token := fun c hc ↦ by
    rcases Bool.or_eq_true_iff.1 (h c hc) with hword | hpoint
    · exact isHalt_eq_false_of_isWordChar hword
    · rw [beq_iff_eq.1 hpoint]
      decide
  refine ⟨bracketless_of_forall (by decide) h, fun hquote ↦ ?_,
    fun c hc ↦ hplain c (List.mem_of_mem_tail hc)⟩
  exact absurd (hplain '"' (List.mem_of_mem_head? hquote)) (by decide)

theorem tame_word (s : List Char) : Tame (s.take (spanLength isWordChar s)) :=
  tame_of_forall fun _ hc ↦ by rw [of_mem_take_spanLength hc, Bool.true_or]

theorem isWordChar_of_mem_digits {s : List Char} {c : Char}
    (h : c ∈ s.take (spanLength Char.isDigit s)) : isWordChar c = true :=
  isWordChar_of_isDigit (of_mem_take_spanLength h)

theorem tame_digits (s : List Char) : Tame (s.take (spanLength Char.isDigit s)) :=
  tame_of_forall fun _ hc ↦ by rw [isWordChar_of_mem_digits hc, Bool.true_or]

theorem tame_fraction {s : List Char} {n : Nat} (h : Lexeme.fraction s = some n) :
    Tame (s.take n) := by
  obtain ⟨rest, hdrop, rfl⟩ := fraction_eq_some h
  refine tame_of_forall fun c hc ↦ ?_
  rw [List.take_add, hdrop, List.take_succ_cons] at hc
  rcases List.mem_append.1 hc with hc | hc
  · rw [isWordChar_of_mem_digits hc, Bool.true_or]
  · rcases List.mem_cons.1 hc with rfl | hc
    · rfl
    · rw [isWordChar_of_mem_digits hc, Bool.true_or]

theorem tame_of_prefix {lexemes : List String} (htame : ∀ lexeme ∈ lexemes, Tame lexeme.toList)
    {s : List Char} {n : Nat}
    (h : ∃ lexeme ∈ lexemes, lexeme.toList <+: s ∧ n = lexeme.toList.length) :
    Tame (s.take n) := by
  obtain ⟨lexeme, hmem, hstart, rfl⟩ := h
  rw [← List.prefix_iff_eq_take.1 hstart]
  exact htame lexeme hmem

/-- What is taken for a token that is no string is tame. -/
theorem tame_of_rule {symbol : Symbol} {lexeme : Recogniser}
    (h : language.rule symbol = .token lexeme) (hsymbol : symbol ≠ .stringLit) {s : List Char}
    {n : Nat} (hn : lexeme s = some n) : Tame (s.take n) := by
  cases symbol <;> cases h
  case stringLit => exact absurd rfl hsymbol
  case floatLit => exact tame_fraction hn
  case intLit => exact integer_eq_some hn ▸ tame_digits s
  case ident => exact name_eq_some hn ▸ tame_word s
  case assignOp => exact tame_of_prefix (by decide) (assignment_eq_some hn)
  case ending =>
    cases s <;> cases hn
    decide
  case orOp | andOp | semi =>
    exact tame_of_prefix (by decide) ⟨_, List.mem_singleton_self _, exactly_eq_some hn⟩
  case eqOp | cmpOp | addOp | mulOp | unaryOp => exact tame_of_prefix (by decide) (oneOf_eq_some hn)
  all_goals exact word_eq_some hn ▸ tame_word s

/-! ### Reading along the code -/

/-- From a text to what is left of it, the code goes from one depth of brackets to another. -/
def Passes (depth : Nat) (s : List Char) (depth' : Nat) (t : List Char) : Prop :=
  ∃ front, code s = front ++ code t ∧ depthBehind depth front = some depth'

namespace Passes

variable {d e f : Nat} {s t u : List Char}

theorem refl (d : Nat) (s : List Char) : Passes d s d s :=
  ⟨[], rfl, rfl⟩

theorem trans (h : Passes d s e t) (h' : Passes e t f u) : Passes d s f u := by
  obtain ⟨front, hcode, hdepth⟩ := h
  obtain ⟨front', hcode', hdepth'⟩ := h'
  exact ⟨front ++ front', by rw [hcode, hcode', List.append_assoc],
    depthBehind_append.2 ⟨e, hdepth, hdepth'⟩⟩

theorem add (h : Passes d s e t) (k : Nat) : Passes (d + k) s (e + k) t := by
  obtain ⟨front, hcode, hdepth⟩ := h
  exact ⟨front, hcode, depthBehind_add hdepth k⟩

theorem of_bracketless {front : List Char} (h : Bracketless front)
    (hcode : code s = front ++ code t)
    (d : Nat) : Passes d s d t :=
  ⟨front, hcode, h.depthBehind d⟩

end Passes

theorem code_plain {chars : List Char} (h : Plain chars) (s : List Char) :
    code (chars ++ s) = chars ++ code s := by
  induction chars with
  | nil => rfl
  | cons c chars ih =>
    obtain ⟨hc, hchars⟩ := List.forall_mem_cons.1 h
    obtain ⟨hquote, hslash⟩ := ne_of_isHalt_eq_false hc
    rw [List.cons_append, code_cons (comment?_eq_none_of_ne hslash _) hquote, ih hchars]
    rfl

theorem Tame.code_append {token s : List Char} (h : Tame token) (hs : blanks (token ++ s) = 0) :
    code (token ++ s) = token ++ code s := by
  have hcomment := comment?_eq_none_of_blanks hs
  cases token with
  | nil => rfl
  | cons c token =>
    have hquote : c ≠ '"' := fun hc ↦ h.quote (hc ▸ rfl)
    rw [List.cons_append] at hcomment
    have hplain : Plain token := h.plain
    rw [List.cons_append, code_cons hcomment hquote, code_plain hplain]
    rfl

/-- A token leaves the depth as it is. -/
theorem passes_token {symbol : Symbol} {lexeme : Recogniser}
    (hrule : language.rule symbol = .token lexeme) {s : List Char} (hs : blanks s = 0) {n : Nat}
    (hn : lexeme s = some n) (d : Nat) : Passes d s d (s.drop n) := by
  by_cases hsymbol : symbol = .stringLit
  · subst hsymbol
    cases hrule
    obtain ⟨rest, m, rfl, hclose, rfl⟩ := quoted_eq_some hn
    exact .of_bracketless (bracketless_spaces _) (code_string hclose) d
  · have htame := tame_of_rule hrule hsymbol hn
    rw [← List.take_append_drop n s] at hs
    have hcode := htame.code_append hs
    rw [List.take_append_drop] at hcode
    exact .of_bracketless htame.bracketless hcode d

/-- A fixed text takes the depth along. -/
theorem passes_text {chars s : List Char} (hchars : Plain chars)
    (hstart : chars.isPrefixOf s = true)
    {d e : Nat} (hd : depthBehind d chars = some e) : Passes d s e (s.drop chars.length) := by
  obtain ⟨rest, rfl⟩ := List.isPrefixOf_iff_prefix.1 hstart
  rw [List.drop_left]
  exact ⟨chars, code_plain hchars rest, hd⟩

/-- Blanks leave the depth as it is. -/
theorem passes_skip (d : Nat) (s : List Char) : Passes d s d (scriptReader.skip s) := by
  have hstay {s : List Char} (h : blanks s = 0) : Passes d s d (scriptReader.skip s) := by
    rw [skip_of_blanks h]
    exact .refl d s
  induction s using text_induction with
  | nil => exact hstay rfl
  | comment s n hcomment ih =>
    rw [skip_of_comment hcomment]
    exact (Passes.of_bracketless (bracketless_spaces n) (code_comment hcomment) d).trans ih
  | string rest | unclosed rest => exact hstay (blanks_eq_zero (by simp [isSeparator]) rfl)
  | char c rest hcomment hquote ih =>
    cases hseparator : isSeparator c with
    | true =>
      have hgap : ∀ d ∈ [c], isSeparator d = true := List.forall_mem_singleton.2 hseparator
      rw [← List.singleton_append, skip_append hgap]
      exact (Passes.of_bracketless (bracketless_of_forall (by decide) hgap)
        (code_cons hcomment hquote) d).trans ih
    | false => exact hstay (blanks_eq_zero (by simpa using hseparator) hcomment)

/-- What a pattern matches takes the code to the depth that the fixed texts of the pattern tell. -/
theorem passes_of_derives {p : Pattern Symbol} {s : List Char}
    {r : Option (List (Node Symbol) × List Char)} (h : Derives language scriptReader p s r)
    (hs : blanks s = 0) (hp : p.TextsIn Plain) {nodes : List (Node Symbol)} {t : List Char}
    (hr : r = some (nodes, t)) {d e : Nat} (hd : patternDepth p d = some e) : Passes d s e t := by
  induction h generalizing nodes t d e with
  | text h =>
    cases hr
    simp only [Language.reader] at h
    split at h
    · next hstart =>
      cases h
      exact passes_text hp hstart hd
    · cases h
  | token h =>
    cases hr
    cases hd
    obtain ⟨lexeme, hrule, h⟩ := h
    obtain ⟨n, hn, heq⟩ := Option.map_eq_some_iff.1 h.symm
    cases heq
    exact passes_token hrule hs hn d
  | phrase hrule h ih =>
    cases hr
    cases hd
    have hbody := (ih hs (plain_of_rule hrule) rfl (balanced_of_rule hrule)).add d
    rwa [Nat.zero_add] at hbody
  | seq ha hb iha ihb =>
    cases hr
    obtain ⟨m, hm, hd⟩ := Option.bind_eq_some_iff.1 hd
    have hsecond := ihb (blanks_drop_blanks _) hp.2 rfl hd
    exact (iha hs hp.1 rfl hm).trans ((passes_skip m _).trans hsecond)
  | left ha iha => exact iha hs hp.1 hr (patternDepth_choice hd).1
  | right ha hb iha ihb => exact ihb hs hp.2 hr (patternDepth_choice hd).2
  | present h ih =>
    obtain ⟨ha, rfl⟩ := eq_of_ite_eq_some hd
    exact ih hs hp hr ha
  | missing | done =>
    cases hr
    obtain ⟨-, rfl⟩ := eq_of_ite_eq_some hd
    exact .refl e _
  | stuck h hsize ih | last h hsize hmore hlast ih =>
    obtain ⟨ha, rfl⟩ := eq_of_ite_eq_some hd
    exact ih hs hp hr ha
  | more h hsize hmore hnext ih ihmore =>
    cases hr
    obtain ⟨ha, rfl⟩ := eq_of_ite_eq_some hd
    have hrest := ihmore (blanks_drop_blanks _) hp rfl hd
    exact (ih hs hp rfl ha).trans ((passes_skip e _).trans hrest)
  | notFound =>
    cases hr
    cases hd
    exact .refl d _
  | noText | noToken | noPhrase | noFirst | noSecond | found => cases hr

/-- A script is read to its end. -/
theorem eq_nil_of_takes_scriptBody {s t : List Char} {nodes : List (Node Symbol)}
    (h : Takes scriptBody s nodes t) : t = [] := by
  obtain ⟨_, _, _, -, -, hrest⟩ := exists_seq h
  obtain ⟨_, u, _, -, -, hending⟩ := exists_seq hrest
  generalize scriptReader.skip u = v at hending
  cases hending with
  | token h =>
    obtain ⟨lexeme, hrule, h⟩ := h
    cases hrule
    cases v with
    | nil => cases h; rfl
    | cons => cases h
  | phrase hrule => cases hrule

/-- Where a script is found, all brackets of the code are closed, each behind where it is opened. -/
theorem depthBehind_of_takes {s t : List Char} {nodes : List (Node Symbol)}
    (h : Takes scriptBody (scriptReader.skip s) nodes t) : depthBehind 0 (code s) = some 0 := by
  obtain rfl := eq_nil_of_takes_scriptBody h
  have hpasses := (passes_skip 0 s).trans
    (passes_of_derives h (blanks_drop_blanks _) plain_scriptBody rfl balanced_scriptBody)
  obtain ⟨front, hcode, hdepth⟩ := hpasses
  rw [hcode, depthBehind_append]
  exact ⟨0, hdepth, rfl⟩

/-- In the code of a text that is parsed, all brackets are closed, behind where they are opened. -/
theorem depthBehind_code {source : String} {program : Program} (h : parse source = .ok program) :
    depthBehind 0 (code source.toList) = some 0 := by
  obtain ⟨r, hr⟩ := exists_derives scriptBody (scriptReader.skip source.toList)
  rcases r with - | ⟨nodes, t⟩
  · obtain ⟨c, herror, -⟩ := parse_error (checkNesting_of_parse h) hr
    cases herror.symm.trans h
  · exact depthBehind_of_takes hr

end Snippet.Script
