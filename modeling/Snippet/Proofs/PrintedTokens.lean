import Snippet.Proofs.Layout
import Snippet.Proofs.Printing
import Snippet.Proofs.StringBodies

/-!
# The tokens of printed expressions

What the lexemes of the grammar see in the tokens that printing uses: names, literals and marks.
Every one of them stands whole between separators (`whole_of_mem_tokens`).
-/

namespace Snippet.Script

open Grammar

/-! ### Names -/

theorem isHalt_eq_false_of_isWordChar {c : Char} (h : isWordChar c = true) : isHalt c = false := by
  cases hc : isHalt c
  · rfl
  · simpa [h] using isWordChar_eq_false hc

/-- A name starts with a letter or an underscore and consists of word characters. -/
theorem isName_cases {name : String} (h : isName name = true) :
    ∃ c rest, name.toList = c :: rest ∧ (c.isAlpha = true ∨ c = '_') ∧
      (∀ d ∈ name.toList, isWordChar d = true) ∧ name ∉ keywords := by
  unfold isName at h
  split at h
  · cases h
  · next c rest heq =>
    simp only [Bool.and_eq_true, Bool.or_eq_true, beq_iff_eq, List.all_eq_true, Bool.not_eq_true',
      List.contains_iff_mem, ← Bool.not_eq_true] at h
    obtain ⟨⟨hc, hrest⟩, hkeyword⟩ := h
    refine ⟨c, rest, heq, hc, ?_, hkeyword⟩
    rw [heq]
    intro d hd
    rcases List.mem_cons.1 hd with rfl | hd
    · rcases hc with hc | rfl
      · simp [isWordChar, Char.isAlphanum, hc]
      · decide
    · exact hrest d hd

theorem wordAt_eq_self {s : List Char} (h : ∀ c ∈ s, isWordChar c = true) : wordAt s = s :=
  (congrArg wordAt (List.append_nil s).symm).trans
    ((List.takeWhile_append_of_pos h).trans (List.append_nil s))

/-- No word of a list of keywords is a name. -/
theorem word_name {words : List String} (hwords : ∀ w ∈ words, w ∈ keywords) {name : String}
    (h : isName name = true) : Lexeme.word words name.toList = none := by
  obtain ⟨_, _, -, -, hword, hkeyword⟩ := isName_cases h
  simp only [Lexeme.word, wordAt_eq_self hword]
  rw [if_neg]
  simp only [List.any_eq_true, beq_iff_eq, not_exists, not_and]
  rintro w hw heq
  exact hkeyword (String.toList_inj.1 heq ▸ hwords w hw)

theorem isDigit_eq_false_of_isAlpha {c : Char} (h : c.isAlpha = true ∨ c = '_') :
    c.isDigit = false := by
  rcases h with h | rfl
  · have halpha : c.isAlpha = (decide (65 ≤ c.toNat ∧ c.toNat ≤ 90) ||
        decide (97 ≤ c.toNat) && decide (c.toNat ≤ 122)) := rfl
    have hdigit : c.isDigit = (decide (48 ≤ c.toNat) && decide (c.toNat ≤ 57)) := rfl
    simp only [halpha, Bool.or_eq_true, Bool.and_eq_true, decide_eq_true_eq] at h
    simp only [hdigit, Bool.and_eq_false_iff, decide_eq_false_iff_not]
    omega
  · rfl

/-- A name is read as one. -/
theorem name_name {name : String} (h : isName name = true) :
    Lexeme.name name.toList = some name.toList.length := by
  obtain ⟨c, rest, heq, hc, hword, hkeyword⟩ := isName_cases h
  simp only [Lexeme.name, wordAt_eq_self hword]
  rw [heq]
  simp only
  rw [if_neg]
  simp only [isDigit_eq_false_of_isAlpha hc, Bool.false_eq_true, false_or, List.any_eq_true,
    beq_iff_eq, not_exists, not_and, Bool.or_eq_true]
  rintro w hw hw'
  rw [← heq] at hw'
  exact hkeyword (String.toList_inj.1 hw' ▸ hw)

/-! ### Marks and other tokens -/

/-- Whether a text starts with a character that stands in no word. -/
def startsWithMark : List Char → Bool
  | [] => false
  | c :: _ => !isWordChar c

/-- A mark is not found at the front of a word or number. -/
theorem isPrefixOf_mark {chars token : List Char} (hchars : startsWithMark chars = true)
    (htoken : startsWithMark token = false) : chars.isPrefixOf token = false := by
  cases chars with
  | nil => cases hchars
  | cons c chars =>
    cases token with
    | nil => rfl
    | cons d token =>
      have hne : c ≠ d := by
        rintro rfl
        exact absurd (hchars.symm.trans htoken) (by decide)
      simp [List.isPrefixOf, hne]

theorem exactly_mark {lexeme : String} (hlexeme : startsWithMark lexeme.toList = true)
    {token : List Char} (htoken : startsWithMark token = false) :
    Lexeme.exactly lexeme token = none := by
  simp [Lexeme.exactly, isPrefixOf_mark hlexeme htoken]

theorem oneOf_mark {lexemes : List String}
    (hlexemes : ∀ l ∈ lexemes, startsWithMark l.toList = true)
    {token : List Char} (htoken : startsWithMark token = false) :
    Lexeme.oneOf lexemes token = none := by
  simp only [Lexeme.oneOf, List.findSome?_eq_none_iff]
  exact fun l hl ↦ exactly_mark (hlexemes l hl) htoken

theorem startsWithMark_name {name : String} (h : isName name = true) :
    startsWithMark name.toList = false := by
  obtain ⟨c, rest, heq, -, hword, -⟩ := isName_cases h
  simp [startsWithMark, heq, hword c (by simp [heq])]

/-- A text that does not start with a digit starts with no number. -/
theorem spanLength_eq_zero {c : Char} (h : c.isDigit = false) (rest : List Char) :
    spanLength Char.isDigit (c :: rest) = 0 := by
  simp [spanLength, h]

theorem integer_eq_none {c : Char} (h : c.isDigit = false) (rest : List Char) :
    Lexeme.integer (c :: rest) = none := by
  simp [Lexeme.integer, spanLength_eq_zero h]

theorem fraction_eq_none {c : Char} (h : c.isDigit = false) (rest : List Char) :
    Lexeme.fraction (c :: rest) = none := by
  simp [Lexeme.fraction, spanLength_eq_zero h]

/-! ### Numbers -/

/-- Digits that are one number where `tail` follows them: neither another digit does, nor a point
and a digit. -/
structure Number (digits tail : List Char) : Prop where
  ne_nil : digits ≠ []
  digit : ∀ c ∈ digits, c.isDigit = true
  whole : ∀ c ∈ tail.head?, c.isDigit = false
  point : ∀ c rest, tail = '.' :: c :: rest → c.isDigit = false

namespace Number

variable {digits tail : List Char}

theorem exists_cons (h : Number digits tail) :
    ∃ c rest, digits = c :: rest ∧ c.isDigit = true := by
  obtain ⟨c, rest, rfl⟩ := List.exists_cons_of_ne_nil h.ne_nil
  exact ⟨c, rest, rfl, h.digit c (List.mem_cons_self ..)⟩

theorem spanLength (h : Number digits tail) :
    spanLength Char.isDigit (digits ++ tail) = digits.length := by
  rw [Script.spanLength, List.takeWhile_append_of_pos h.digit]
  cases tail with
  | nil => simp
  | cons c tail => simp [h.whole c rfl]

theorem integer (h : Number digits tail) :
    Lexeme.integer (digits ++ tail) = some digits.length := by
  have hpos := List.length_pos_iff.2 h.ne_nil
  rw [Lexeme.integer, h.spanLength]
  split
  · omega
  · rfl

theorem fraction (h : Number digits tail) : Lexeme.fraction (digits ++ tail) = none := by
  rw [Lexeme.fraction, h.spanLength]
  split
  · rfl
  · rw [List.drop_left]
    split
    · next rest =>
      have hzero : Script.spanLength Char.isDigit rest = 0 := by
        cases rest with
        | nil => rfl
        | cons c rest => exact spanLength_eq_zero (h.point c rest rfl) rest
      simp only [hzero]
    · rfl

theorem startsWithMark (h : Number digits tail) : startsWithMark (digits ++ tail) = false := by
  obtain ⟨c, rest, rfl, hc⟩ := h.exists_cons
  simp [Script.startsWithMark, isWordChar_of_isDigit hc]

/-- The word at the front starts with a digit. -/
theorem wordAt (h : Number digits tail) :
    ∃ c rest, wordAt (digits ++ tail) = c :: rest ∧ c.isDigit = true := by
  obtain ⟨c, rest, rfl, hc⟩ := h.exists_cons
  exact ⟨c, _, by rw [Script.wordAt, List.cons_append,
    List.takeWhile_cons_of_pos (isWordChar_of_isDigit hc)], hc⟩

/-- No word that starts with something else than a digit is a number. -/
theorem word (h : Number digits tail) {words : List String}
    (hwords : ∀ w ∈ words, w.toList.head?.any Char.isDigit = false) :
    Lexeme.word words (digits ++ tail) = none := by
  obtain ⟨c, rest, heq, hc⟩ := h.wordAt
  simp only [Lexeme.word]
  rw [if_neg]
  simp only [List.any_eq_true, beq_iff_eq, not_exists, not_and]
  rintro w hw hw'
  simpa [hw', heq, hc] using hwords w hw

theorem name (h : Number digits tail) : Lexeme.name (digits ++ tail) = none := by
  obtain ⟨c, rest, heq, hc⟩ := h.wordAt
  simp only [Lexeme.name, heq, hc, Bool.true_or, if_true]

end Number

theorem number_digits (n : Nat) : Number (Nat.toDigits 10 n) [] where
  ne_nil := Nat.toDigits_ne_nil
  digit _ h := Nat.isDigit_of_mem_toDigits (by decide) (by decide) h
  whole _ h := nomatch h
  point _ _ h := nomatch h

/-- Digits are read back as the number they were written for. -/
theorem digitsValue_digits (n : Nat) : digitsValue (Nat.toDigits 10 n) = n :=
  Nat.ofDigitChars_ten_toDigits

/-! ### Strings -/

/-- A written string body spells the string it was written for. -/
theorem spells_escaped (s : List Char) : Spells (Literal.escaped s) s := by
  induction s with
  | nil => exact .nil
  | cons c s ih =>
    rw [Literal.escaped]
    split
    · next hc => exact .escape (by rcases hc with rfl | rfl <;> decide) ih
    · next hc =>
      rw [not_or] at hc
      exact .plain hc.1 hc.2 ih

/-- A written string is one token, whatever stands behind it. -/
theorem quoted_spelling (s tail : List Char) :
    Lexeme.quoted ('"' :: (Literal.escaped s ++ ['"']) ++ tail) =
      some ('"' :: (Literal.escaped s ++ ['"'])).length := by
  simpa using (spells_escaped s).quotedBody.quoted tail

/-! ### Whole tokens -/

/-- A text that starts with no separator, slash or quote is whole. -/
theorem whole_of_head {token : List Char} (h : token.head?.any (!isHalt ·) = true) :
    Whole token := by
  cases token with
  | nil => cases h
  | cons c rest =>
    simp only [List.head?_cons, Option.any_some, isHalt, Bool.not_eq_true', Bool.or_eq_false_iff,
      beq_eq_false_iff_ne] at h
    obtain ⟨⟨hseparator, hslash⟩, hquote⟩ := h
    refine ⟨by simp, by simpa using hseparator, fun tail _ ↦ ?_, fun tail ↦ ?_⟩
    · rw [List.cons_append, comment?]
      all_goals simp_all
    · rw [List.cons_append, Lexeme.quoted, Lexeme.quoted]
      all_goals simp_all

theorem whole_name {name : String} (h : isName name = true) : Whole name.toList := by
  obtain ⟨c, rest, heq, -, hword, -⟩ := isName_cases h
  apply whole_of_head
  simp [heq, isHalt_eq_false_of_isWordChar (hword c (by simp [heq]))]

theorem whole_digits (n : Nat) : Whole (Nat.toDigits 10 n) := by
  obtain ⟨c, rest, heq, hc⟩ := (number_digits n).exists_cons
  apply whole_of_head
  simp [heq, isHalt_eq_false_of_isWordChar (isWordChar_of_isDigit hc)]

theorem whole_quoted (s : List Char) : Whole ('"' :: (Literal.escaped s ++ ['"'])) where
  ne_nil := by simp
  not_separator := by simp [isSeparator]
  not_comment _ _ := rfl
  quoted tail := by
    rw [quoted_spelling s tail]
    simpa using (quoted_spelling s []).symm

/-- A slash with a separator behind it starts no comment. -/
theorem whole_slash : Whole "/".toList where
  ne_nil := by decide
  not_separator _ hc := by
    cases hc
    rfl
  not_comment tail htail := by
    cases tail with
    | nil => rfl
    | cons c tail =>
      have hc := htail c rfl
      have hslash : c ≠ '/' := by rintro rfl; exact absurd hc (by decide)
      have hstar : c ≠ '*' := by rintro rfl; exact absurd hc (by decide)
      show comment? ('/' :: c :: tail) = none
      rw [comment?] <;> simp_all
  quoted _ := rfl

theorem whole_binary (op : BinaryOp) : Whole op.symbol.toList := by
  cases op
  case div => exact whole_slash
  all_goals exact whole_of_head (by decide)

theorem whole_unary (op : UnaryOp) : Whole op.symbol.toList := by
  cases op <;> exact whole_of_head (by decide)

theorem whole_spelling {value : Literal} (h : value.Printable) : Whole value.spelling := by
  match value, h with
  | .null, _ => exact whole_of_head (by decide)
  | .bool true, _ => exact whole_of_head (by decide)
  | .bool false, _ => exact whole_of_head (by decide)
  | .int _, _ => exact whole_digits _
  | .string _, _ => exact whole_quoted _

namespace Expr

/-- Parentheses are whole tokens. -/
theorem forall_mem_enclose {start : Bool} {min : Nat} {e : Expr} {inner : Bool → List (List Char)}
    {P : List Char → Prop} (hopen : P "(".toList) (hclose : P ")".toList)
    (h : ∀ s, ∀ t ∈ inner s, P t) : ∀ t ∈ e.enclose start min inner, P t := by
  unfold enclose
  split
  · intro t ht
    simp only [List.mem_cons, List.mem_append, List.not_mem_nil, or_false] at ht
    rcases ht with rfl | ht | rfl
    · exact hopen
    · exact h _ t ht
    · exact hclose
  · exact h _

mutual

/-- Printing writes whole tokens. -/
theorem whole_of_mem_inner (start : Bool) (e : Expr) (he : e.Printable) :
    ∀ t ∈ e.inner start, Whole t := by
  have hmark {t : List Char} (ht : t.head?.any (!isHalt ·) = true) : Whole t := whole_of_head ht
  have henclose {start : Bool} {min : Nat} {e : Expr} {inner : Bool → List (List Char)}
      (h : ∀ s, ∀ t ∈ inner s, Whole t) : ∀ t ∈ e.enclose start min inner, Whole t :=
    forall_mem_enclose (hmark (by decide)) (hmark (by decide)) h
  cases e with
  | literal _ value =>
    simpa [inner] using whole_spelling he
  | name _ n => simpa [inner] using whole_name he
  | list _ items =>
    have hitems := whole_of_mem_innerAll items he
    simp only [inner, List.forall_mem_cons, List.forall_mem_append]
    exact ⟨hmark (by decide), fun t ht ↦ hitems t (List.mem_of_mem_drop ht), hmark (by decide),
      List.forall_mem_nil _⟩
  | map _ entries =>
    have hentries := whole_of_mem_innerEntries entries he
    simp only [inner, List.forall_mem_cons, List.forall_mem_append]
    exact ⟨hmark (by decide), fun t ht ↦ hentries t (List.mem_of_mem_drop ht), hmark (by decide),
      List.forall_mem_nil _⟩
  | unary _ op operand =>
    simp only [inner, List.forall_mem_cons]
    exact ⟨whole_unary op, henclose fun s ↦ whole_of_mem_inner s operand he⟩
  | binary _ op lhs rhs =>
    simp only [inner, List.forall_mem_cons, List.forall_mem_append]
    exact ⟨henclose fun s ↦ whole_of_mem_inner s lhs he.1, whole_binary op,
      henclose fun s ↦ whole_of_mem_inner s rhs he.2⟩
  | ternary _ cond yes no =>
    simp only [inner, List.forall_mem_cons, List.forall_mem_append]
    exact ⟨henclose fun s ↦ whole_of_mem_inner s cond he.1, hmark (by decide),
      whole_of_mem_inner false yes he.2.1, hmark (by decide), whole_of_mem_inner false no he.2.2⟩
  | call _ callee args =>
    have hargs := whole_of_mem_innerAll args he.2
    simp only [inner, List.forall_mem_cons, List.forall_mem_append]
    exact ⟨henclose fun s ↦ whole_of_mem_inner s callee he.1, hmark (by decide),
      fun t ht ↦ hargs t (List.mem_of_mem_drop ht), hmark (by decide), List.forall_mem_nil _⟩
  | index _ target i =>
    simp only [inner, List.forall_mem_cons, List.forall_mem_append]
    exact ⟨henclose fun s ↦ whole_of_mem_inner s target he.1, hmark (by decide),
      whole_of_mem_inner false i he.2, hmark (by decide), List.forall_mem_nil _⟩
  | member _ target field =>
    simp only [inner, List.forall_mem_cons, List.forall_mem_append]
    exact ⟨henclose fun s ↦ whole_of_mem_inner s target he.1, hmark (by decide),
      whole_name he.2, List.forall_mem_nil _⟩

theorem whole_of_mem_innerAll (items : List Expr) (h : PrintableAll items) :
    ∀ t ∈ innerAll items, Whole t := by
  cases items with
  | nil => simp [innerAll]
  | cons e rest =>
    simp only [innerAll, List.forall_mem_cons, List.forall_mem_append]
    exact ⟨whole_of_head (by decide), whole_of_mem_inner false e h.1,
      whole_of_mem_innerAll rest h.2⟩

theorem whole_of_mem_innerEntries (entries : List (Expr × Expr)) (h : PrintableEntries entries) :
    ∀ t ∈ innerEntries entries, Whole t := by
  match entries, h with
  | [], _ => simp [innerEntries]
  | (key, value) :: rest, ⟨hkey, hvalue, hrest⟩ =>
    simp only [innerEntries, List.forall_mem_cons, List.forall_mem_append]
    exact ⟨whole_of_head (by decide), whole_of_mem_inner false key hkey, whole_of_head (by decide),
      whole_of_mem_inner false value hvalue, whole_of_mem_innerEntries rest hrest⟩

end

theorem whole_of_mem_tokens {e : Expr} (he : e.Printable) : ∀ t ∈ e.tokens, Whole t :=
  forall_mem_enclose (whole_of_head (by decide)) (whole_of_head (by decide))
    fun s ↦ whole_of_mem_inner s e he

end Expr

end Snippet.Script
