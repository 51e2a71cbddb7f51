import Snippet.Proofs.FirstOperand

/-!
# Signs in front of digits

Minus signs in front of digits, with blanks anywhere between them, are operators and a number. The
grammar finds them all (`Ahead.takes_unary`), and `outline_parse_signed` says what the parser
answers on a script of this form. Each sign costs a level of the tree. If the digits are those of
the least number that is no integer, the last sign is part of the number and costs none
(`exprOf_signedNode_bound`).
-/

namespace Snippet.Script

open Grammar

/-! ### Reading signs and digits -/

/-- A mark stands several times ahead of what is left of a text, with blanks in front of each. -/
inductive Ahead (mark : Char) : Nat → List Char → List Char → Prop
  | done {s} : Ahead mark 0 s (scriptReader.skip s)
  | next {count s t rest} (h : scriptReader.skip s = mark :: t) (hrest : Ahead mark count t rest) :
    Ahead mark (count + 1) s rest

/-- A minus sign, as the grammar finds it. -/
def minusNode : Node Symbol :=
  tokenNode .unaryOp ['-']

/-- The node of digits with signs in front of them. -/
def signedNode (count : Nat) (digits : List Char) : Node Symbol :=
  phraseNode .unary
    (List.replicate count minusNode ++ [phraseNode .postfixed [tokenNode .intLit digits]])

section Ahead

variable {mark : Char} {count : Nat} {s rest : List Char}

theorem Ahead.skip_eq (h : Ahead mark count s rest) : scriptReader.skip rest = rest := by
  induction h with
  | done => exact skip_skip _
  | next _ _ ih => exact ih

theorem Ahead.one (t : List Char) (h : scriptReader.skip s = mark :: t)
    (hrest : scriptReader.skip t = rest) : Ahead mark 1 s rest :=
  .next h (hrest ▸ .done)

theorem Ahead.eq_skip (h : Ahead mark 0 s rest) : rest = scriptReader.skip s := by
  cases h
  rfl

/-- Signs are read as far as they go. -/
theorem Ahead.takes_signs (h : Ahead '-' count s rest)
    (hrest : Lexeme.oneOf ["!", "-"] rest = none) :
    ∃ t, Takes (.many (.call .unaryOp)) (scriptReader.skip s) (List.replicate count minusNode) t ∧
      scriptReader.skip t = rest ∧ (count = 0 ∧ t = scriptReader.skip s ∨
        t.length < (scriptReader.skip s).length) := by
  generalize hmark : '-' = mark at h
  induction h with
  | done => exact ⟨_, .done (refuses_token rfl hrest), skip_skip _, .inl ⟨rfl, rfl⟩⟩
  | @next count s t rest hs hmarks ih =>
    subst hmark
    obtain ⟨u, hu, hskip, hlength⟩ := ih hrest
    have hminus : Takes (.call .unaryOp) ('-' :: t) [minusNode] t := takes_token (n := 1) rfl rfl
    have hsize : (scriptReader.skip t).length < ('-' :: t).length := by
      rw [Script.skip_eq, List.length_drop, List.length_cons]
      omega
    rw [hs]
    rcases hlength with ⟨rfl, rfl⟩ | hlength
    · -- the blanks behind the last sign are given back
      exact ⟨t, .last hminus hsize hu (Nat.lt_irrefl _), (skip_skip t).symm.trans hskip,
        .inr (Nat.lt_succ_self _)⟩
    · exact ⟨u, .more hminus hsize hu hlength, hskip, .inr (Nat.lt_trans hlength hsize)⟩

theorem Ahead.takes_unary {t : List Char} {node : Node Symbol} (h : Ahead '-' count s rest)
    (hrest : Lexeme.oneOf ["!", "-"] rest = none)
    (hnode : Takes (.call .postfixed) rest [node] t) :
    Takes (.call .unary) (scriptReader.skip s)
      [phraseNode .unary (List.replicate count minusNode ++ [node])] t := by
  obtain ⟨u, hsigns, rfl, -⟩ := h.takes_signs hrest
  exact .phrase rfl (.seq hsigns hnode)

/-- Signs and parentheses in front of an operand make an operand. -/
theorem Ahead.operand (h : Ahead mark count s rest) (hmark : mark ∈ ['-', '('])
    (hrest : Operand rest) : Operand (scriptReader.skip s) := by
  cases h with
  | done => exact hrest
  | next hs _ =>
    have hblanks := blanks_drop_blanks s
    rw [← Script.skip_eq, hs] at hblanks
    rw [hs]
    simp only [List.mem_cons, List.not_mem_nil, or_false] at hmark
    rcases hmark with rfl | rfl <;> exact ⟨opening_of_mark rfl rfl rfl, rfl, hblanks⟩

theorem Ahead.ne_nil (h : Ahead mark count s rest) (hrest : rest ≠ []) :
    scriptReader.skip s ≠ [] := by
  cases h with
  | done => exact hrest
  | next hs _ => simp [hs]

end Ahead

namespace Number

variable {digits tail : List Char}

/-- Digits are the operand of a chain of suffixes. -/
theorem takes_primary (h : Number digits tail) :
    Takes Symbol.anyPrimary (digits ++ tail) [tokenNode .intLit digits] tail := by
  have htoken : Takes (.call .intLit) (digits ++ tail) [tokenNode .intLit digits] tail := by
    simpa only [List.take_left, List.drop_left] using takes_token rfl h.integer
  exact .right (refuses_token rfl h.fraction) (.left htoken)

theorem oneOf_eq_none (h : Number digits tail) :
    Lexeme.oneOf ["!", "-"] (digits ++ tail) = none :=
  oneOf_mark (by decide) h.startsWithMark

theorem operand (h : Number digits tail) : Operand (digits ++ tail) where
  opening := h.opening
  name := h.name
  blanks := by
    obtain ⟨c, rest, rfl, hc⟩ := h.exists_cons
    have hhalt : isHalt c = false := isHalt_eq_false_of_isWordChar (isWordChar_of_isDigit hc)
    simp only [isHalt, Bool.or_eq_false_iff, beq_eq_false_iff_ne] at hhalt
    exact blanks_eq_zero (by simpa using hhalt.1.1) (comment?_eq_none_of_ne hhalt.1.2 _)

end Number

/-! ### Building -/

/-- An expression with minus signs in front of it. -/
def negated : Nat → Expr → Expr
  | 0, e => e
  | count + 1, e => .unary noSpan .neg (negated count e)

theorem bare_applyUnary_minuses (count : Nat) (e : Expr) :
    (applyUnary (List.replicate count (.neg, noSpan)) e).bare = negated count e.bare := by
  induction count with
  | zero => rfl
  | succ count ih => exact congrArg (Expr.unary noSpan .neg) ih

theorem unaryOf_minus (depth : Nat) (ops : List (UnaryOp × Span)) {parts : List (Node Symbol)}
    (hne : parts ≠ []) :
    unaryOf noSpan depth ops (minusNode :: parts) =
      unaryOf noSpan depth (ops ++ [(.neg, noSpan)]) parts := by
  rw [unaryOf]
  · rfl
  · exact fun h ↦ absurd h hne

/-- Signs are collected in front of the operand. -/
theorem unaryOf_minuses (depth count : Nat) (ops : List (UnaryOp × Span)) (operand : Node Symbol) :
    unaryOf noSpan depth ops (List.replicate count minusNode ++ [operand]) =
      unaryOf noSpan depth (ops ++ List.replicate count (.neg, noSpan)) [operand] := by
  induction count generalizing ops with
  | zero => rw [List.replicate_zero, List.replicate_zero, List.nil_append, List.append_nil]
  | succ count ih =>
    rw [List.replicate_succ, List.cons_append, unaryOf_minus depth ops (by simp), ih,
      List.append_assoc, List.singleton_append, List.replicate_succ]

theorem exprOf_signs (depth count : Nat) (operand : Node Symbol) :
    exprOf depth (phraseNode .unary (List.replicate count minusNode ++ [operand])) =
      (checkDepth depth noSpan >>= fun _ ↦
        unaryOf noSpan depth (List.replicate count (.neg, noSpan)) [operand]) := by
  rw [exprOf_unary, unaryOf_minuses, List.nil_append]

theorem getLast?_minuses (count : Nat) :
    (List.replicate (count + 1) (UnaryOp.neg, noSpan)).getLast? = some (.neg, noSpan) := by
  simp [List.getLast?_replicate]

/-- Digits form a literal together with a sign only if there is a sign, and only if they are those
of the bound. -/
theorem mostNegative?_digits (count : Nat) (digits : List Char) :
    mostNegative? (List.replicate count (.neg, noSpan)).getLast?
        (phraseNode .postfixed [tokenNode .intLit digits]) =
      if 0 < count ∧ digitsValue digits = intBound then
        some (.literal noSpan (.int Int64.minValue)) else none := by
  cases count with
  | zero => rfl
  | succ count =>
    simp only [getLast?_minuses, phraseNode, tokenNode, mostNegative?, Nat.succ_pos, true_and]
    rfl

/-- Digits alone are an integer below the bound. -/
theorem exprOf_digits (depth : Nat) (digits : List Char) :
    exprOf depth (phraseNode .postfixed [tokenNode .intLit digits]) =
      if maxDepth ≤ depth then .error ⟨.tooDeep, noSpan⟩
      else if digitsValue digits < intBound then
        .ok (.literal noSpan (.int (Int64.ofNat (digitsValue digits))))
      else .error ⟨.constantTooLarge, noSpan⟩ := by
  rcases Nat.lt_or_ge maxDepth depth with hdepth | hdepth
  · rw [exprOf_postfixed, checkDepth_eq_error hdepth, if_pos (Nat.le_of_lt hdepth)]
    rfl
  have hpart : exprOf depth (phraseNode .postfixed [tokenNode .intLit digits]) =
      exprOf (depth + 1) (tokenNode .intLit digits) :=
    exprOf_only_part (Nat.le_refl 8) hdepth (0, 0) [] _
  rw [hpart, tokenNode, exprOf]
  by_cases hlimit : maxDepth ≤ depth
  · rw [if_pos hlimit, checkDepth_eq_error (Nat.lt_succ_of_le hlimit)]
    rfl
  · rw [if_neg hlimit, checkDepth_eq_ok (Nat.lt_of_not_le hlimit)]
    show (if digitsValue digits < intBound then _ else _) = _
    split <;> rfl

/-- What is built from digits with signs in front of them, where these are no part of the number. -/
theorem exprOf_signedNode {count : Nat} {digits : List Char}
    (h : ¬(0 < count ∧ digitsValue digits = intBound)) :
    exprOf 7 (signedNode count digits) =
      if 247 < count then .error ⟨.tooDeep, noSpan⟩
      else if digitsValue digits < intBound then
        .ok (applyUnary (List.replicate count (.neg, noSpan))
          (.literal noSpan (.int (Int64.ofNat (digitsValue digits)))))
      else .error ⟨.constantTooLarge, noSpan⟩ := by
  rw [signedNode, exprOf_signs, unaryOf, mostNegative?_digits, if_neg h]
  simp only [List.length_replicate, exprOf_digits, checkDepth_eq_ok (show 7 ≤ maxDepth by decide)]
  by_cases hcount : 247 < count
  · rw [if_pos hcount, if_pos (by rw [maxDepth]; omega)]
    rfl
  · have hdepth : 7 + count ≤ maxDepth := by
      rw [maxDepth]
      omega
    rw [if_neg hcount, if_neg (by rw [maxDepth]; omega), checkDepth_eq_ok hdepth]
    split <;> rfl

/-- What is built from the digits of the bound, the last sign being part of the number. -/
theorem exprOf_signedNode_bound {count : Nat} {digits : List Char}
    (h : digitsValue digits = intBound) :
    exprOf 7 (signedNode (count + 1) digits) =
      if 249 < count then .error ⟨.tooDeep, noSpan⟩
      else .ok (applyUnary (List.replicate count (.neg, noSpan))
        (.literal noSpan (.int Int64.minValue))) := by
  rw [signedNode, exprOf_signs, unaryOf, mostNegative?_digits, if_pos ⟨Nat.succ_pos count, h⟩]
  simp only [List.length_replicate, Nat.add_sub_cancel,
    checkDepth_eq_ok (show 7 ≤ maxDepth by decide)]
  by_cases hcount : 249 < count
  · rw [if_pos hcount, checkDepth_eq_error (by rw [maxDepth]; omega)]
    rfl
  · rw [if_neg hcount, checkDepth_eq_ok (by rw [maxDepth]; omega), List.dropLast_replicate]
    rfl

/-- Up to places, the parser's answer on digits with signs in front of them is that of building
their node. -/
theorem outline_parse_signed {source : String} {count : Nat} {digits tail : List Char}
    (hguard : checkNesting source.toList = .ok ()) (hdigits : Number digits tail)
    (hmarks : Ahead '-' count source.toList (digits ++ tail)) (ht : Ends tail) :
    outline Program.bare (parse source) =
      outline Program.bare (do
        let tree ← exprOf 7 (signedNode count digits)
        return ⟨[], some tree⟩) := by
  have hpostfixed : Takes (.call .postfixed) (digits ++ tail)
      [phraseNode .postfixed [tokenNode .intLit digits]] [] := by
    have hlink : Refuses (linkAt 8) (scriptReader.skip tail) := by
      rw [ht]
      exact refuses_suffix_nil
    have hprimary : Takes (operandAt 8) (digits ++ tail) [tokenNode .intLit digits] tail :=
      hdigits.takes_primary
    have hchain := takes_chain (by decide) hprimary hlink
    rwa [ht] at hchain
  obtain ⟨u, hexpr, hu⟩ := takes_level (Nat.zero_add 7)
    (hmarks.takes_unary hdigits.oneOf_eq_none hpostfixed) ends_nil.closes
  obtain ⟨n, hn, -, hparse⟩ := exists_operand (by decide) hguard
    ((hmarks.operand (by simp) hdigits.operand).takes_scriptBody hexpr hu)
  have houtline := outline_exprOf 7 n
  rw [hn] at houtline
  rw [hparse]
  exact outline_bind_pure houtline fun _ _ h ↦ by rw [Program.bare, Option.map_some, h]; rfl

end Snippet.Script
