import Mathlib.Algebra.Ring.Commute
import Mathlib.Algebra.Ring.Int.Defs
import Mathlib.Algebra.Ring.Nat
import Snippet.Proofs.Computation
import Snippet.Proofs.Signs
import Snippet.Script.Checked

/-!
# Signed integers

Digits with minus signs in front of them evaluate to exactly the number that they and the signs
denote (`signed_integer`). Running negates once for each sign in the tree, and only the most
negative integer cannot be negated (`negations_eq_ok`, `negations_minValue`). It is written with a
sign, its digits alone being too large. In parentheses, or with a suffix behind them, these digits
are not next to the sign and remain too large: nothing is built from a text that starts with them
(`Ahead.findsOnly_postfixed`, `Number.findsOnly_postfixed`).
-/

namespace Snippet.Run

open Script (Expr negated noSpan)

/-! ### Running -/

/-- The value of an integer with minus signs in front of it. -/
def negations : Nat → Int64 → Except Fault Value
  | 0, i => .ok (.int i)
  | count + 1, i => negations count i >>= applyUnary .neg

theorem tick_eq_ok_of_le {setting : Setting} {m : Machine}
    (hbudget : m.steps + 1 ≤ setting.limits.maxSteps) (hclock : m.steps + 1 < clockInterval) :
    tick setting m = .ok () m.ticked := by
  have hmod : (m.steps + 1) % clockInterval ≠ 0 := by
    rw [Nat.mod_eq_of_lt hclock]
    exact Nat.succ_ne_zero _
  rw [tick_apply, if_neg (Nat.not_lt.2 hbudget), if_neg fun h ↦ hmod h.1]

/-- Evaluation negates as often as there are signs, with one step for each of them and one for the
literal. -/
theorem eval_negated {setting : Setting} {count : Nat} {i : Int64} {e : Expr} {m : Machine}
    (he : e.bare = negated count (.literal noSpan (.int i)))
    (hbudget : m.steps + (count + 1) ≤ setting.limits.maxSteps)
    (hclock : m.steps + (count + 1) < clockInterval) :
    ∃ m', eval setting e m = lift (negations count i) m' := by
  induction count generalizing e m with
  | zero =>
    obtain ⟨span, rfl⟩ := Expr.exists_literal_of_bare he
    exact ⟨m.ticked, by rw [eval, bind_apply, tick_eq_ok_of_le hbudget hclock]; rfl⟩
  | succ count ih =>
    obtain ⟨span, operand, rfl, hoperand⟩ := Expr.exists_unary_of_bare he
    have hsteps := m.ticked_steps
    obtain ⟨m', hm'⟩ := ih (m := m.ticked) hoperand (by omega) (by omega)
    refine ⟨m', ?_⟩
    rw [eval, bind_apply, tick_eq_ok_of_le (by omega) (by omega)]
    show (eval setting operand >>= fun v ↦ lift (applyUnary .neg v)) m.ticked = _
    rw [bind_apply, hm', negations]
    cases negations count i <;> rfl

/-- A number that is not the most negative one is negated exactly. -/
theorem negations_eq_ok (count : Nat) {i : Int64} (hi : 0 ≤ i.toInt) :
    ∃ v : Int64, negations count i = .ok (.int v) ∧ v.toInt = (-1) ^ count * i.toInt := by
  induction count with
  | zero => exact ⟨i, rfl, by simp⟩
  | succ count ih =>
    obtain ⟨v, hv, hvalue⟩ := ih
    have hlt := i.toInt_lt
    have hrange : -2 ^ 63 < v.toInt ∧ v.toInt < 2 ^ 63 := by
      rw [hvalue]
      rcases neg_one_pow_eq_or Int count with h | h <;> rw [h] <;> omega
    refine ⟨.ofInt (-v.toInt), ?_, ?_⟩
    · rw [negations, hv]
      show exactly (-v.toInt) = _
      rw [exactly, if_pos (by rw [intBound]; omega)]
    · rw [Int64.toInt_ofInt_of_le (by omega) (by omega), hvalue, pow_succ]
      simp

/-- The most negative integer has no negative. -/
theorem negations_minValue (count : Nat) :
    negations (count + 1) Int64.minValue = .error .overflow := by
  induction count with
  | zero => rfl
  | succ count ih => rw [negations, ih]; rfl

/-- What a script of that form ends in, under a budget that is enough. -/
theorem result_negated {setting : Setting} {count : Nat} {i : Int64} {tree : Expr}
    (htree : tree.bare = negated count (.literal noSpan (.int i)))
    (hbudget : count + 1 ≤ setting.limits.maxSteps) (hclock : count + 1 < clockInterval)
    (outbox : Outbox) :
    (run setting ⟨[], some tree⟩ outbox).result =
      match negations count i with
      | .ok v => .ok (produced v)
      | .error fault => .error (.fault fault) := by
  obtain ⟨m', hm'⟩ := eval_negated (m := .start outbox) htree
    (Nat.le_trans (Nat.le_of_eq (Nat.zero_add _)) hbudget)
    (Nat.lt_of_le_of_lt (Nat.le_of_eq (Nat.zero_add _)) hclock)
  have hprogram : execProgram setting ⟨[], some tree⟩ (.start outbox) =
      lift (negations count i) m' := hm'
  rw [run, hprogram]
  cases negations count i <;> rfl

end Snippet.Run

namespace Snippet.Script

open Grammar
open Run (Halt Setting negations negations_eq_ok negations_minValue result_negated)

/-! ### Verdicts -/

/-- A script without complaints that ends in this result under every budget of at least so many
steps. -/
def EndsIn (source : String) (steps : Nat) (result : Except Halt (Option Value)) : Prop :=
  ∃ program, Checked.ofSource source = .ok ⟨program, []⟩ ∧
    ∀ (setting : Setting) (outbox : Outbox), steps ≤ setting.limits.maxSteps →
      (Run.run setting program outbox).result = result

theorem checkExpr_negated {count : Nat} {value : Literal} {e : Expr}
    (he : e.bare = negated count (.literal noSpan value)) (s : Survey) : checkExpr e s = s := by
  induction count generalizing e with
  | zero =>
    obtain ⟨span, rfl⟩ := Expr.exists_literal_of_bare he
    rfl
  | succ count ih =>
    obtain ⟨span, operand, rfl, hoperand⟩ := Expr.exists_unary_of_bare he
    show checkExpr operand s = s
    exact ih hoperand

theorem check_negated {count : Nat} {value : Literal} {e : Expr}
    (he : e.bare = negated count (.literal noSpan value)) : check ⟨[], some e⟩ = [] := by
  show (checkExpr e ⟨[[]], []⟩).leave.complaints.reverse = []
  rw [checkExpr_negated he]
  rfl

/-- A script that is parsed as a literal with minus signs in front of it ends in what negating
gives. -/
theorem endsIn_of_outline {source : String} {count : Nat} {i : Int64} {e : Expr}
    (hparse : outline Program.bare (parse source) = .ok ⟨[], some e.bare⟩)
    (he : e.bare = negated count (.literal noSpan (.int i)))
    (hcount : count + 1 < Run.clockInterval) :
    EndsIn source (count + 1)
      (match negations count i with
      | .ok v => .ok (Run.produced v)
      | .error fault => .error (.fault fault)) := by
  cases hp : parse source with
  | error c =>
    rw [hp] at hparse
    cases hparse
  | ok program =>
    rw [hp] at hparse
    obtain ⟨statements, tail⟩ := program
    obtain ⟨hstatements, htail⟩ := Program.mk.inj (Except.ok.inj hparse)
    obtain ⟨tree, rfl, htree⟩ := Option.map_eq_some_iff.1 htail
    obtain rfl : statements = [] := by
      cases statements with
      | nil => rfl
      | cons _ _ => cases hstatements
    have hbare := htree.trans he
    refine ⟨_, ?_, fun setting outbox hbudget ↦ result_negated hbare hbudget hcount outbox⟩
    rw [Checked.ofSource, hp]
    simp only [check_negated hbare]
    rfl

theorem verdict_of_outline_error {source : String} {problem : Problem}
    (h : outline Program.bare (parse source) = .error problem) :
    verdict source = .error problem.id := by
  cases hp : parse source <;> rw [hp] at h
  · cases h
    exact verdict_of_parse_error hp
  · cases h

/-- Digits end where nothing but blanks follows. -/
theorem number_of_ends {digits tail : List Char} (hne : digits ≠ [])
    (hdigits : ∀ c ∈ digits, c.isDigit = true) (ht : Ends tail) : Number digits tail := by
  have hhalt : ∀ c ∈ tail.head?, isHalt c = true := by
    intro c hc
    obtain ⟨rest, rfl⟩ := List.head?_eq_some_iff.1 hc
    by_contra hhalt
    simp only [isHalt, Bool.not_eq_true, Bool.or_eq_false_iff, beq_eq_false_iff_ne] at hhalt
    have hblanks : blanks (c :: rest) = 0 :=
      blanks_eq_zero (by simpa using hhalt.1.1) (comment?_eq_none_of_ne hhalt.1.2 rest)
    rw [Ends, skip_of_blanks hblanks] at ht
    cases ht
  refine ⟨hne, hdigits, fun c hc ↦ isDigit_eq_false (hhalt c hc), fun c rest heq ↦ ?_⟩
  exact absurd (hhalt '.' (by rw [heq]; rfl)) (by decide)

section Signed

variable {source : String} {count : Nat} {digits tail : List Char}
  (hguard : checkNesting source.toList = .ok ()) (hnumber : Number digits tail) (ht : Ends tail)
include hguard hnumber ht

/-- Digits that fit are an integer, and every sign negates it. -/
theorem endsIn_signed_of_lt (hmarks : Ahead '-' count source.toList (digits ++ tail))
    (hcount : count ≤ 247) (hlt : digitsValue digits < intBound) :
    ∃ v : Int64, v.toInt = (-1) ^ count * digitsValue digits ∧
      EndsIn source (count + 1) (.ok (some (.int v))) := by
  have hvalue : (Int64.ofNat (digitsValue digits)).toInt = digitsValue digits :=
    Int64.toInt_ofNat_of_lt hlt
  obtain ⟨v, hv, hv'⟩ := negations_eq_ok count (i := Int64.ofNat (digitsValue digits)) (by omega)
  have houtline := outline_parse_signed hguard hnumber hmarks ht
  rw [exprOf_signedNode (by omega), if_neg (Nat.not_lt.2 hcount), if_pos hlt] at houtline
  have hends := endsIn_of_outline houtline (bare_applyUnary_minuses count _)
    (by rw [Run.clockInterval]; omega)
  rw [hv] at hends
  exact ⟨v, hvalue ▸ hv', hends⟩

/-- Digits that do not fit are refused, unless they are the bound and have a sign. -/
theorem verdict_signed_of_le (hmarks : Ahead '-' count source.toList (digits ++ tail))
    (hcount : count ≤ 247) (hle : intBound ≤ digitsValue digits)
    (hbound : ¬(0 < count ∧ digitsValue digits = intBound)) :
    verdict source = .error "SC1021" := by
  have houtline := outline_parse_signed hguard hnumber hmarks ht
  rw [exprOf_signedNode hbound, if_neg (Nat.not_lt.2 hcount), if_neg (Nat.not_lt.2 hle)] at houtline
  exact verdict_of_outline_error houtline

/-- The bound with a sign is the most negative integer, and every further sign negates it. -/
theorem endsIn_signed_of_eq (hmarks : Ahead '-' (count + 1) source.toList (digits ++ tail))
    (hcount : count ≤ 249) (heq : digitsValue digits = intBound) :
    EndsIn source (count + 1)
      (match negations count Int64.minValue with
      | .ok v => .ok (Run.produced v)
      | .error fault => .error (.fault fault)) := by
  have houtline := outline_parse_signed hguard hnumber hmarks ht
  rw [exprOf_signedNode_bound heq, if_neg (Nat.not_lt.2 hcount)] at houtline
  exact endsIn_of_outline houtline (bare_applyUnary_minuses count _)
    (by rw [Run.clockInterval]; omega)

/-- With more signs than there are levels the script is too deep. -/
theorem verdict_signed_of_lt (hmarks : Ahead '-' count source.toList (digits ++ tail))
    (hcount : 247 < count) (hbound : digitsValue digits = intBound → 250 < count) :
    verdict source = .error "SC8078" := by
  have houtline := outline_parse_signed hguard hnumber hmarks ht
  by_cases heq : digitsValue digits = intBound
  · obtain ⟨count, rfl⟩ := Nat.exists_eq_succ_of_ne_zero (Nat.ne_of_gt (Nat.zero_lt_of_lt hcount))
    have hcount' := hbound heq
    rw [exprOf_signedNode_bound heq, if_pos (by omega)] at houtline
    exact verdict_of_outline_error houtline
  · rw [exprOf_signedNode (by omega), if_pos hcount] at houtline
    exact verdict_of_outline_error houtline

end Signed

/-! ### Digits without a sign of their own -/

/-- Operands cannot be built if what the signs stand in front of cannot be, unless the last sign
belongs to it. -/
theorem Ahead.findsOnly_unary {count : Nat} {s rest : List Char} (h : Ahead '-' count s rest)
    (hrest : Lexeme.oneOf ["!", "-"] rest = none)
    (hfinds : FindsOnly (fun node ↦ Unbuildable node ∧ (count = 0 ∨ NoBound node))
      (.call .postfixed) rest) :
    FindsOnly Unbuildable (.call .unary) (scriptReader.skip s) := by
  intro nodes t htakes
  obtain ⟨_, rfl, hparts⟩ := exists_parts rfl htakes
  obtain ⟨_, u, _, rfl, hsigns, hoperand⟩ := exists_seq hparts
  obtain ⟨_, hsigns', hskip, -⟩ := h.takes_signs hrest
  cases hsigns.unique hsigns'
  rw [hskip] at hoperand
  obtain ⟨node, rfl, hnode, hbound⟩ := hfinds _ _ hoperand
  refine ⟨_, rfl, fun depth ↦ ?_⟩
  have hnone : mostNegative? (List.replicate count (UnaryOp.neg, noSpan)).getLast? node = none := by
    rcases hbound with rfl | hbound
    · exact mostNegative?_none node
    · exact hbound _
  rw [exprOf_signs]
  refine .checkDepth_bind ?_
  rw [unaryOf, hnone]
  exact (hnode _).bind _

theorem exists_suffix {s t : List Char} {nodes : List (Node Symbol)}
    (h : Takes (linkAt 8) s nodes t) : ∃ node, nodes = [node] := by
  have hcall {symbol : Symbol} {body : Pattern Symbol}
      (hrule : language.rule symbol = .phrase true body) (h : Takes (.call symbol) s nodes t) :
      ∃ node, nodes = [node] :=
    have ⟨_, heq, _⟩ := exists_parts hrule h
    ⟨_, heq⟩
  cases h with
  | left h => exact hcall rfl h
  | right _ h =>
    cases h with
    | left h => exact hcall rfl h
    | right _ h => exact hcall rfl h

/-- Digits that do not fit are no number. -/
theorem unbuildable_digits {digits : List Char} (hle : intBound ≤ digitsValue digits) :
    Unbuildable (tokenNode .intLit digits) := by
  intro depth
  rw [tokenNode, exprOf]
  refine .checkDepth_bind ?_
  show Excess (if digitsValue digits < intBound then _ else _)
  rw [if_neg (Nat.not_lt.2 hle)]
  exact ⟨_, rfl, .inr rfl⟩

/-- With no sign in front of it, what cannot be built as an operand cannot be built. -/
theorem findsOnly_expr {s : List Char} (hs : scriptReader.skip s = s)
    (hsign : Lexeme.oneOf ["!", "-"] s = none)
    (h : FindsOnly Unbuildable (.call .postfixed) s) :
    FindsOnly Unbuildable (.call .expr) s := by
  have hmarks : Ahead '-' 0 s s := by
    have hdone : Ahead '-' 0 s (scriptReader.skip s) := .done
    rwa [hs] at hdone
  have hunary := hmarks.findsOnly_unary hsign fun nodes t htakes ↦ by
    obtain ⟨node, heq, hnode⟩ := h nodes t htakes
    exact ⟨node, heq, hnode, .inl rfl⟩
  rw [hs] at hunary
  exact hunary.expr

section Unsigned

variable {digits tail : List Char} (hnumber : Number digits tail)
include hnumber

theorem Number.findsOnly_primary :
    FindsOnly (· = tokenNode .intLit digits) Symbol.anyPrimary (digits ++ tail) := by
  intro nodes t htakes
  cases htakes.unique hnumber.takes_primary
  exact ⟨_, rfl, rfl⟩

theorem Number.skip_eq : scriptReader.skip (digits ++ tail) = digits ++ tail :=
  skip_of_blanks hnumber.operand.blanks

/-- Nothing is built from digits that do not fit, in any number of parentheses. -/
theorem Ahead.findsOnly_expr {depth : Nat} {s : List Char} (h : Ahead '(' depth s (digits ++ tail))
    (hle : intBound ≤ digitsValue digits) :
    FindsOnly Unbuildable (.call .expr) (scriptReader.skip s) := by
  generalize hmark : '(' = mark at h
  generalize hrest : digits ++ tail = rest at h
  induction h with
  | done =>
    rw [← hrest]
    refine Script.findsOnly_expr hnumber.skip_eq hnumber.oneOf_eq_none fun nodes t htakes ↦ ?_
    obtain ⟨_, suffixes, _, rfl, rfl, -⟩ := exists_suffixes hnumber.findsOnly_primary htakes
    exact ⟨_, rfl, unbuildable_postfixed (unbuildable_digits hle) suffixes⟩
  | @next depth s t rest hs _ ih =>
    subst hmark
    have hskip := skip_skip s
    rw [hs] at hskip ⊢
    refine Script.findsOnly_expr hskip rfl fun nodes u htakes ↦ ?_
    obtain ⟨_, suffixes, _, rfl, ⟨hnode, -⟩, -⟩ :=
      exists_suffixes (findsOnly_paren (ih hrest)) htakes
    exact ⟨_, rfl, unbuildable_postfixed hnode suffixes⟩

/-- In parentheses they are no number with a sign in front of the parentheses either. -/
theorem Ahead.findsOnly_postfixed {depth : Nat} {s : List Char}
    (h : Ahead '(' (depth + 1) s (digits ++ tail)) (hle : intBound ≤ digitsValue digits) :
    FindsOnly (fun node ↦ Unbuildable node ∧ NoBound node) (.call .postfixed)
      (scriptReader.skip s) := by
  obtain ⟨t, hs, h⟩ : ∃ t, scriptReader.skip s = '(' :: t ∧ Ahead '(' depth t (digits ++ tail) := by
    cases h with
    | next hs h => exact ⟨_, hs, h⟩
  intro nodes u htakes
  rw [hs] at htakes
  obtain ⟨node, suffixes, _, rfl, ⟨hnode, hsymbol⟩, -⟩ :=
    exists_suffixes (findsOnly_paren (h.findsOnly_expr hnumber hle)) htakes
  exact ⟨_, rfl, unbuildable_postfixed hnode suffixes, noBound_of_symbol (by simp [hsymbol])⟩

/-- With a suffix behind them they are no number with a sign in front of them either. -/
theorem Number.findsOnly_postfixed {found : List (Node Symbol)} {t : List Char}
    (hlink : Takes (linkAt 8) (scriptReader.skip tail) found t)
    (hle : intBound ≤ digitsValue digits) :
    FindsOnly (fun node ↦ Unbuildable node ∧ NoBound node) (.call .postfixed)
      (digits ++ tail) := by
  intro nodes u htakes
  obtain ⟨_, suffixes, v, rfl, rfl, hprimary, hsuffixes⟩ :=
    exists_suffixes hnumber.findsOnly_primary htakes
  cases hprimary.unique hnumber.takes_primary
  obtain ⟨more, rfl⟩ := exists_many hlink hsuffixes
  obtain ⟨suffix, rfl⟩ := exists_suffix hlink
  exact ⟨_, rfl, unbuildable_postfixed (unbuildable_digits hle) _, noBound_of_two⟩

/-- Where a suffix starts but none is found, no script ends. -/
theorem Number.refuses_scriptBody {count : Nat} {s : List Char} {c : Char}
    (hmarks : Ahead '-' count s (digits ++ tail)) (hc : c ∈ (scriptReader.skip tail).head?)
    (hsuffix : c ∈ ['(', '[', '.']) (hlink : Refuses (linkAt 8) (scriptReader.skip tail)) :
    Refuses scriptBody (scriptReader.skip s) := by
  obtain ⟨rest, heq⟩ := List.head?_eq_some_iff.1 hc
  have hcloses : Closes (scriptReader.skip (scriptReader.skip tail)) := by
    rw [skip_skip, heq]
    rintro d ⟨⟩
    exact hsuffix
  have hprimary : Takes (operandAt 8) (digits ++ tail) [tokenNode .intLit digits] tail :=
    hnumber.takes_primary
  obtain ⟨u, hexpr, hu⟩ := takes_level (Nat.zero_add 7)
    (hmarks.takes_unary hnumber.oneOf_eq_none (takes_chain (by decide) hprimary hlink)) hcloses
  rw [skip_skip, heq] at hu
  have hsemi : Lexeme.exactly ";" (scriptReader.skip u) = none := by
    rw [hu]
    simp only [List.mem_cons, List.not_mem_nil, or_false] at hsuffix
    rcases hsuffix with rfl | rfl | rfl <;> rfl
  have hending : Refuses (.call .ending) (scriptReader.skip u) := by
    rw [hu]
    exact refuses_token rfl rfl
  exact (hmarks.operand (by simp) hnumber.operand).derives_scriptBody hexpr hsemi hending

end Unsigned

/-- A script is refused if what the signs at its front stand in front of cannot be built. -/
theorem Ahead.exists_error {source : String} {count : Nat} {operand : List Char}
    (h : Ahead '-' count source.toList operand) (hoperand : Operand operand) (hne : operand ≠ [])
    (hsign : Lexeme.oneOf ["!", "-"] operand = none)
    (hfinds : FindsOnly (fun node ↦ Unbuildable node ∧ NoBound node) (.call .postfixed) operand) :
    ∃ c, parse source = .error c ∧ c.problem.id ∈ ["SC1021", "SC8078", "SC1001"] := by
  have hunary := h.findsOnly_unary hsign fun nodes t htakes ↦ by
    obtain ⟨node, heq, hnode, hbound⟩ := hfinds nodes t htakes
    exact ⟨node, heq, hnode, .inr hbound⟩
  exact exists_error_of_findsOnly (h.operand (by simp) hoperand) (h.ne_nil hne) hunary.expr

/-! ### Signed integers -/

/-- The digits `digits` denote a number `n`. With minus signs in front of them they are too deep for
the parser, or they are what they denote, exactly: `n` negated once for each sign where it fits, and
no number where it is greater than the bound. At the bound itself they are no number without a sign,
the most negative integer with one, and a number that cannot be negated again with more. If the
digits stand in parentheses or have a suffix behind them, they are no number from the bound on. -/
theorem signed_integer (digits : List Char) (hne : digits ≠ [])
    (hdigits : ∀ c ∈ digits, c.isDigit = true) :
    (∀ (source : String) (count : Nat) (tail : List Char),
      Ahead '-' count source.toList (digits ++ tail) → Ends tail →
      verdict source = .error "SC8078" ∧
          (checkNesting source.toList ≠ .ok () ∨ 247 < count) ∨
        (digitsValue digits < 2 ^ 63 → ∃ v : Int64, v.toInt = (-1) ^ count * digitsValue digits ∧
          EndsIn source (count + 1) (.ok (some (.int v)))) ∧
        (digitsValue digits = 2 ^ 63 →
          (count = 0 → verdict source = .error "SC1021") ∧
          (count = 1 → ∃ v : Int64, v.toInt = -2 ^ 63 ∧ EndsIn source 1 (.ok (some (.int v)))) ∧
          (2 ≤ count → ∃ fault, fault.typeName = "OverflowError" ∧
            EndsIn source count (.error (.fault fault)))) ∧
        (2 ^ 63 < digitsValue digits → verdict source = .error "SC1021")) ∧
    (2 ^ 63 ≤ digitsValue digits →
      ∀ (source : String) (count depth : Nat) (operand tail : List Char),
        Number digits tail → Ahead '-' count source.toList operand →
        Ahead '(' depth operand (digits ++ tail) →
        (0 < depth ∨ ∃ c ∈ (scriptReader.skip tail).head?, c ∈ ['(', '[', '.']) →
        ∃ c, parse source = .error c ∧ c.problem.id ∈ ["SC1021", "SC8078", "SC1001"]) := by
  have hintBound : intBound = 2 ^ 63 := rfl
  refine ⟨fun source count tail hmarks ht ↦ ?_,
    fun hle source count depth operand tail hnumber hmarks hparens hunsigned ↦ ?_⟩
  · have hnumber := number_of_ends hne hdigits ht
    by_cases hguard : checkNesting source.toList = .ok ()
    swap
    · exact .inl ⟨verdict_of_checkNesting hguard, .inl hguard⟩
    by_cases hdeep : 247 < count ∧ (digitsValue digits = intBound → 250 < count)
    · exact .inl ⟨verdict_signed_of_lt hguard hnumber ht hmarks hdeep.1 hdeep.2, .inr hdeep.1⟩
    refine .inr ⟨fun hlt ↦ ?_, fun heq ↦ ⟨?_, ?_, ?_⟩, fun hlt ↦ ?_⟩
    · exact endsIn_signed_of_lt hguard hnumber ht hmarks (by omega) hlt
    · rintro rfl
      exact verdict_signed_of_le hguard hnumber ht hmarks (by omega) (by omega) (by omega)
    · rintro rfl
      exact ⟨Int64.minValue, rfl, endsIn_signed_of_eq hguard hnumber ht hmarks (by omega) heq⟩
    · intro hcount
      obtain ⟨n, rfl⟩ := Nat.exists_eq_add_of_le' hcount
      have hends := endsIn_signed_of_eq hguard hnumber ht hmarks (by omega) heq
      rw [negations_minValue] at hends
      exact ⟨.overflow, rfl, hends⟩
    · exact verdict_signed_of_le hguard hnumber ht hmarks (by omega) (by omega) (by omega)
  · have hskip := hmarks.skip_eq
    cases depth with
    | zero =>
      obtain rfl : operand = digits ++ tail := hskip.symm.trans hparens.eq_skip.symm
      obtain ⟨c, hc, hsuffix⟩ := hunsigned.resolve_left (Nat.lt_irrefl 0)
      obtain ⟨r, hr⟩ := exists_derives (linkAt 8) (scriptReader.skip tail)
      rcases r with - | ⟨found, t⟩
      · have hnone := hnumber.refuses_scriptBody hmarks hc hsuffix hr
        rcases checkNesting_cases source.toList with hguard | ⟨c, hguard, hid⟩
        · obtain ⟨c, hparse, hid⟩ := parse_error hguard hnone
          exact ⟨c, hparse, by simp [hid]⟩
        · exact ⟨c, parse_of_checkNesting hguard, by rw [hid]; decide⟩
      · exact hmarks.exists_error hnumber.operand (by simp [hne]) hnumber.oneOf_eq_none
          (hnumber.findsOnly_postfixed hr hle)
    | succ depth =>
      have hoperand := hparens.operand (by simp) hnumber.operand
      have hfinds := hparens.findsOnly_postfixed hnumber hle
      have hsign : Lexeme.oneOf ["!", "-"] (scriptReader.skip operand) = none := by
        cases hparens with
        | next hs => rw [hs]; rfl
      rw [hskip] at hoperand hfinds hsign
      have hnil := hparens.ne_nil (by simp [hne])
      rw [hskip] at hnil
      exact hmarks.exists_error hoperand hnil hsign hfinds

/-- The bound with a sign, a comment between the two, and the bound in parentheses with a sign. -/
theorem signed_integer_bound :
    (∃ v : Int64, v.toInt = -2 ^ 63 ∧
      EndsIn "- /* least */ 09223372036854775808 // integer" 1 (.ok (some (.int v)))) ∧
    ∃ c, parse "-(09223372036854775808)" = .error c ∧
      c.problem.id ∈ ["SC1021", "SC8078", "SC1001"] := by
  have hdigits : ∀ c ∈ "09223372036854775808".toList, c.isDigit = true :=
    List.all_eq_true.1 (by decide)
  have heq : digitsValue "09223372036854775808".toList = 2 ^ 63 := by decide +kernel
  obtain ⟨hsigned, hunsigned⟩ := signed_integer "09223372036854775808".toList (by decide) hdigits
  constructor
  · have hmarks : Ahead '-' 1 "- /* least */ 09223372036854775808 // integer".toList
        ("09223372036854775808".toList ++ " // integer".toList) :=
      .one " /* least */ 09223372036854775808 // integer".toList (by decide +kernel)
        (by decide +kernel)
    have hguard : checkNesting "- /* least */ 09223372036854775808 // integer".toList = .ok () :=
      checkNesting_eq_ok_iff.2 (by decide +kernel)
    have hends : Ends " // integer".toList := by
      show scriptReader.skip _ = []
      decide +kernel
    have hcases := (hsigned _ 1 _ hmarks hends).resolve_left fun h ↦
      h.2.elim (fun h ↦ h hguard) (by omega)
    exact (hcases.2.1 heq).2.1 rfl
  · have hmarks : Ahead '-' 1 "-(09223372036854775808)".toList "(09223372036854775808)".toList :=
      .one "(09223372036854775808)".toList (by decide +kernel) (by decide +kernel)
    have hparens : Ahead '(' 1 "(09223372036854775808)".toList
        ("09223372036854775808".toList ++ [')']) :=
      .one "09223372036854775808)".toList (by decide +kernel) (by decide +kernel)
    exact hunsigned (Nat.le_of_eq heq.symm) _ 1 1 _ _
      ⟨by decide, hdigits, by simp, by simp⟩ hmarks hparens (.inl Nat.one_pos)

end Snippet.Script
