import Snippet.Command
import Snippet.Proofs.ShiftedTrees
import Snippet.Proofs.SignedIntegers
import Snippet.Proofs.SoleExpression

/-!
# Inspecting an expression

A command puts the text of an expression between `inspect(` and `)`. If the closing bracket is a
part of the code, the result is the call of `inspect` on the expression (`parse_inspection`): the
argument is found eight characters further on (`found_in_brackets`), and it is built ten levels
further down, where it may be too deep (`lowered_exprOf`). A text that goes on to its end in a line
comment takes the bracket into the comment, and the call is never closed: the depth of the brackets
tells (`exists_error_of_not_closesBehind`).
-/

namespace Snippet.Script

open Grammar

/-! ### The call -/

/-- The text of a call of `inspect`. -/
def callText (s : List Char) : List Char :=
  "inspect(".toList ++ (s ++ [')'])

theorem toList_inspection (source : String) :
    (Command.inspection source).toList = callText source.toList := by
  rw [Command.inspection, String.toList_append, String.toList_append]
  exact List.append_assoc ..

/-- The node of the call, around the node of its argument. -/
def callNode (stop : Nat) (arg : Node Symbol) : Node Symbol :=
  .mk .postfixed (0, stop) []
    [.mk .ident (0, 7) "inspect".toList [], .mk .callArgs (7, stop) [] [arg]]

section Call

variable {s t : List Char} {node : Node Symbol} {stop : Nat}

theorem skip_paren (s : List Char) : scriptReader.skip ('(' :: s) = '(' :: s :=
  skip_of_blanks (blanks_eq_zero (fun _ hc ↦ Option.some.inj hc ▸ rfl) rfl)

/-- The arguments of the call, which are the one that stands between the brackets. -/
theorem found_callArgs (hb : Behind [')'] s)
    (h : language.Found (.call .expr) (scriptReader.skip s) (blanks s) [node] t stop)
    (ht : Ends t) :
    language.Found (.call .callArgs) ('(' :: (s ++ [')'])) 7
      [.mk .callArgs (7, s.length + 9) [] [node.shift 8]] [] (s.length + 9) := by
  have hg := language_ordered
  have hlength := (h.length_add hg).trans (length_skip_add s)
  obtain ⟨harg, hbt⟩ := found_in_brackets steady_expr (blanks_drop_blanks s) hb.skip h 8
  have hrest : scriptReader.skip (t ++ [')']) = [')'] := by
    rw [hbt.skip_eq, ht]
    rfl
  -- no comma is behind the argument, but the bracket is
  have hcommas : language.Found (.many (.all [.lit ",", .call .expr]))
      (scriptReader.skip (t ++ [')'])) (s.length + 8) [] [')'] (s.length + 8) := by
    rw [hrest]
    exact .done hg (.noFirst (refuses_text rfl)) _
  have hclose : language.Found (.lit ")") (scriptReader.skip [')']) (s.length + 8) [] []
      (s.length + 9) := .text (s.length + 8)
  have hitems : language.Found (.all [.call .expr, .many (.all [.lit ",", .call .expr])])
      (scriptReader.skip s ++ [')']) (blanks s + 8) [node.shift 8] [')'] (s.length + 8) := by
    refine harg.seq hg ?_ hcommas
    rw [hrest, List.length_append, List.length_singleton]
    omega
  have hinner := hitems.present.seq hg rfl hclose
  rw [← hb.skip_eq] at hinner
  have hopen : language.Found (.lit "(") ('(' :: (s ++ [')'])) 7 [] (s ++ [')']) 8 := .text 7
  refine .phrase hg rfl (hopen.seq hg ?_ hinner)
  rw [hb.skip_eq, List.length_append, List.length_append, ← length_skip_add s]
  omega

theorem blanks_callText (s : List Char) : blanks (callText s) = 0 :=
  blanks_eq_zero (fun _ hc ↦ Option.some.inj hc ▸ rfl) rfl

theorem name_callText (s : List Char) : Lexeme.name (callText s) = some 7 :=
  rfl

/-- The call is an expression of every level, and its argument is what stands in the brackets. -/
theorem found_call (hb : Behind [')'] s)
    (h : language.Found (.call .expr) (scriptReader.skip s) (blanks s) [node] t stop)
    (ht : Ends t) :
    language.Found (.call .expr) (callText s) 0
      [raiseAt (0, s.length + 9) 0 8 (callNode (s.length + 9) (node.shift 8))] []
      (s.length + 9) := by
  have hg := language_ordered
  have hargs := found_callArgs hb h ht
  have hname : language.Found (.call .ident) (callText s) 0 [.mk .ident (0, 7) "inspect".toList []]
      ('(' :: (s ++ [')'])) 7 :=
    .token rfl (name_callText s) (language_bounded .ident _ rfl _ _ (name_callText s))
  have hprimary : language.Found Symbol.anyPrimary (callText s) 0
      [.mk .ident (0, 7) "inspect".toList []] ('(' :: (s ++ [')'])) 7 :=
    .right hg (refuses_token rfl rfl) (.right hg (refuses_token rfl rfl)
      (.right hg (refuses_token rfl rfl) (.right hg (refuses_token rfl rfl)
      (.right hg (refuses_token rfl rfl)
      (.right hg (.noPhrase rfl (.noFirst (refuses_text rfl)))
      (.right hg (.noPhrase rfl (.noFirst (refuses_text rfl))) (.left hname)))))))
  have hlinks := Language.Found.once hg hargs.left refuses_suffix_nil
  rw [← skip_paren] at hlinks
  have hpostfixed : language.Found (.call .postfixed) (callText s) 0
      [callNode (s.length + 9) (node.shift 8)] [] (s.length + 9) :=
    .phrase hg rfl (hprimary.seq hg (by rw [skip_paren]) hlinks)
  exact found_level (Nat.zero_add 8) (blanks_callText s) (refuses_token rfl rfl) hpostfixed

/-- The call is no statement: no semicolon is behind it, and no assignment operator behind the
name. -/
theorem refuses_statement_callText (h : Takes (.call .expr) (callText s) [node] []) :
    Refuses Symbol.anyStatement (callText s) := by
  have hword : wordAt (callText s) = "inspect".toList := rfl
  have hparen := skip_paren (s ++ [')'])
  have hpath : Refuses (.any [.call .index, .call .member])
      (scriptReader.skip ('(' :: (s ++ [')']))) := by
    rw [hparen]
    exact .right (.noPhrase rfl (.noFirst (refuses_text rfl)))
      (.noPhrase rfl (.noFirst (refuses_text rfl)))
  have htarget : Takes (.call .assignTarget) (callText s)
      [phraseNode .assignTarget [tokenNode .ident "inspect".toList]] ('(' :: (s ++ [')'])) := by
    rw [← hparen]
    exact .phrase rfl (.seq (takes_token rfl (name_callText s)) (.done hpath))
  have hassignment : Refuses (.call .assignment) (callText s) := by
    refine .noPhrase rfl (.noSecond htarget (.noFirst ?_))
    rw [hparen]
    exact refuses_token rfl rfl
  refine derives_statement (refuses_text rfl) (fun hrule hwords ↦ ?_) hassignment
    (refuses_token rfl rfl) (.noPhrase rfl (.noSecond h (refuses_token rfl rfl)))
  refine refuses_token hrule (word_eq_none fun w hw heq ↦ ?_)
  rw [hword, String.toList_inj] at heq
  exact absurd (heq ▸ (hwords w hw).1) (by decide)

/-- Around its argument nothing but the call is built. -/
theorem exprOf_callNode (n : Nat) (arg : Node Symbol) :
    exprOf 8 (callNode (n + 9) arg) = (do
      let e ← exprOf 10 arg
      return .call ⟨0, n + 9⟩ (.name ⟨0, 7⟩ "inspect") [e]) := by
  rw [callNode, exprOf, checkDepth_eq_ok (show 8 ≤ maxDepth by decide)]
  cases h : exprOf 10 arg <;>
    simp only [exprOf, suffixesOf, exprsOf, checkDepth_eq_ok (show 9 ≤ maxDepth by decide), h] <;>
    rfl

end Call

/-! ### Inspected texts -/

/-- A closing bracket behind the text is a part of the code: the text does not go on to its end in a
comment. -/
def ClosesBehind (source : String) : Prop :=
  code (source.toList ++ [')']) = code source.toList ++ [')']

instance (source : String) : Decidable (ClosesBehind source) :=
  decEq _ _

section Inspected

variable {source : String}

/-- The parser's answer on an inspected expression is that of building it further on and further
down. -/
theorem parse_inspection_of_found {t : List Char} {node : Node Symbol} {stop : Nat}
    (hguard : checkNesting (Command.inspection source).toList = .ok ())
    (hb : Behind [')'] source.toList)
    (h : language.Found (.call .expr) (scriptReader.skip source.toList) (blanks source.toList)
      [node] t stop)
    (ht : Ends t) :
    parse (Command.inspection source) = (do
      let arg ← exprOf 10 (node.shift 8)
      return ⟨[], some (.call ⟨0, source.length + 9⟩ (.name ⟨0, 7⟩ "inspect") [arg])⟩) := by
  have hcall := found_call hb h ht
  have hnone := refuses_statement_callText (hcall.derives language_ordered)
  have hblanks := blanks_callText source.toList
  rw [← toList_inspection] at hcall hnone hblanks
  have hparse := parse_of_found_front hguard hblanks hnone hcall ends_nil
  rw [hparse, exprOf_raiseAt _ (by decide) (by decide), exprOf_callNode, String.length_toList]
  cases exprOf 10 (node.shift 8) <;> rfl

/-- Where the bracket is not a part of the code, the one in front of the text stays open. -/
theorem exists_error_of_not_closesBehind
    (hguard : checkNesting (Command.inspection source).toList = .ok ())
    (hdepth : depthBehind 0 (code source.toList) = some 0) (h : ¬ClosesBehind source) :
    ∃ c, parse (Command.inspection source) = .error c ∧ c.problem.id = "SC1001" := by
  obtain ⟨r, hr⟩ := exists_derives scriptBody (scriptReader.skip (Command.inspection source).toList)
  rcases r with - | ⟨nodes, t⟩
  · exact parse_error hguard hr
  · have hcode : code (Command.inspection source).toList =
        "inspect(".toList ++ (code source.toList ++ [' ']) := by
      rw [toList_inspection, ← (code_append_closer source.toList).resolve_left h]
      exact code_plain (by decide) _
    have hclosed := depthBehind_of_takes hr
    have hopen : depthBehind 0 (code (Command.inspection source).toList) = some 1 :=
      hcode ▸ depthBehind_append.2 ⟨1, rfl, depthBehind_append.2 ⟨1, depthBehind_add hdepth 1, rfl⟩⟩
    cases hopen.symm.trans hclosed

/-- Digits are inspected, if the bracket behind the blanks that follow them is part of the code. -/
theorem exists_parse_inspection {digits tail : List Char}
    (hguard : checkNesting (Command.inspection source).toList = .ok ())
    (hsource : source.toList = digits ++ tail) (h : Number digits tail) (ht : Ends tail)
    (hdigits : digitsValue digits < intBound) (hdepth : depthBehind 0 (code source.toList) = some 0)
    (hcloses : ClosesBehind source) :
    ∃ program, parse (Command.inspection source) = .ok program := by
  have hb : Behind [')'] source.toList := ⟨.inr ⟨rfl, hcloses⟩, 0, hdepth⟩
  have hblanks : blanks source.toList = 0 := hsource ▸ h.operand.blanks
  obtain ⟨span, hfound⟩ := found_number h ht (blanks source.toList)
  rw [← hsource] at hfound
  have hparse := parse_inspection_of_found hguard hb (by rwa [skip_of_blanks hblanks]) ends_nil
  rw [hparse, shift_raiseAt, Node.shift, Node.shiftAll, exprOf_number (by decide) _ _ hdigits]
  exact ⟨_, rfl⟩

end Inspected

/-! ### The command -/

/-- The text of an expression is inspected as that expression, with its places behind the eight
characters in front of it, if and only if a bracket behind it is a part of the code. If it is not,
the call is never closed. -/
theorem parse_inspection {source : String} {e : Expr} (h : parse source = .ok ⟨[], some e⟩)
    (hdeep : ∀ c, parse (Command.inspection source) = .error c → c.problem.id ≠ "SC8078") :
    (parse (Command.inspection source) =
        .ok ⟨[], some (.call ⟨0, source.length + 9⟩ (.name ⟨0, 7⟩ "inspect") [e.shift 8])⟩ ↔
      ClosesBehind source) ∧
    (¬ClosesBehind source →
      ∃ c, parse (Command.inspection source) = .error c ∧ c.problem.id = "SC1001") := by
  have hdepth := depthBehind_code h
  have hguard : checkNesting (Command.inspection source).toList = .ok () :=
    (checkNesting_cases _).resolve_right fun ⟨c, hc, hproblem⟩ ↦
      hdeep c (parse_of_checkNesting hc) (hproblem ▸ rfl)
  have herror := exists_error_of_not_closesBehind hguard hdepth
  refine ⟨⟨fun hparse ↦ ?_, fun hcloses ↦ ?_⟩, herror⟩
  · refine Decidable.byContradiction fun hopen ↦ ?_
    obtain ⟨c, hc, -⟩ := herror hopen
    cases hc.symm.trans hparse
  · have hb : Behind [')'] source.toList := ⟨.inr ⟨rfl, hcloses⟩, 0, hdepth⟩
    obtain ⟨node, t, stop, hfound, ht, htree⟩ := exists_built h
    have hinspected := parse_inspection_of_found hguard hb hfound ht
    rcases lowered_exprOf 8 0 10 node e htree with harg | ⟨c, harg, hproblem⟩
    · rw [hinspected, harg]
      rfl
    · refine absurd ?_ (hdeep c (by rw [hinspected, harg]; rfl))
      rw [hproblem]
      rfl

/-- A line comment that ends in front of the bracket. -/
theorem parse_inspection_commented :
    let source := "1// )\n"
    let e : Expr := .literal ⟨0, 1⟩ (.int 1)
    parse source = .ok ⟨[], some e⟩ ∧
      (∀ c, parse (Command.inspection source) = .error c → c.problem.id ≠ "SC8078") ∧
      parse (Command.inspection source) =
        .ok ⟨[], some (.call ⟨0, source.length + 9⟩ (.name ⟨0, 7⟩ "inspect") [e.shift 8])⟩ := by
  intro source e
  have ht : Ends "// )\n".toList := by
    rw [Ends]
    decide +kernel
  have hnumber : Number ['1'] "// )\n".toList :=
    number_of_ends (by decide) (List.forall_mem_singleton.2 rfl) ht
  have hguard : checkNesting source.toList = .ok () := checkNesting_eq_ok_iff.2 (by decide +kernel)
  have hguard' : checkNesting (Command.inspection source).toList = .ok () :=
    checkNesting_eq_ok_iff.2 (by decide +kernel)
  have hcloses : ClosesBehind source := by decide +kernel
  have hsource : source.toList = ['1'] ++ "// )\n".toList := by decide +kernel
  have hparse : parse source = .ok ⟨[], some e⟩ :=
    parse_number hguard hsource hnumber ht (by decide)
  have hdeep : ∀ c, parse (Command.inspection source) = .error c → c.problem.id ≠ "SC8078" := by
    obtain ⟨program, hprogram⟩ := exists_parse_inspection hguard' hsource hnumber ht (by decide)
      (depthBehind_code hparse) hcloses
    intro c hc
    cases hc.symm.trans hprogram
  exact ⟨hparse, hdeep, (parse_inspection hparse hdeep).1.2 hcloses⟩

/-- The bracket behind a number and a line comment is a part of the comment. -/
theorem parse_inspection_swallowed :
    parse "1//" = .ok ⟨[], some (.literal ⟨0, 1⟩ (.int 1))⟩ ∧
      ∃ c, parse (Command.inspection "1//") = .error c ∧ c.problem.id = "SC1001" := by
  have ht : Ends "//".toList := by
    rw [Ends]
    decide +kernel
  have hnumber : Number ['1'] "//".toList :=
    number_of_ends (by decide) (List.forall_mem_singleton.2 rfl) ht
  have hguard : checkNesting "1//".toList = .ok () := checkNesting_eq_ok_iff.2 (by decide +kernel)
  have hsource : "1//".toList = ['1'] ++ "//".toList := by decide +kernel
  have hparse := parse_number hguard hsource hnumber ht (by decide)
  refine ⟨hparse, exists_error_of_not_closesBehind (checkNesting_eq_ok_iff.2 (by decide +kernel))
    (depthBehind_code hparse) (by decide +kernel)⟩

end Snippet.Script
