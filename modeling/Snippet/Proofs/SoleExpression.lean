import Snippet.Proofs.BracketedText
import Snippet.Proofs.Signs

/-!
# Scripts that are an expression

A script without statements that has a result is an expression and nothing else (`exists_sole`): a
statement at its front would be one of the program (`refuses_statement`). An expression that is
found in front of the end of a text is built with the places it has there (`parse_of_found`), and
whatever is parsed to an expression is built from such a place (`exists_built`).

Up to the end of a text an innermost expression is one of every level of the grammar
(`found_level`). With this the script of a number is read (`parse_number`).
-/

namespace Snippet.Script

open Grammar

/-! ### Scripts that are an expression -/

section Sole

variable {s t : List Char} {nodes : List (Node Symbol)}

/-- Of a choice between symbols, one is found. -/
theorem exists_of_any {symbols : List Symbol}
    (h : Takes (.any (symbols.map .call)) s nodes t) :
    ∃ symbol ∈ symbols, Takes (.call symbol) s nodes t := by
  match symbols with
  | [] =>
    cases h with
    | notFound h =>
      cases h with
      | noText h => cases h
  | [symbol] => exact ⟨symbol, List.mem_singleton_self _, h⟩
  | symbol :: next :: rest =>
    cases h with
    | left h => exact ⟨symbol, List.mem_cons_self .., h⟩
    | right _ h =>
      obtain ⟨found, hmem, hfound⟩ := exists_of_any h
      exact ⟨found, List.mem_cons_of_mem _ hmem, hfound⟩

/-- The kinds of statements. -/
def statementSymbols : List Symbol :=
  [.block, .ifStmt, .whileStmt, .foreachStmt, .returnStmt, .throwStmt, .breakStmt, .continueStmt,
    .declaration, .assignment, .exprStmt, .emptyStmt]

theorem exists_statement (h : Takes Symbol.anyStatement s nodes t) :
    ∃ symbol ∈ statementSymbols, ∃ parts, nodes = [phraseNode symbol parts] := by
  have hrule : ∀ symbol ∈ statementSymbols, ∃ body, language.rule symbol = .phrase true body := by
    simp [statementSymbols, language, Symbol.rule]
  have hany : Takes (.any (statementSymbols.map .call)) s nodes t := h
  obtain ⟨symbol, hmem, hsymbol⟩ := exists_of_any hany
  obtain ⟨body, hbody⟩ := hrule symbol hmem
  obtain ⟨parts, hnodes, -⟩ := exists_parts hbody hsymbol
  exact ⟨symbol, hmem, parts, hnodes⟩

/-- The program of a statement and what is behind it has a statement. -/
theorem statements_ne_nil {symbol : Symbol} (hsymbol : symbol ∈ statementSymbols)
    {parts rest : List (Node Symbol)} {program : Program}
    (h : programOf (phraseNode symbol parts :: rest) = .ok program) : program.statements ≠ [] := by
  rw [phraseNode, programOf] at h
  · cases hstmt : stmtOf 0 (.mk symbol (0, 0) [] parts) <;> rw [hstmt] at h
    · cases h
    · cases hrest : programOf rest <;> rw [hrest] at h <;> cases h
      exact List.cons_ne_nil _ _
  · rintro _ _ _ ⟨⟩
    exact absurd hsymbol (by decide)
  · rintro _ _ _ ⟨⟩
    exact absurd hsymbol (by decide)

/-- Where the program of a script has no statements, none is found. -/
theorem refuses_statement {program : Program} (h : Takes scriptBody s nodes t)
    (hprogram : programOf nodes = .ok program) (hempty : program.statements = []) :
    Refuses Symbol.anyStatement s := by
  obtain ⟨statements, u, more, rfl, hmany, -⟩ := exists_seq h
  obtain ⟨r, hr⟩ := exists_derives Symbol.anyStatement s
  rcases r with - | ⟨found, v⟩
  · exact hr
  · obtain ⟨symbol, hsymbol, parts, rfl⟩ := exists_statement hr
    obtain ⟨behind, rfl⟩ := exists_many hr hmany
    exact absurd hempty (statements_ne_nil hsymbol hprogram)

/-- Nothing is left where the end of the text is found. -/
theorem ends_of_takes_ending (h : Takes (.call .ending) (scriptReader.skip s) nodes t) :
    Ends s ∧ ∃ chars, nodes = [tokenNode .ending chars] := by
  obtain ⟨chars, rfl, hlexeme⟩ := exists_token rfl h
  refine ⟨?_, chars, rfl⟩
  cases hskip : scriptReader.skip s with
  | nil => exact hskip
  | cons c rest =>
    rw [hskip] at hlexeme
    exact absurd rfl hlexeme

/-- What is parsed has a program without its places, which is that of what is derived. -/
theorem exists_programOf {source : String} {program : Program} (h : parse source = .ok program)
    (hnodes : Takes scriptBody (scriptReader.skip source.toList) nodes t) :
    ∃ p, programOf nodes = .ok p ∧ p.bare = program.bare := by
  have houtline := outline_parse (checkNesting_of_parse h) hnodes
  rw [h] at houtline
  cases hprogram : programOf nodes with
  | error c =>
    rw [hprogram] at houtline
    cases houtline
  | ok p =>
    rw [hprogram] at houtline
    exact ⟨p, rfl, (Except.ok.inj houtline).symm⟩

/-- A script without statements that has a result is an expression with nothing behind it. -/
theorem exists_sole {source : String} {e : Expr} (h : parse source = .ok ⟨[], some e⟩) :
    ∃ node t, Refuses Symbol.anyStatement (scriptReader.skip source.toList) ∧
      Takes (.call .expr) (scriptReader.skip source.toList) [node] t ∧ Ends t := by
  obtain ⟨r, hr⟩ := exists_derives scriptBody (scriptReader.skip source.toList)
  rcases r with - | ⟨nodes, t⟩
  · obtain ⟨c, herror, -⟩ := parse_error (checkNesting_of_parse h) hr
    cases herror.symm.trans h
  obtain ⟨⟨statements, tail⟩, hprogram, hbare⟩ := exists_programOf h hr
  obtain ⟨hempty, htail⟩ := Program.mk.inj hbare
  have hnone : Refuses Symbol.anyStatement (scriptReader.skip source.toList) := by
    refine refuses_statement hr hprogram ?_
    cases statements with
    | nil => rfl
    | cons => cases hempty
  obtain ⟨_, u, more, rfl, hmany, hmore⟩ := exists_seq hr
  obtain ⟨rfl, rfl⟩ := eq_nil_of_many hnone hmany
  obtain ⟨_, v, rest, rfl, hresult, hending⟩ := exists_seq hmore
  obtain ⟨hv, chars, rfl⟩ := ends_of_takes_ending hending
  rw [skip_skip] at hresult
  cases hresult with
  | missing =>
    -- the program of the end of the text alone has no result
    cases hprogram
    cases htail
  | present hresult =>
    obtain ⟨parts, rfl, hexpr⟩ := exists_parts rfl hresult
    obtain ⟨_, rfl, -⟩ := exists_parts rfl hexpr
    exact ⟨_, v, hnone, hexpr, hv⟩

/-- The parser's answer on an expression with nothing behind it is that of building the expression,
with its places in the source text. -/
theorem parse_of_found {source : String} {node : Node Symbol} {stop : Nat}
    (hguard : checkNesting source.toList = .ok ())
    (hnone : Refuses Symbol.anyStatement (scriptReader.skip source.toList))
    (h : language.Found (.call .expr) (scriptReader.skip source.toList) (blanks source.toList)
      [node] t stop)
    (ht : Ends t) :
    parse source = (do
      let tree ← exprOf 0 node
      return ⟨[], some tree⟩) := by
  have hg := language_ordered
  have hending : language.Found (.call .ending) (scriptReader.skip t) (t.length + stop)
      [.mk .ending (t.length + stop, t.length + stop) [] []] [] (t.length + stop) := by
    rw [ht]
    exact .token (n := 0) (s := []) rfl rfl (Nat.le_refl 0)
  have hlength := length_skip_add source.toList
  have htail : language.Found (.optional (.call .tailExpr)) (scriptReader.skip source.toList)
      (blanks source.toList) [.mk .tailExpr (blanks source.toList, stop) [] [node]] t stop :=
    .present (.phrase hg rfl h)
  have hrest := htail.seq hg (by rw [ht, List.length_nil, Nat.zero_add]) hending
  rw [← skip_skip source.toList] at hrest
  have hstatements := Language.Found.done hg hnone (blanks source.toList)
  have hbody := hstatements.seq hg (by rw [skip_skip]) hrest
  have hstart : language.Found (.text []) source.toList 0 [] source.toList 0 := .text 0
  have hprogram : language.Found (.call .program) source.toList 0 _ _ _ :=
    .phrase hg rfl (hstart.seq hg hlength hbody)
  rw [parse_of_node hguard (hprogram.parse hg)]
  cases htree : exprOf 0 node <;>
    simp only [Node.parts, List.nil_append, List.cons_append, programOf, htree] <;> rfl

theorem parse_of_found_front {source : String} {node : Node Symbol} {stop : Nat}
    (hguard : checkNesting source.toList = .ok ()) (hs : blanks source.toList = 0)
    (hnone : Refuses Symbol.anyStatement source.toList)
    (h : language.Found (.call .expr) source.toList 0 [node] t stop) (ht : Ends t) :
    parse source = (do
      let tree ← exprOf 0 node
      return ⟨[], some tree⟩) := by
  rw [← skip_of_blanks hs] at hnone
  exact parse_of_found hguard hnone (by rwa [skip_of_blanks hs, hs]) ht

theorem steady_expr : Steady (.call .expr) 0 0 :=
  ⟨rfl, trivial, rfl⟩

/-- Where the expression stands in such a script, and that it is built from there. -/
theorem exists_built {source : String} {e : Expr} (h : parse source = .ok ⟨[], some e⟩) :
    ∃ node t stop, language.Found (.call .expr) (scriptReader.skip source.toList)
        (blanks source.toList) [node] t stop ∧
      Ends t ∧ exprOf 0 node = .ok e := by
  obtain ⟨bare, t, hnone, hexpr, ht⟩ := exists_sole h
  have hcloses : ∃ d, depthBehind d (code (scriptReader.skip source.toList)) = some 0 :=
    (Behind.mk (.inl rfl) ⟨0, depthBehind_code h⟩).skip.closes
  obtain ⟨placed, stop, hfound, hbare⟩ :=
    exists_found steady_expr (blanks_drop_blanks _) hcloses hexpr (blanks source.toList)
  obtain ⟨node, _, rfl, -, hrest⟩ := bareAll_eq_cons_iff.1 hbare
  obtain rfl := bareAll_eq_nil_iff.1 hrest
  refine ⟨node, t, stop, hfound, ht, ?_⟩
  have hsource := parse_of_found (checkNesting_of_parse h) hnone hfound ht
  rw [h] at hsource
  cases htree : exprOf 0 node with
  | error c =>
    rw [htree] at hsource
    cases hsource
  | ok tree =>
    rw [htree] at hsource
    cases hsource
    rfl

end Sole

/-! ### Levels -/

/-- The nodes of the levels above an innermost expression, all of them where it stands. -/
def raiseAt (span : Nat × Nat) (level : Nat) : Nat → Node Symbol → Node Symbol
  | 0, node => node
  | count + 1, node => .mk (levelSymbol level) span [] [raiseAt span (level + 1) count node]

theorem exprOf_raiseAt {level count depth : Nat} (span : Nat × Nat) (hlevel : level + count ≤ 9)
    (hdepth : depth + count ≤ maxDepth + 1) (node : Node Symbol) :
    exprOf depth (raiseAt span level count node) = exprOf (depth + count) node := by
  induction count generalizing level depth with
  | zero => rfl
  | succ count ih =>
    rw [raiseAt, exprOf_only_part (by omega) (by omega), ih (by omega) (by omega),
      Nat.add_right_comm, Nat.add_assoc]

/-- A chain whose operand goes up to the end of the text has no other one. -/
theorem found_chain {level place stop : Nat} (hlevel : level ∈ [1, 2, 3, 4, 5, 6]) {s : List Char}
    {node : Node Symbol} (h : language.Found (operandAt level) s place [node] [] stop) :
    language.Found (.call (levelSymbol level)) s place
      [.mk (levelSymbol level) (place, stop) [] [node]] [] stop := by
  have hchain : level ∈ chains := List.mem_append_left [8] hlevel
  have hdone := Language.Found.done language_ordered (refuses_operator hlevel ends_nil.closes) stop
  exact .phrase language_ordered (rule_of_mem_chains hchain) (h.seq language_ordered rfl hdone)

/-- An innermost expression up to the end of the text is an expression of every level. -/
theorem found_level {level count place stop : Nat} (hcount : level + count = 8) {s : List Char}
    {node : Node Symbol} (hs : blanks s = 0) (hsign : Refuses (.call .unaryOp) s)
    (h : language.Found (.call .postfixed) s place [node] [] stop) :
    language.Found (.call (levelSymbol level)) s place [raiseAt (place, stop) level count node] []
      stop := by
  have hg := language_ordered
  have hend : (scriptReader.skip []).length + stop = ([] : List Char).length + stop := rfl
  induction count generalizing level with
  | zero =>
    obtain rfl : level = 8 := hcount
    exact h
  | succ count ih =>
    have hnext : language.Found (.call (levelSymbol (level + 1))) s place _ [] stop := ih (by omega)
    match level, (by omega : level ≤ 7) with
    | 0, _ =>
      refine .phrase hg rfl (hnext.seq hg hend (.missing hg ?_ stop))
      exact .noFirst (refuses_text rfl)
    | 1, _ | 2, _ | 3, _ | 4, _ | 5, _ | 6, _ => exact found_chain (by decide) hnext
    | 7, _ =>
      have hsigns := Language.Found.done hg hsign place
      rw [← skip_of_blanks hs] at hnext
      exact .phrase hg rfl (hsigns.seq hg (by rw [skip_of_blanks hs]) hnext)

theorem shift_raiseAt (k : Nat) (span : Nat × Nat) (level count : Nat) (node : Node Symbol) :
    (raiseAt span level count node).shift k =
      raiseAt (span.1 + k, span.2 + k) level count (node.shift k) := by
  induction count generalizing level with
  | zero => rfl
  | succ count ih => simp only [raiseAt, Node.shift, Node.shiftAll, ih]

/-! ### Numbers -/

section Number

variable {digits tail : List Char}

/-- Digits up to the blanks at the end of a text. -/
theorem found_number (h : Number digits tail) (ht : Ends tail) (place : Nat) :
    ∃ span, language.Found (.call .expr) (digits ++ tail) place
      [raiseAt span 0 9 (.mk .intLit (place, place + digits.length) digits [])] [] span.2 := by
  have hg := language_ordered
  have htoken : language.Found (.call .intLit) (digits ++ tail) place
      [.mk .intLit (place, place + digits.length) digits []] tail (place + digits.length) := by
    have hlength := language_bounded .intLit _ rfl _ _ h.integer
    simpa only [List.take_left, List.drop_left] using Language.Found.token rfl h.integer hlength
  have hprimary : language.Found Symbol.anyPrimary (digits ++ tail) place
      [.mk .intLit (place, place + digits.length) digits []] tail (place + digits.length) :=
    .right hg (refuses_token rfl h.fraction) (.left htoken)
  obtain ⟨stop, hstop⟩ : ∃ stop, stop = tail.length + (place + digits.length) := ⟨_, rfl⟩
  have hlinks : language.Found (.many (linkAt 8)) (scriptReader.skip tail) stop [] [] stop := by
    rw [ht]
    exact .done hg refuses_suffix_nil stop
  have hpostfixed : language.Found (.call .postfixed) (digits ++ tail) place
      [.mk .postfixed (place, stop) [] [.mk .intLit (place, place + digits.length) digits []]] []
      stop := by
    refine .phrase hg rfl (hprimary.seq hg ?_ hlinks)
    rw [ht, hstop, List.length_nil, Nat.zero_add]
  have hexpr : language.Found (.call (levelSymbol 0)) (digits ++ tail) place _ [] stop :=
    found_level (Nat.zero_add 8) h.operand.blanks (refuses_token rfl h.oneOf_eq_none) hpostfixed
  exact ⟨(place, stop), hexpr⟩

theorem exprOf_number {depth : Nat} (hdepth : depth + 9 ≤ maxDepth) (span place : Nat × Nat)
    (hdigits : digitsValue digits < intBound) :
    exprOf depth (raiseAt span 0 9 (.mk .intLit place digits [])) =
      .ok (.literal ⟨place.1, place.2⟩ (.int (Int64.ofNat (digitsValue digits)))) := by
  rw [exprOf_raiseAt span (Nat.le_refl 9) (Nat.le_succ_of_le hdepth), exprOf,
    checkDepth_eq_ok hdepth]
  show (if digitsValue digits < intBound then _ else _) = _
  rw [if_pos hdigits]
  rfl

variable {source : String} (hguard : checkNesting source.toList = .ok ())
  (hsource : source.toList = digits ++ tail) (h : Number digits tail) (ht : Ends tail)
  (hdigits : digitsValue digits < intBound)

include hguard hsource h ht hdigits

/-- Digits with nothing but blanks behind them are an integer. -/
theorem parse_number :
    parse source =
      .ok ⟨[], some (.literal ⟨0, digits.length⟩ (.int (Int64.ofNat (digitsValue digits))))⟩ := by
  obtain ⟨span, hfound⟩ := found_number h ht 0
  have hnone : Refuses Symbol.anyStatement (digits ++ tail) :=
    h.operand.derives_statement (.noPhrase rfl (.noSecond (hfound.derives language_ordered)
      (refuses_token rfl rfl)))
  have hblanks : blanks source.toList = 0 := hsource ▸ h.operand.blanks
  rw [← hsource] at hfound hnone
  rw [parse_of_found_front hguard hblanks hnone hfound ends_nil,
    exprOf_number (by decide) _ _ hdigits, Nat.zero_add]
  rfl

end Number

end Snippet.Script
