import Snippet.Proofs.Comments
import Snippet.Proofs.SourcePlaces

/-!
# Scripts that are one operand

A script may consist of a single operand: signs and an innermost expression, with nothing but blanks
around it. Such an operand is on its own a phrase of every level of the grammar (`takes_level`), and
the script has it as its only part (`takes_scriptBody`). Building passes through the nodes between
the two without doing anything (`exprOf_only_part`), so that the answer of the parser is that of
building the operand, where the source text has it (`exists_operand`).
-/

namespace Snippet.Script

open Grammar

/-! ### Reading characters -/

section Steps

variable {symbol : Symbol} {lexeme : Recogniser} {chars s t : List Char} {n : Nat}

/-- What is found when the characters are read. -/
abbrev Takes (p : Pattern Symbol) (s : List Char) (nodes : List (Node Symbol)) (t : List Char) :
    Prop :=
  Derives language scriptReader p s (some (nodes, t))

/-- Nothing is found when the characters are read. -/
abbrev Refuses (p : Pattern Symbol) (s : List Char) : Prop :=
  Derives language scriptReader p s none

theorem takes_token (hrule : language.rule symbol = .token lexeme) (h : lexeme s = some n) :
    Takes (.call symbol) s [tokenNode symbol (s.take n)] (s.drop n) :=
  .token ⟨lexeme, hrule, by rw [h, Option.map_some]⟩

theorem refuses_token (hrule : language.rule symbol = .token lexeme) (h : lexeme s = none) :
    Refuses (.call symbol) s :=
  .noToken ⟨lexeme, hrule, by rw [h, Option.map_none]⟩

theorem refuses_text (h : chars.isPrefixOf s = false) : Refuses (.text chars) s :=
  .noText (by simp only [Language.reader, h, Bool.false_eq_true, if_false])

end Steps

/-! ### What must have been read -/

section Inversion

variable {a b : Pattern Symbol} {s t u : List Char} {ns nodes : List (Node Symbol)}

/-- A phrase is one node with the parts that its pattern finds. -/
theorem exists_parts {symbol : Symbol} {body : Pattern Symbol}
    (hrule : language.rule symbol = .phrase true body) (h : Takes (.call symbol) s nodes t) :
    ∃ parts, nodes = [phraseNode symbol parts] ∧ Takes body s parts t := by
  cases h with
  | token htoken => exact (Language.not_reader_token hrule htoken).elim
  | phrase hrule' h =>
    cases hrule.symm.trans hrule'
    exact ⟨_, rfl, h⟩

theorem exists_token {symbol : Symbol} {lexeme : Recogniser}
    (hrule : language.rule symbol = .token lexeme) (h : Takes (.call symbol) s nodes t) :
    ∃ chars, nodes = [tokenNode symbol chars] ∧ lexeme s ≠ none := by
  cases h with
  | token htoken =>
    obtain ⟨lexeme', hrule', h⟩ := htoken
    cases hrule.symm.trans hrule'
    exact ⟨_, rfl, fun hnone ↦ by simp [hnone] at h⟩
  | phrase hrule' => cases hrule.symm.trans hrule'

theorem exists_seq (h : Takes (.seq a b) s nodes u) :
    ∃ ns t more, nodes = ns ++ more ∧ Takes a s ns t ∧ Takes b (scriptReader.skip t) more u := by
  cases h with
  | seq ha hb => exact ⟨_, _, _, rfl, ha, hb⟩

theorem takes_right (ha : Refuses a s) (h : Takes (.choice a b) s nodes t) :
    Takes b s nodes t := by
  cases h with
  | left h => cases h.unique ha
  | right _ h => exact h

/-- A repetition starts with what is found first. -/
theorem exists_many (h : Takes a s ns t) (hmany : Takes (.many a) s nodes u) :
    ∃ more, nodes = ns ++ more := by
  cases hmany with
  | done h' => cases h.unique h'
  | stuck h' => cases h.unique h'; exact ⟨[], (List.append_nil _).symm⟩
  | last h' => cases h.unique h'; exact ⟨[], (List.append_nil _).symm⟩
  | more h' => cases h.unique h'; exact ⟨_, rfl⟩

/-- A repetition of what is not found finds nothing. -/
theorem eq_nil_of_many (h : Refuses a s) (hmany : Takes (.many a) s nodes u) :
    nodes = [] ∧ u = s := by
  cases hmany with
  | done => exact ⟨rfl, rfl⟩
  | stuck h' => cases h.unique h'
  | last h' => cases h.unique h'
  | more h' => cases h.unique h'

end Inversion

theorem skip_skip (s : List Char) :
    scriptReader.skip (scriptReader.skip s) = scriptReader.skip s :=
  skip_of_blanks (blanks_drop_blanks s)

/-! ### Operands on their own -/

/-- Nothing but blanks is left. -/
def Ends (t : List Char) : Prop :=
  scriptReader.skip t = []

theorem ends_nil : Ends [] :=
  rfl

/-- Nothing, or a character with which no operator starts. -/
def Closes (u : List Char) : Prop :=
  ∀ c ∈ u.head?, c ∈ ['(', '[', '.']

theorem Ends.closes {t : List Char} (h : Ends t) : Closes (scriptReader.skip t) := by
  rw [h]
  exact fun _ h ↦ nomatch h

/-- No operator is found where none starts. -/
theorem refuses_operator {level : Nat} (h : level ∈ [1, 2, 3, 4, 5, 6]) {u : List Char}
    (hu : Closes u) : Refuses (linkAt level) u := by
  have hlexemes : Lexeme.exactly "||" u = none ∧ Lexeme.exactly "&&" u = none ∧
      Lexeme.oneOf ["==", "!="] u = none ∧ Lexeme.oneOf ["<=", ">=", "<", ">"] u = none ∧
      Lexeme.oneOf ["+", "-"] u = none ∧ Lexeme.oneOf ["*", "/", "%"] u = none := by
    cases u with
    | nil => exact ⟨rfl, rfl, rfl, rfl, rfl, rfl⟩
    | cons c u =>
      have hc := hu c rfl
      simp only [List.mem_cons, List.not_mem_nil, or_false] at hc
      rcases hc with rfl | rfl | rfl <;> exact ⟨rfl, rfl, rfl, rfl, rfl, rfl⟩
  obtain ⟨hor, hand, heq, hcmp, hadd, hmul⟩ := hlexemes
  simp only [List.mem_cons, List.not_mem_nil, or_false] at h
  rcases h with rfl | rfl | rfl | rfl | rfl | rfl
  · exact .noFirst (refuses_token rfl hor)
  · exact .noFirst (refuses_token rfl hand)
  · exact .noFirst (refuses_token rfl heq)
  · exact .noFirst (refuses_token rfl hcmp)
  · exact .noFirst (refuses_token rfl hadd)
  · exact .noFirst (refuses_token rfl hmul)

/-- No suffix is found at the end of the text. -/
theorem refuses_suffix_nil : Refuses (linkAt 8) [] := by
  refine .right ?_ (.right ?_ ?_) <;> exact .noPhrase rfl (.noFirst (refuses_text rfl))

/-- A chain may have a single operand. -/
theorem takes_chain {level : Nat} (hlevel : level ∈ chains) {s t : List Char} {node : Node Symbol}
    (h : Takes (operandAt level) s [node] t)
    (hlink : Refuses (linkAt level) (scriptReader.skip t)) :
    Takes (.call (levelSymbol level)) s [phraseNode (levelSymbol level) [node]]
      (scriptReader.skip t) :=
  .phrase (rule_of_mem_chains hlevel) (.seq h (.done hlink))

/-- Signs and an operand, as a phrase of any level below, where no operator follows. -/
theorem takes_level {level count : Nat} (hcount : level + count = 7) {s t : List Char}
    {node : Node Symbol} (h : Takes (.call .unary) s [node] t)
    (ht : Closes (scriptReader.skip t)) :
    ∃ u, Takes (.call (levelSymbol level)) s [raise level count node] u ∧
      scriptReader.skip u = scriptReader.skip t := by
  induction count generalizing level with
  | zero =>
    obtain rfl : level = 7 := hcount
    exact ⟨t, h, rfl⟩
  | succ count ih =>
    have hlevel : level + 1 + count = 7 := by omega
    obtain ⟨u, hu, hskip⟩ := ih hlevel
    rw [← hskip] at ht
    refine ⟨scriptReader.skip u, ?_, (skip_skip u).trans hskip⟩
    match level, (by omega : level ≤ 6) with
    | 0, _ =>
      have hmark : "?".toList.isPrefixOf (scriptReader.skip u) = false := by
        cases hu : scriptReader.skip u with
        | nil => rfl
        | cons c _ =>
          rw [hu] at ht
          have hc := ht c rfl
          simp only [List.mem_cons, List.not_mem_nil, or_false] at hc
          rcases hc with rfl | rfl | rfl <;> rfl
      exact .phrase rfl (.seq hu (.missing (.noFirst (refuses_text hmark))))
    | 1, _ | 2, _ | 3, _ | 4, _ | 5, _ | 6, _ =>
      exact takes_chain (by decide) hu (refuses_operator (by decide) ht)

/-! ### Scripts that start with an operand -/

/-- A text that starts no statement of a fixed form, and no assignment either. -/
structure Operand (s : List Char) : Prop where
  opening : Opening s
  name : Lexeme.name s = none
  blanks : blanks s = 0

namespace Operand

variable {s t : List Char} {node : Node Symbol} {nodes : List (Node Symbol)}

/-- The only statement that starts with an operand is an expression. -/
theorem derives_statement (h : Operand s) {r : Option (List (Node Symbol) × List Char)}
    (hexpr : Derives language scriptReader (.call .exprStmt) s r) :
    Derives language scriptReader Symbol.anyStatement s r :=
  Script.derives_statement (refuses_text h.opening.block)
    (fun hrule hwords ↦ refuses_token hrule (h.opening.word hwords))
    (.noPhrase rfl (.noFirst (.noPhrase rfl (.noFirst (refuses_token rfl h.name)))))
    (refuses_token rfl h.opening.semi) hexpr

/-- An expression without a semicolon behind it is the result of the script, if the script ends
there. -/
theorem derives_scriptBody (h : Operand s) (hexpr : Takes (.call .expr) s [node] t)
    (hsemi : Lexeme.exactly ";" (scriptReader.skip t) = none)
    {r : Option (List (Node Symbol) × List Char)}
    (hending : Derives language scriptReader (.call .ending) (scriptReader.skip t) r) :
    Derives language scriptReader scriptBody s
      (r.map fun (more, u) ↦ (phraseNode .tailExpr [node] :: more, u)) := by
  have hnone : Refuses Symbol.anyStatement s :=
    h.derives_statement (.noPhrase rfl (.noSecond hexpr (refuses_token rfl hsemi)))
  have htail : Takes (.optional (.call .tailExpr)) (scriptReader.skip s)
      [phraseNode .tailExpr [node]] t := by
    rw [skip_of_blanks h.blanks]
    exact .present (.phrase rfl hexpr)
  cases r with
  | none => exact .noSecond (.done hnone) (.noSecond htail hending)
  | some m => exact .seq (.done hnone) (.seq htail hending)

/-- An operand with nothing behind it is the result of the script. -/
theorem takes_scriptBody (h : Operand s) (hexpr : Takes (.call .expr) s [node] t)
    (ht : Ends t) : Takes scriptBody s [phraseNode .tailExpr [node], tokenNode .ending []] [] := by
  have hending : Takes (.call .ending) (scriptReader.skip t) [tokenNode .ending []] [] := by
    rw [ht]
    exact .token ⟨Lexeme.ending, rfl, rfl⟩
  exact h.derives_scriptBody hexpr (by rw [ht]; rfl) hending

/-- What a script starts with is an expression, with a semicolon behind it or as its result. -/
theorem exists_first (h : Operand s) (hs : s ≠ []) (hbody : Takes scriptBody s nodes t) :
    ∃ node rest u, Takes (.call .expr) s [node] u ∧
      ((∃ semi, nodes = phraseNode .exprStmt [node, semi] :: rest) ∨
        nodes = phraseNode .tailExpr [node] :: rest) := by
  obtain ⟨statements, u, more, rfl, hmany, hmore⟩ := exists_seq hbody
  obtain ⟨r, hr⟩ := exists_derives (.call .exprStmt) s
  have hstatement := h.derives_statement hr
  rcases r with - | ⟨found, v⟩
  · obtain ⟨rfl, rfl⟩ := eq_nil_of_many hstatement hmany
    obtain ⟨tail, v, rest, rfl, htail, hending⟩ := exists_seq hmore
    rw [skip_of_blanks h.blanks] at htail
    cases htail with
    | present htail =>
      obtain ⟨parts, rfl, hexpr⟩ := exists_parts rfl htail
      obtain ⟨_, rfl, -⟩ := exists_parts rfl hexpr
      exact ⟨_, rest, v, hexpr, .inr rfl⟩
    | missing =>
      -- the end of the text is not here
      obtain ⟨_, -, hne⟩ := exists_token rfl hending
      rw [skip_of_blanks h.blanks] at hne
      obtain ⟨c, s, rfl⟩ := List.exists_cons_of_ne_nil hs
      exact absurd rfl hne
  · obtain ⟨rest, rfl⟩ := exists_many hstatement hmany
    obtain ⟨parts, rfl, hparts⟩ := exists_parts rfl hr
    obtain ⟨_, w, _, rfl, hexpr, hsemi⟩ := exists_seq hparts
    obtain ⟨_, rfl, -⟩ := exists_parts rfl hexpr
    obtain ⟨_, rfl, -⟩ := exists_token rfl hsemi
    exact ⟨_, rest ++ more, w, hexpr, .inl ⟨_, rfl⟩⟩

end Operand

/-! ### Building -/

theorem checkDepth_eq_ok {depth : Nat} (h : depth ≤ maxDepth) (span : Span) :
    checkDepth depth span = .ok () :=
  if_neg (Nat.not_lt.2 h)

theorem checkDepth_eq_error {depth : Nat} (h : maxDepth < depth) (span : Span) :
    checkDepth depth span = .error ⟨.tooDeep, span⟩ :=
  if_pos h

theorem mostNegative?_none (operand : Node Symbol) : mostNegative? none operand = none := by
  unfold mostNegative?
  split <;> rfl

/-- The nodes of the levels between an expression and its operand are passed through. -/
theorem exprOf_only_part {level depth : Nat} (hlevel : level ≤ 8) (hdepth : depth ≤ maxDepth)
    (span : Nat × Nat) (text : List Char) (part : Node Symbol) :
    exprOf depth (.mk (levelSymbol level) span text [part]) = exprOf (depth + 1) part := by
  have hcheck := checkDepth_eq_ok hdepth
  match level, hlevel with
  | 0, _ | 1, _ | 2, _ | 3, _ | 4, _ | 5, _ | 6, _ | 8, _ =>
    cases h : exprOf (depth + 1) part <;>
      simp only [levelSymbol, exprOf, chainOf, suffixesOf, hcheck, h] <;> rfl
  | 7, _ =>
    cases h : exprOf (depth + 1) part <;>
      simp [levelSymbol, exprOf, unaryOf, mostNegative?_none, hcheck, h, applyUnary] <;> rfl

/-- From the node of an expression to that of its operand. -/
theorem exists_inner {source : List Char} {level count depth : Nat} {node inner : Node Symbol}
    (hlevel : level + count ≤ 9) (hdepth : depth + count ≤ maxDepth + 1)
    (hbare : node.bare = raise level count inner) (hnode : node.Stands language source) :
    ∃ n, n.bare = inner ∧ n.Stands language source ∧
      exprOf depth node = exprOf (depth + count) n := by
  induction count generalizing level depth node with
  | zero => exact ⟨node, hbare, hnode, rfl⟩
  | succ count ih =>
    obtain ⟨span, part, rfl⟩ := eq_of_bare_eq_single hbare
    have hpart : part.bare = raise (level + 1) count inner := by
      simpa [raise, phraseNode, Node.bare, Node.bareAll] using hbare
    have hdepth' : depth + 1 + count ≤ maxDepth + 1 := by omega
    obtain ⟨n, hn, hstands, hexpr⟩ :=
      ih (by omega) hdepth' hpart (hnode.part (List.mem_singleton.2 rfl))
    refine ⟨n, hn, hstands, ?_⟩
    rw [exprOf_only_part (by omega) (by omega), hexpr, Nat.add_right_comm, Nat.add_assoc]

/-- The answer of the parser on a script that is an operand is that of building the operand, with
its places in the source text. -/
theorem exists_operand {source : String} {count : Nat} {inner : Node Symbol} (hcount : count ≤ 9)
    (hguard : checkNesting source.toList = .ok ())
    (h : Takes scriptBody (scriptReader.skip source.toList)
      [phraseNode .tailExpr [raise 0 count inner], tokenNode .ending []] []) :
    ∃ n, n.bare = inner ∧ n.Stands language source.toList ∧
      parse source = (do
        let tree ← exprOf count n
        return ⟨[], some tree⟩) := by
  obtain ⟨placed, hparse, hbare⟩ := language_ordered.parse_of_derives (derives_program h)
  obtain ⟨hstands, -⟩ := language_bounded.stands_parse hparse
  obtain ⟨symbol, span, text, parts⟩ := placed
  simp only [Node.bare, Node.mk.injEq] at hbare
  obtain ⟨tail, _, rfl, htail, hparts⟩ := bareAll_eq_cons_iff.1 hbare.2.2.2
  obtain ⟨ending, _, rfl, hending, hrest⟩ := bareAll_eq_cons_iff.1 hparts
  obtain rfl := bareAll_eq_nil_iff.1 hrest
  obtain ⟨tailSpan, node, rfl⟩ := eq_of_bare_eq_single htail
  have hnode : node.bare = raise 0 count inner := by
    simpa [phraseNode, Node.bare, Node.bareAll] using htail
  have htailStands : (Node.mk Symbol.tailExpr tailSpan [] [node]).Stands language source.toList :=
    hstands.part (List.mem_cons_self ..)
  have hdepth : 0 + count ≤ maxDepth + 1 := by
    rw [maxDepth]
    omega
  obtain ⟨n, hn, hn', hexpr⟩ :=
    exists_inner (by omega) hdepth hnode (htailStands.part (List.mem_singleton.2 rfl))
  refine ⟨n, hn, hn', ?_⟩
  rw [Nat.zero_add] at hexpr
  obtain ⟨endingSymbol, endingSpan, endingText, endingParts⟩ := ending
  obtain rfl : endingSymbol = .ending := by
    simp only [Node.bare, tokenNode, Node.mk.injEq] at hending
    exact hending.1
  rw [parse_of_node hguard hparse, ← hexpr]
  cases h : exprOf 0 node <;> simp only [Node.parts, programOf, h] <;> rfl

end Snippet.Script
