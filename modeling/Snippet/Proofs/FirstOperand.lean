import Snippet.Proofs.SoleOperand

/-!
# Scripts whose first operand cannot be built

Building a tree starts with the first operand of an expression. If that is too deep or a number that
is too large, then so is every expression that starts with it (`FindsOnly.lower`,
`FindsOnly.postfixed`, `FindsOnly.unary`), whatever the rest of it is, and the script is refused
(`exists_error_of_findsOnly`).
-/

namespace Snippet.Script

open Grammar

/-! ### Refusals -/

section Excess

variable {α β : Type}

/-- A refusal of something too deep or too large. -/
def Excess (x : Except Complaint α) : Prop :=
  ∃ c, x = .error c ∧ (c.problem = .tooDeep ∨ c.problem = .constantTooLarge)

theorem Excess.bind {x : Except Complaint α} (h : Excess x) (k : α → Except Complaint β) :
    Excess (x >>= k) := by
  obtain ⟨c, rfl, hc⟩ := h
  exact ⟨c, rfl, hc⟩

theorem Excess.checkDepth_bind {depth : Nat} {span : Span} {k : Unit → Except Complaint β}
    (h : Excess (k ())) : Excess (checkDepth depth span >>= k) := by
  unfold checkDepth
  split
  · exact ⟨_, rfl, .inl rfl⟩
  · exact h

end Excess

/-- No expression is built from the node, at whatever depth. -/
def Unbuildable (node : Node Symbol) : Prop :=
  ∀ depth, Excess (exprOf depth node)

theorem unbuildable_postfixed {node : Node Symbol} (h : Unbuildable node)
    (rest : List (Node Symbol)) : Unbuildable (phraseNode .postfixed (node :: rest)) := by
  intro depth
  rw [exprOf_postfixed]
  exact .checkDepth_bind ((h (depth + 1)).bind _)

/-! ### What is found -/

/-- Whatever the pattern finds at the front of a text is one node with the property `P`. -/
def FindsOnly (P : Node Symbol → Prop) (p : Pattern Symbol) (s : List Char) : Prop :=
  ∀ nodes t, Takes p s nodes t → ∃ node, nodes = [node] ∧ P node

/-- Behind its condition an expression has two branches or none. -/
theorem exists_branches {s t : List Char} {nodes : List (Node Symbol)}
    (h : Takes (.optional (.all [.lit "?", .call .expr, .lit ":", .call .expr])) s nodes t) :
    nodes = [] ∨ ∃ yes no, nodes = [yes, no] := by
  cases h with
  | missing => exact .inl rfl
  | present h =>
    obtain ⟨_, _, _, rfl, hmark, h⟩ := exists_seq h
    obtain ⟨_, _, _, rfl, hyes, h⟩ := exists_seq h
    obtain ⟨_, _, _, rfl, hcolon, hno⟩ := exists_seq h
    obtain ⟨_, rfl, -⟩ := exists_parts rfl hyes
    obtain ⟨_, rfl, -⟩ := exists_parts rfl hno
    cases hmark
    cases hcolon
    exact .inr ⟨_, _, rfl⟩

namespace FindsOnly

variable {s t : List Char}

/-- A chain cannot be built if its first operand cannot be. -/
theorem lower {level : Nat} (hlevel : level ≤ 6)
    (h : FindsOnly Unbuildable (.call (levelSymbol (level + 1))) s) :
    FindsOnly Unbuildable (.call (levelSymbol level)) s := by
  intro nodes t htakes
  match level, hlevel with
  | 0, _ =>
    obtain ⟨_, rfl, hparts⟩ := exists_parts rfl htakes
    obtain ⟨_, _, more, rfl, hfirst, hmore⟩ := exists_seq hparts
    obtain ⟨node, rfl, hnode⟩ := h _ _ hfirst
    refine ⟨_, rfl, fun depth ↦ ?_⟩
    rcases exists_branches hmore with rfl | ⟨yes, no, rfl⟩ <;>
      simp only [phraseNode, levelSymbol, List.singleton_append, exprOf]
    · exact .checkDepth_bind (hnode (depth + 1))
    · exact .checkDepth_bind ((hnode (depth + 1)).bind _)
  | 1, _ | 2, _ | 3, _ | 4, _ | 5, _ | 6, _ =>
    obtain ⟨_, rfl, hparts⟩ := exists_parts rfl htakes
    obtain ⟨_, _, more, rfl, hfirst, -⟩ := exists_seq hparts
    obtain ⟨node, rfl, hnode⟩ := h _ _ hfirst
    refine ⟨_, rfl, fun depth ↦ ?_⟩
    rw [exprOf_chain (by decide)]
    exact .checkDepth_bind ((hnode (depth + 1)).bind _)

/-- An expression cannot be built if its first operand, with the signs in front of it, cannot be. -/
theorem expr (h : FindsOnly Unbuildable (.call .unary) s) :
    FindsOnly Unbuildable (.call .expr) s := by
  have hlevel : ∀ count level, level + count = 7 →
      FindsOnly Unbuildable (.call (levelSymbol level)) s := by
    intro count
    induction count with
    | zero => rintro level rfl; exact h
    | succ count ih => exact fun level hcount ↦ (ih (level + 1) (by omega)).lower (by omega)
  exact hlevel 7 0 rfl

end FindsOnly

/-- An innermost expression and suffixes behind it. -/
theorem exists_suffixes {P : Node Symbol → Prop} {s t : List Char} {nodes : List (Node Symbol)}
    (hfinds : FindsOnly P Symbol.anyPrimary s) (h : Takes (.call .postfixed) s nodes t) :
    ∃ node suffixes u, nodes = [phraseNode .postfixed (node :: suffixes)] ∧ P node ∧
      Takes Symbol.anyPrimary s [node] u ∧
      Takes (.many (linkAt 8)) (scriptReader.skip u) suffixes t := by
  obtain ⟨_, rfl, hparts⟩ := exists_parts rfl h
  obtain ⟨_, u, suffixes, rfl, hprimary, hsuffixes⟩ := exists_seq hparts
  obtain ⟨node, rfl, hnode⟩ := hfinds _ _ hprimary
  exact ⟨node, suffixes, u, rfl, hnode, hprimary, hsuffixes⟩

/-- What stands in parentheses is an expression. -/
theorem findsOnly_paren {t : List Char}
    (h : FindsOnly Unbuildable (.call .expr) (scriptReader.skip t)) :
    FindsOnly (fun node ↦ Unbuildable node ∧ node.symbol = .expr) Symbol.anyPrimary
      ('(' :: t) := by
  intro nodes u htakes
  have hparen := takes_right (refuses_token rfl rfl)
    (takes_right (.noPhrase rfl (.noFirst (refuses_text rfl)))
    (takes_right (.noPhrase rfl (.noFirst (refuses_text rfl)))
    (takes_right (refuses_token rfl rfl) (takes_right (refuses_token rfl rfl)
    (takes_right (refuses_token rfl rfl)
    (takes_right (refuses_token rfl (integer_eq_none (by decide) _))
    (takes_right (refuses_token rfl (fraction_eq_none (by decide) _)) htakes)))))))
  obtain ⟨_, v, _, rfl, hopen, hinner⟩ := exists_seq hparen
  obtain ⟨_, w, _, rfl, hexpr, hclose⟩ := exists_seq hinner
  cases hclose
  cases hopen with
  | text hopen =>
    obtain rfl : v = t := Option.some.inj hopen
    obtain ⟨node, rfl, hnode⟩ := h _ _ hexpr
    obtain ⟨_, heq, -⟩ := exists_parts rfl hexpr
    cases heq
    exact ⟨_, rfl, hnode, rfl⟩

/-- A script is refused if the expression at its front cannot be built: as too deep, as too large a
number, or because something else is wrong with its text. -/
theorem exists_error_of_findsOnly {source : String} (h : Operand (scriptReader.skip source.toList))
    (hne : scriptReader.skip source.toList ≠ [])
    (hexpr : FindsOnly Unbuildable (.call .expr) (scriptReader.skip source.toList)) :
    ∃ c, parse source = .error c ∧ c.problem.id ∈ ["SC1021", "SC8078", "SC1001"] := by
  rcases checkNesting_cases source.toList with hguard | ⟨c, hguard, hc⟩
  · obtain ⟨r, hr⟩ := exists_derives scriptBody (scriptReader.skip source.toList)
    rcases r with - | ⟨nodes, t⟩
    · obtain ⟨c, hparse, hc⟩ := parse_error hguard hr
      exact ⟨c, hparse, by simp [hc]⟩
    · have hexcess : Excess (programOf nodes) := by
        obtain ⟨node, rest, u, hfirst, hnodes⟩ := h.exists_first hne hr
        obtain ⟨_, heq, hnode⟩ := hexpr _ _ hfirst
        cases heq
        rcases hnodes with ⟨semi, rfl⟩ | rfl
        · have hstatement : Excess (stmtOf 0 (phraseNode .exprStmt [node, semi])) := by
            rw [phraseNode, stmtOf]
            exact .checkDepth_bind ((hnode 1).bind _)
          exact hstatement.bind _
        · exact (hnode 0).bind _
      obtain ⟨c, hprogram, hc⟩ := hexcess
      have houtline := outline_parse hguard hr
      rw [hprogram] at houtline
      cases hp : parse source with
      | ok program => rw [hp] at houtline; cases houtline
      | error c' =>
        rw [hp] at houtline
        refine ⟨c', rfl, ?_⟩
        rw [Except.error.inj houtline]
        rcases hc with hc | hc <;> rw [hc] <;> decide
  · exact ⟨c, parse_of_checkNesting hguard, by rw [hc]; decide⟩

end Snippet.Script
