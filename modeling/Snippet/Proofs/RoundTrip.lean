import Snippet.Proofs.PrintedBuilding
import Snippet.Proofs.PrintedScript

/-!
# Printing and parsing

The text of a printed expression is parsed back into the expression (`parse_printed`): whatever
blanks stand between its tokens, the parser answers with a program that has the expression as its
result and nothing else, or it refuses the text as too deep.
-/

namespace Snippet.Script

open Grammar

/-- Building the program of a printed expression gives the expression, unless it is too deep. -/
theorem builds_program {e : Expr} (he : e.Printable) :
    Builds Program.bare
      (do
        let tree ← exprOf 0 (e.nodeAt true 0)
        return ⟨[], some tree⟩) ⟨[], some e.bare⟩ :=
  (((Expr.buildsBack e he).constructs true 0 (by decide)).buildsAs (by decide) 0).bind
    fun tree htree ↦ builds_pure (by rw [← htree]; rfl)

/-- Up to places, the parser's answer on a printed expression is what building its node gives. -/
theorem outline_parse_printed {e : Expr} (he : e.Printable) {text : String}
    (htext : Spaced e.tokens text.toList) (hguard : checkNesting text.toList = .ok ()) :
    outline Program.bare (parse text) =
      outline Program.bare (do
        let tree ← exprOf 0 (e.nodeAt true 0)
        return ⟨[], some tree⟩) := by
  obtain ⟨rest, hbody⟩ :=
    derives_of_spaced plain_scriptBody (finds_scriptBody he) htext (Expr.whole_of_mem_tokens he)
  rw [outline_parse hguard hbody]
  rfl

/-- What is parsed from a printed expression is the expression. -/
theorem tail_of_parse {e : Expr} (he : e.Printable) {text : String}
    (htext : Spaced e.tokens text.toList) {program : Program} (hparse : parse text = .ok program) :
    ∃ tree, program = ⟨[], some tree⟩ ∧ tree.bare = e.bare := by
  have houtline := outline_parse_printed he htext (checkNesting_of_parse hparse)
  rw [hparse] at houtline
  rcases builds_program he with h | h <;> rw [← houtline] at h
  · obtain ⟨statements, tail⟩ := program
    obtain ⟨hstatements, htail⟩ := Program.mk.inj (Except.ok.inj h)
    obtain ⟨tree, rfl, htree⟩ := Option.map_eq_some_iff.1 htail
    cases statements with
    | nil => exact ⟨tree, rfl, htree⟩
    | cons _ _ => cases hstatements
  · cases h

/-- A printed expression that is not too deep is parsed back. -/
theorem exists_parse_printed {e : Expr} (he : e.Printable) {text : String}
    (htext : Spaced e.tokens text.toList) (hguard : checkNesting text.toList = .ok ())
    (hbuilt : (exprOf 0 (e.nodeAt true 0)).isOk = true) :
    ∃ tree, parse text = .ok ⟨[], some tree⟩ ∧ tree.bare = e.bare := by
  cases hparse : parse text with
  | ok program =>
    obtain ⟨tree, rfl, htree⟩ := tail_of_parse he htext hparse
    exact ⟨tree, rfl, htree⟩
  | error c =>
    have houtline := outline_parse_printed he htext hguard
    cases hexpr : exprOf 0 (e.nodeAt true 0) with
    | error c' => simp [hexpr, Except.isOk, Except.toBool] at hbuilt
    | ok tree =>
      rw [hparse, hexpr] at houtline
      cases houtline

/-- A printed expression is parsed back, unless it is too deep. Parentheses stand in the text only
where a looser operator stands in the place of a tighter one or on the right of one of its own
level, and around a map at the start. -/
theorem parse_printed (e : Expr) (he : e.Printable) (text : String)
    (htext : Spaced e.tokens text.toList) :
    (∃ c, parse text = .error c ∧ c.problem.id = "SC8078") ∨
      ∃ tree, parse text = .ok ⟨[], some tree⟩ ∧ tree.bare = e.bare := by
  cases hparse : parse text with
  | ok program =>
    obtain ⟨tree, rfl, htree⟩ := tail_of_parse he htext hparse
    exact .inr ⟨tree, rfl, htree⟩
  | error c =>
    refine .inl ⟨c, rfl, ?_⟩
    rcases checkNesting_cases text.toList with hguard | ⟨c', hguard, hc'⟩
    · have houtline := outline_parse_printed he htext hguard
      rw [hparse] at houtline
      rcases builds_program he with h | h <;> rw [← houtline] at h
      · cases h
      · exact congrArg Problem.id (Except.error.inj h)
    · cases hparse.symm.trans (parse_of_checkNesting hguard)
      exact congrArg Problem.id hc'

/-- Parentheses and levels of every kind, with a map at the start of the text. -/
theorem parse_printed_levels :
    let e : Expr :=
      .binary noSpan .eq
        (.binary noSpan .sub
          (.binary noSpan .mul
            (.index noSpan
              (.map noSpan [(.literal noSpan (.string "a\"b"),
                .unary noSpan .neg (.literal noSpan (.int 1)))])
              (.name noSpan "k"))
            (.binary noSpan .sub (.name noSpan "x") (.name noSpan "y")))
          (.member noSpan
            (.call noSpan (.name noSpan "f")
              [.literal noSpan (.bool true), .literal noSpan .null])
            ⟨"size", noSpan⟩))
        (.literal noSpan (.int 0))
    let text := "( \x7b \"a\\\"b\" : - 1 \x7d ) [ k ] * ( x - y ) - f ( true , null ) . size == 0 "
    e.Printable ∧ Spaced e.tokens text.toList ∧
      ∃ tree, parse text = .ok ⟨[], some tree⟩ ∧ tree.bare = e.bare := by
  intro e text
  have he : e.Printable := by
    simp only [e, Expr.Printable, Expr.PrintableEntries, Expr.PrintableAll, Literal.Printable]
    decide
  have htext : Spaced e.tokens text.toList := by
    have h : text.toList = e.tokens.flatMap (· ++ [' ']) := by decide +kernel
    rw [h]
    exact spaced_flatMap _
  refine ⟨he, htext, (parse_printed e he text htext).resolve_left ?_⟩
  rintro ⟨c, hparse, -⟩
  have hguard : checkNesting text.toList = .ok () := checkNesting_eq_ok_iff.2 (by decide +kernel)
  obtain ⟨tree, hparse', -⟩ := exists_parse_printed he htext hguard (by decide +kernel)
  cases hparse.symm.trans hparse'

end Snippet.Script
