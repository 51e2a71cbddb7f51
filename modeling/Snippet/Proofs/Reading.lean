import Snippet.Proofs.Places
import Snippet.Proofs.ReportedPlaces

/-!
# Parsing as a derivation

The grammar of scripts orders its phrases by their ranks (`language_ordered`), so what it matches is
given by derivations. A source text that passes the bracket guard is read from behind its leading
blanks: what a derivation of `scriptBody` finds there are the parts of the program
(`outline_parse`), and where it finds nothing there is a syntax error (`parse_error`).
-/

namespace Snippet.Script

open Grammar

/-- The grammar's ranks are those of its rules. -/
theorem language_ordered : language.Ordered where
  spaced {symbol spaced body} h := by
    cases symbol <;> cases h <;> rfl
  starts {symbol spaced body} h := by
    cases symbol <;> cases h <;>
      simp [Pattern.StartsBelow, Pattern.all, Pattern.any, Pattern.lit, Symbol.anyStatement,
        Symbol.anyPrimary, language, Symbol.rule, Symbol.chain, Symbol.rank]
  rank_lt symbol := by
    cases symbol <;> decide

/-- What stands behind the leading blanks of a script. -/
def scriptBody : Pattern Symbol :=
  .all [.many Symbol.anyStatement, .optional (.call .tailExpr), .call .ending]

/-- No fixed text stands in what follows the blanks of a script. -/
theorem plain_scriptBody : scriptBody.TextsIn Plain := by
  simp [scriptBody, Pattern.all, Pattern.any, Pattern.TextsIn, Symbol.anyStatement]

/-- Reading the characters of scripts. -/
abbrev scriptReader : Reader Symbol (List Char) :=
  language.reader

/-- A text has a reading, with or without success. -/
theorem exists_derives (p : Pattern Symbol) (s : List Char) :
    ∃ r, Derives language scriptReader p s r :=
  ⟨_, language_ordered.derives_run language.top p s 0 .none rfl
    (language_ordered.startsBelow_top p)⟩

/-- Reading a whole script starts with passing over its leading blanks. -/
theorem derives_program {s : List Char} {r : Option (List (Node Symbol) × List Char)}
    (h : Derives language scriptReader scriptBody (scriptReader.skip s) r) :
    Derives language scriptReader (.call .program) s
      (r.map fun (nodes, rest) ↦ ([.mk .program (0, 0) [] nodes], rest)) := by
  have hstart : Derives language scriptReader (.text []) s (some ([], s)) := .text rfl
  cases r with
  | none => exact .noPhrase rfl (.noSecond hstart h)
  | some m => exact .phrase rfl (.seq hstart h)

/-- The program of a text that passes the bracket guard is that of the nodes found in it. -/
theorem outline_parse {source : String} {nodes : List (Node Symbol)} {rest : List Char}
    (hguard : checkNesting source.toList = .ok ())
    (h : Derives language scriptReader scriptBody (scriptReader.skip source.toList)
      (some (nodes, rest))) :
    outline Program.bare (parse source) = outline Program.bare (programOf nodes) := by
  obtain ⟨placed, hparse, hbare⟩ := language_ordered.parse_of_derives (derives_program h)
  obtain ⟨symbol, span, text, parts⟩ := placed
  cases hbare
  rw [parse_of_node hguard hparse, ← outline_programOf]
  rfl

theorem checkNesting_eq_ok_iff {source : List Char} :
    checkNesting source = .ok () ↔ excessBracket? maxNesting 0 0 .outside source = none := by
  unfold checkNesting
  split <;> simp_all

theorem checkNesting_cases (source : List Char) :
    checkNesting source = .ok () ∨ ∃ c, checkNesting source = .error c ∧ c.problem = .tooDeep := by
  unfold checkNesting
  split
  · exact .inr ⟨_, rfl, rfl⟩
  · exact .inl rfl

/-- A text refused by the bracket guard is refused by the parser. -/
theorem parse_of_checkNesting {source : String} {c : Complaint}
    (h : checkNesting source.toList = .error c) : parse source = .error c := by
  rw [parse, h]
  rfl

/-- What is parsed has passed the bracket guard. -/
theorem checkNesting_of_parse {source : String} {program : Program}
    (h : parse source = .ok program) : checkNesting source.toList = .ok () :=
  (checkNesting_cases source.toList).resolve_right fun ⟨c, hguard, _⟩ ↦ by
    cases h.symm.trans (parse_of_checkNesting hguard)

/-- A syntax error has one identifier, whatever it says. -/
theorem syntaxProblem_id (found : String) (symbols : List Symbol) :
    (syntaxProblem found symbols).id = "SC1001" := by
  simp only [syntaxProblem]
  split
  · rfl
  · split <;> rfl

/-- A text in which no program is found is a syntax error. -/
theorem parse_error {source : String} (hguard : checkNesting source.toList = .ok ())
    (h : Derives language scriptReader scriptBody (scriptReader.skip source.toList) none) :
    ∃ c, parse source = .error c ∧ c.problem.id = "SC1001" := by
  obtain ⟨tried, hparse⟩ := language_ordered.parse_of_not_derives (derives_program h)
  exact ⟨_, parse_of_attempts hguard hparse, syntaxProblem_id _ _⟩

end Snippet.Script
