import Snippet.Proofs.SoleOperand

/-!
# String literals

A source text that is a string body between double quotes is a script whose result is one literal.
What the parser answers is what reading the escapes of the body answers (`parse_quoted`). If the
body spells a string, this is the literal of that string; otherwise it is a complaint about the
first backslash with something else behind it (`parse_string`). Brackets, comment marks and runs of
backslashes in the body make no difference, nor does the depth limit.
-/

namespace Snippet.Script

open Grammar

/-- The source text that has a body between double quotes and nothing else. -/
def quotedSource (body : List Char) : String :=
  String.ofList ('"' :: (body ++ ['"']))

@[simp]
theorem toList_quotedSource (body : List Char) :
    (quotedSource body).toList = '"' :: (body ++ ['"']) :=
  String.toList_ofList

/-- A string starts with no blanks. -/
theorem blanks_quote (s : List Char) : blanks ('"' :: s) = 0 :=
  blanks_eq_zero (by simp [isSeparator]) rfl

namespace QuotedBody

variable {body : List Char}

/-- A string is an operand without a sign. -/
theorem takes_unary (h : QuotedBody body) :
    Takes (.call .unary) ('"' :: (body ++ ['"']))
      [raise 7 2 (tokenNode .stringLit ('"' :: (body ++ ['"'])))] [] := by
  have hquoted : Lexeme.quoted ('"' :: (body ++ ['"'])) = some ('"' :: (body ++ ['"'])).length := by
    simpa using h.quoted []
  have htoken : Takes (.call .stringLit) ('"' :: (body ++ ['"']))
      [tokenNode .stringLit ('"' :: (body ++ ['"']))] [] := by
    simpa only [List.take_length, List.drop_length] using takes_token rfl hquoted
  have hprimary : Takes (operandAt 8) ('"' :: (body ++ ['"']))
      [tokenNode .stringLit ('"' :: (body ++ ['"']))] [] :=
    .right (refuses_token rfl (fraction_eq_none (by decide) _))
      (.right (refuses_token rfl (integer_eq_none (by decide) _)) (.left htoken))
  have hpostfixed := takes_chain (by decide) hprimary refuses_suffix_nil
  rw [← skip_of_blanks (blanks_quote (body ++ ['"']))] at hpostfixed
  exact .phrase rfl (.seq (.done (refuses_token rfl rfl)) hpostfixed)

theorem takes_scriptBody (h : QuotedBody body) :
    Takes scriptBody ('"' :: (body ++ ['"']))
      [phraseNode .tailExpr [raise 0 9 (tokenNode .stringLit ('"' :: (body ++ ['"'])))],
        tokenNode .ending []] [] := by
  obtain ⟨t, hexpr, ht⟩ := takes_level (Nat.zero_add 7) h.takes_unary ends_nil.closes
  have hoperand : Operand ('"' :: (body ++ ['"'])) :=
    ⟨opening_of_mark rfl rfl rfl, rfl, blanks_quote _⟩
  exact hoperand.takes_scriptBody hexpr ht

/-- The guard never refuses a string. -/
theorem checkNesting (h : QuotedBody body) : checkNesting ('"' :: (body ++ ['"'])) = .ok () := by
  rw [checkNesting_eq_ok_iff, Script.excessBracket?, if_pos rfl, h.excessBracket?]
  rfl

/-- The parser answers on a string as reading its escapes does. -/
theorem parse_quoted (h : QuotedBody body) :
    parse (quotedSource body) = (unescape 1 body).map fun s ↦
      ⟨[], some (.literal ⟨0, body.length + 2⟩ (.string (String.ofList s)))⟩ := by
  have hguard : Script.checkNesting (quotedSource body).toList = .ok () := by
    rw [toList_quotedSource]
    exact h.checkNesting
  have hbody : Takes scriptBody (scriptReader.skip (quotedSource body).toList)
      [phraseNode .tailExpr [raise 0 9 (tokenNode .stringLit ('"' :: (body ++ ['"'])))],
        tokenNode .ending []] [] := by
    rw [toList_quotedSource, skip_of_blanks (blanks_quote _)]
    exact h.takes_scriptBody
  obtain ⟨⟨symbol, ⟨start, stop⟩, text, parts⟩, hbare, hstands, hparse⟩ :=
    exists_operand (by decide) hguard hbody
  simp only [Node.bare, tokenNode, Node.mk.injEq] at hbare
  obtain ⟨rfl, -, rfl, -⟩ := hbare
  -- the token is the whole text, so that it starts at the front and stops at the end
  obtain ⟨htext, -⟩ := hstands.text_eq rfl
  have hle := hstands.stop_le
  have hlength := congrArg List.length htext
  simp only [Node.text, Node.start, Node.stop, toList_quotedSource, List.length_take,
    List.length_drop, List.length_cons, List.length_append, List.length_nil] at hle hlength
  obtain rfl : start = 0 := by omega
  obtain rfl : stop = body.length + 2 := by omega
  rw [hparse, exprOf]
  simp only [quotedBody?_quoted]
  cases unescape (0 + 1) body <;> rfl

end QuotedBody

/-- A string literal is read as the string that its body spells. If its body spells none, the
complaint is about the first backslash with something else than an escape behind it, and about these
two characters only. -/
theorem parse_string (body : List Char) (hbody : QuotedBody body) :
    (∀ s, Spells body s → parse (quotedSource body) =
      .ok ⟨[], some (.literal ⟨0, body.length + 2⟩ (.string (String.ofList s)))⟩) ∧
    (∀ front s c rest, body = front ++ '\\' :: c :: rest → Spells front s →
      (∀ e, (c, e) ∉ escapes) → parse (quotedSource body) =
        .error ⟨.badEscape c, ⟨front.length + 1, front.length + 3⟩⟩ ∧
      (Problem.badEscape c).id = "SC1009") ∧
    ((∃ s, Spells body s) ∨ ∃ front s c rest, body = front ++ '\\' :: c :: rest ∧
      Spells front s ∧ ∀ e, (c, e) ∉ escapes) := by
  refine ⟨fun s hs ↦ ?_, fun front s c rest heq hs hc ↦ ⟨?_, rfl⟩, hbody.spells_or⟩
  · rw [hbody.parse_quoted, hs.unescape]
    rfl
  · have hnone : escape? c = none :=
      Option.eq_none_iff_forall_ne_some.2 fun e he ↦ hc e (escape?_eq_some_iff.1 he)
    rw [hbody.parse_quoted, heq, hs.unescape_append, unescape, hnone]
    simp only [Except.map, Nat.add_comm 1 front.length]

/-- A bracket, a quote and a comment mark in front of an escaped backslash, and two backslashes with
something else behind them. -/
theorem parse_string_tricky :
    (Spells "é(\\\"/*\\\\".toList "é(\"/*\\".toList ∧ parse "\"é(\\\"/*\\\\\"" =
      .ok ⟨[], some (.literal ⟨0, 10⟩ (.string "é(\"/*\\"))⟩) ∧
    QuotedBody "\\n\\q\\u".toList ∧
      parse "\"\\n\\q\\u\"" = .error ⟨.badEscape 'q', ⟨3, 5⟩⟩ := by
  have hspells : Spells "é(\\\"/*\\\\".toList "é(\"/*\\".toList :=
    .plain (by decide) (by decide) (.plain (by decide) (by decide) (.escape (by decide)
      (.plain (by decide) (by decide) (.plain (by decide) (by decide)
      (.escape (by decide) .nil)))))
  have hfront : Spells ['\\', 'n'] ['\n'] := .escape (by decide) .nil
  have hbody : QuotedBody "\\n\\q\\u".toList := .pair (.pair (.pair .nil))
  have hq : ∀ e, ('q', e) ∉ escapes := by simp [escapes]
  exact ⟨⟨hspells, (parse_string _ hspells.quotedBody).1 _ hspells⟩, hbody,
    ((parse_string _ hbody).2.1 _ _ 'q' ['\\', 'u'] rfl hfront hq).1⟩

end Snippet.Script
