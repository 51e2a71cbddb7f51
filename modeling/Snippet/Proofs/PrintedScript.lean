import Snippet.Proofs.PrintedReading

/-!
# A printed expression as a script

Every kind of statement is looked for before the expression at the end of a script is. None of them
is found in a printed expression: its first token starts no statement of a fixed form (`Opening`),
what could be the target of an assignment has no assignment operator behind it (`Untargeted`), and
no semicolon stands at its end. So the script has the expression as its only part
(`finds_scriptBody`).
-/

namespace Snippet.Script

open Grammar

/-! ### The first token -/

/-- A token that starts no statement of a fixed form. -/
structure Opening (token : List Char) : Prop where
  word {words : List String} (h : ∀ w ∈ words, w ∈ keywords ∧ w ∉ ["true", "false", "null"]) :
    Lexeme.word words token = none
  semi : Lexeme.exactly ";" token = none
  block : "\x7b".toList.isPrefixOf token = false

theorem word_eq_none {words : List String} {token : List Char}
    (h : ∀ w ∈ words, w.toList ≠ wordAt token) : Lexeme.word words token = none := by
  simp only [Lexeme.word]
  rw [if_neg]
  simpa only [List.any_eq_true, beq_iff_eq, not_exists, not_and] using h

/-- No word at all stands at the front, so that no keyword does. -/
theorem opening_of_mark {token : List Char} (hword : wordAt token = [])
    (hsemi : Lexeme.exactly ";" token = none) (hblock : "\x7b".toList.isPrefixOf token = false) :
    Opening token where
  word h := word_eq_none fun w hw heq ↦ by
    rw [hword, String.toList_eq_nil_iff] at heq
    subst heq
    exact absurd (h _ hw).1 (by decide)
  semi := hsemi
  block := hblock

/-- A literal that is a word starts no statement. -/
theorem opening_of_constant {constant : String} (h : constant ∈ ["true", "false", "null"]) :
    Opening constant.toList where
  word hwords := word_eq_none fun w hw heq ↦ by
    have hself : ∀ s ∈ ["true", "false", "null"], wordAt s.toList = s.toList := by decide
    rw [hself constant h] at heq
    exact (hwords w hw).2 (String.toList_inj.1 heq ▸ h)
  semi := by
    revert constant
    decide
  block := by
    revert constant
    decide

theorem opening_name {name : String} (h : isName name = true) : Opening name.toList where
  word hwords := word_name (fun w hw ↦ (hwords w hw).1) h
  semi := exactly_mark (by decide) (startsWithMark_name h)
  block := isPrefixOf_mark (by decide) (startsWithMark_name h)

theorem Number.opening {digits tail : List Char} (h : Number digits tail) :
    Opening (digits ++ tail) where
  word hwords := h.word fun w hw ↦ by
    have hall : ∀ w ∈ keywords, w.toList.head?.any Char.isDigit = false := by decide
    exact hall w (hwords w hw).1
  semi := exactly_mark (by decide) h.startsWithMark
  block := isPrefixOf_mark (by decide) h.startsWithMark

theorem opening_spelling {value : Literal} (h : value.Printable) : Opening value.spelling := by
  match value, h with
  | .int _, _ => simpa [Literal.spelling] using (number_digits _).opening
  | .string _, _ => exact opening_of_mark rfl rfl rfl
  | .bool true, _ => exact opening_of_constant (by decide)
  | .bool false, _ => exact opening_of_constant (by decide)
  | .null, _ => exact opening_of_constant (by decide)

namespace Expr

/-- Parentheses start no statement, so that only what stands without them is of interest. -/
theorem opening_enclose {e : Expr} {inner : Bool → List (List Char)} (min : Nat)
    (rest : List (List Char))
    (h : e.isMap = false → Opening (front (inner true ++ rest))) :
    Opening (front (e.enclose true min inner ++ rest)) := by
  unfold enclose
  split
  · exact opening_of_mark rfl rfl rfl
  · next hparens =>
    simp only [needsParens, Bool.true_and, Bool.or_eq_true, not_or, Bool.not_eq_true] at hparens
    exact h hparens.2

/-- A printed expression starts with no token that starts a statement of a fixed form. -/
theorem opening_inner (e : Expr) (he : e.Printable) (hmap : e.isMap = false)
    (rest : List (List Char)) : Opening (front (e.inner true ++ rest)) := by
  match e with
  | .literal _ value => exact opening_spelling he
  | .name _ n => exact opening_name he
  | .list _ items => exact opening_of_mark rfl rfl rfl
  | .map _ entries => cases hmap
  | .unary _ op operand => cases op <;> exact opening_of_mark rfl rfl rfl
  | .binary _ op lhs rhs =>
    rw [inner, List.append_assoc]
    exact opening_enclose _ _ fun h ↦ opening_inner lhs he.1 h _
  | .ternary _ cond yes no =>
    rw [inner, List.append_assoc]
    exact opening_enclose _ _ fun h ↦ opening_inner cond he.1 h _
  | .call _ callee args =>
    rw [inner, List.append_assoc]
    exact opening_enclose _ _ fun h ↦ opening_inner callee he.1 h _
  | .index _ target i =>
    rw [inner, List.append_assoc]
    exact opening_enclose _ _ fun h ↦ opening_inner target he.1 h _
  | .member _ target field =>
    rw [inner, List.append_assoc]
    exact opening_enclose _ _ fun h ↦ opening_inner target he.1 h _

end Expr

/-! ### Targets of assignments -/

/-- What an assignment target goes on with. -/
def accessor : Pattern Symbol :=
  .any [.call .index, .call .member]

/-- No assignment operator stands behind the accessors at the front. -/
def Quiet (tokens : List (List Char)) : Prop :=
  ∃ nodes last, Repeats accessor tokens nodes last ∧ Lexeme.assignment (front last) = none

/-- No name stands at the front, or one behind whose accessors there is no assignment operator. -/
def Untargeted (tokens : List (List Char)) : Prop :=
  Lexeme.name (front tokens) = none ∨
    ∃ name rest, tokens = name :: rest ∧ Lexeme.name name = some name.length ∧ Quiet rest

theorem Untargeted.misses {tokens : List (List Char)} (h : Untargeted tokens) :
    Misses (.call .assignment) tokens := by
  rcases h with h | ⟨name, rest, rfl, hname, nodes, last, hnodes, hlast⟩
  · exact .noPhrase rfl (.noFirst (.noPhrase rfl (.noFirst (misses_token rfl h))))
  · have htarget : Finds (.call .ident) (name :: rest) [tokenNode .ident name] rest :=
      finds_token rfl hname
    exact .noPhrase rfl (.noSecond (.phrase rfl (.seq htarget hnodes.1))
      (.noFirst (misses_token rfl hlast)))

theorem misses_accessor {tokens : List (List Char)}
    (hindex : "[".toList.isPrefixOf (front tokens) = false)
    (hmember : ".".toList.isPrefixOf (front tokens) = false) : Misses accessor tokens :=
  .right (.noPhrase rfl (.noFirst (misses_text (by decide) hindex)))
    (.noPhrase rfl (.noFirst (misses_text (by decide) hmember)))

theorem quiet_of_front {tokens : List (List Char)}
    (hindex : "[".toList.isPrefixOf (front tokens) = false)
    (hmember : ".".toList.isPrefixOf (front tokens) = false)
    (hassign : Lexeme.assignment (front tokens) = none) : Quiet tokens :=
  ⟨[], tokens, .nil (misses_accessor hindex hmember), hassign⟩

theorem quiet_binary (op : BinaryOp) (rest : List (List Char)) :
    Quiet (op.symbol.toList :: rest) := by
  cases op <;> exact quiet_of_front rfl rfl rfl

theorem Quiet.cons {tokens rest : List (List Char)} {nodes : List (Node Symbol)}
    (h : Finds accessor tokens nodes rest) (hlength : rest.length < tokens.length)
    (hrest : Quiet rest) : Quiet tokens := by
  obtain ⟨more, last, hmore, hlast⟩ := hrest
  exact ⟨_, last, .cons h hlength hmore, hlast⟩

theorem Quiet.index {i rest : List (List Char)} {node : Node Symbol} (hi : Reads 0 i node)
    (hrest : Quiet rest) : Quiet ("[".toList :: (i ++ "]".toList :: rest)) := by
  have hexpr := hi ("]".toList :: rest) (.of_closer (by decide))
  have hparts := Derives.seq (finds_lit "[" (by decide))
    (Derives.seq hexpr (finds_lit "]" (by decide)))
  exact hrest.cons (.left (.phrase rfl hparts)) (by simp; omega)

theorem Quiet.member {name : String} (hname : isName name = true) {rest : List (List Char)}
    (hrest : Quiet rest) : Quiet (".".toList :: name.toList :: rest) := by
  have hfield : Finds (.call .ident) (name.toList :: rest) [tokenNode .ident name.toList] rest :=
    finds_token rfl (name_name hname)
  have hparts := Derives.seq (finds_lit "." (by decide)) hfield
  refine hrest.cons (.right (.noPhrase rfl (.noFirst ?_)) (.phrase rfl hparts))
    (by simp only [List.length_cons]; omega)
  exact misses_text_cons (by decide) (by decide)

theorem name_spelling {value : Literal} (h : value.Printable) :
    Lexeme.name value.spelling = none := by
  match value, h with
  | .int _, _ => simpa [Literal.spelling] using (number_digits _).name
  | .string _, _ => rfl
  | .bool true, _ | .bool false, _ | .null, _ => decide

namespace Expr

theorem untargeted_enclose {e : Expr} {inner : Bool → List (List Char)} (start : Bool) (min : Nat)
    {rest : List (List Char)} (h : ∀ s, Untargeted (inner s ++ rest)) :
    Untargeted (e.enclose start min inner ++ rest) := by
  unfold enclose
  split
  · exact .inl rfl
  · exact h start

/-- A printed expression starts with no target of an assignment. -/
theorem untargeted_inner (start : Bool) (e : Expr) (he : e.Printable) {rest : List (List Char)}
    (hrest : Quiet rest) : Untargeted (e.inner start ++ rest) := by
  match e with
  | .literal _ value => exact .inl (name_spelling he)
  | .name _ n => exact .inr ⟨_, _, rfl, name_name he, hrest⟩
  | .list _ items => exact .inl rfl
  | .map _ entries => exact .inl rfl
  | .unary _ op operand => cases op <;> exact .inl rfl
  | .binary _ op lhs rhs =>
    rw [inner, List.append_assoc]
    exact untargeted_enclose _ _ fun s ↦ untargeted_inner s lhs he.1 (quiet_binary op _)
  | .ternary _ cond yes no =>
    rw [inner, List.append_assoc]
    exact untargeted_enclose _ _ fun s ↦
      untargeted_inner s cond he.1 (quiet_of_front rfl rfl rfl)
  | .call _ callee args =>
    rw [inner, List.append_assoc]
    exact untargeted_enclose _ _ fun s ↦
      untargeted_inner s callee he.1 (quiet_of_front rfl rfl rfl)
  | .index _ target i =>
    rw [inner, List.append_assoc]
    refine untargeted_enclose _ _ fun s ↦ untargeted_inner s target he.1 ?_
    rw [List.cons_append, List.append_assoc]
    exact hrest.index (readsBack i he.2).reads
  | .member _ target field =>
    rw [inner, List.append_assoc]
    exact untargeted_enclose _ _ fun s ↦ untargeted_inner s target he.1 (hrest.member he.2)

end Expr

/-! ### The script -/

/-- Where no block, keyword, assignment or semicolon is read, a statement is an expression with a
semicolon behind it. -/
theorem derives_statement {S : Type} {R : Reader Symbol S} {s : S}
    {r : Option (List (Node Symbol) × S)}
    (hblock : Derives language R (.lit "\x7b") s none)
    (hword : ∀ {symbol words}, language.rule symbol = .token (Lexeme.word words) →
      (∀ w ∈ words, w ∈ keywords ∧ w ∉ ["true", "false", "null"]) →
      Derives language R (.call symbol) s none)
    (hassignment : Derives language R (.call .assignment) s none)
    (hsemi : Derives language R (.call .semi) s none)
    (hexpr : Derives language R (.call .exprStmt) s r) :
    Derives language R Symbol.anyStatement s r := by
  have hkeyword {symbol first : Symbol} {body : Pattern Symbol} {words : List String}
      (hrule : language.rule symbol = .phrase true (.seq (.call first) body))
      (hfirst : language.rule first = .token (Lexeme.word words))
      (hwords : ∀ w ∈ words, w ∈ keywords ∧ w ∉ ["true", "false", "null"]) :
      Derives language R (.call symbol) s none :=
    .noPhrase hrule (.noFirst (hword hfirst hwords))
  have hlast : Derives language R (.choice (.call .exprStmt) (.call .emptyStmt)) s r := by
    cases r with
    | none => exact .right hexpr (.noPhrase rfl hsemi)
    | some m => exact .left hexpr
  exact .right (.noPhrase rfl (.noFirst hblock))
    (.right (hkeyword rfl rfl (by decide)) (.right (hkeyword rfl rfl (by decide))
    (.right (hkeyword rfl rfl (by decide)) (.right (hkeyword rfl rfl (by decide))
    (.right (hkeyword rfl rfl (by decide)) (.right (hkeyword rfl rfl (by decide))
    (.right (hkeyword rfl rfl (by decide)) (.right (hkeyword rfl rfl (by decide))
    (.right hassignment hlast)))))))))

/-- A printed expression is found as a whole. -/
theorem finds_tokens {e : Expr} (he : e.Printable) :
    Finds (.call .expr) e.tokens [e.nodeAt true 0] [] := by
  have h := ((Expr.readsBack e he).phrase true 0 (by decide)).reads (by decide) [] follow_nil
  rwa [List.append_nil] at h

/-- No statement is found where an expression is printed. -/
theorem misses_anyStatement {e : Expr} (he : e.Printable) :
    Misses Symbol.anyStatement e.tokens := by
  have hopening : Opening (front e.tokens) := by
    have h : Opening (front (e.tokensAt true 0 ++ [])) :=
      Expr.opening_enclose 0 [] fun hmap ↦ Expr.opening_inner e he hmap []
    rwa [List.append_nil] at h
  have huntargeted : Untargeted e.tokens := by
    have hquiet : Quiet [] := quiet_of_front rfl rfl rfl
    have h : Untargeted (e.tokensAt true 0 ++ []) :=
      Expr.untargeted_enclose true 0 fun s ↦ Expr.untargeted_inner s e he hquiet
    rwa [List.append_nil] at h
  exact derives_statement (misses_text (by decide) hopening.block)
    (fun hrule hwords ↦ misses_token hrule (hopening.word hwords)) huntargeted.misses
    (misses_token rfl hopening.semi)
    (.noPhrase rfl (.noSecond (finds_tokens he) (misses_token rfl (by decide))))

/-- A script that is a printed expression has it as its only part. -/
theorem finds_scriptBody {e : Expr} (he : e.Printable) :
    Finds scriptBody e.tokens
      [phraseNode .tailExpr [e.nodeAt true 0], tokenNode .ending []] [] := by
  have hending : Finds (.call .ending) [] [tokenNode .ending []] [] :=
    .token ⟨Lexeme.ending, rfl, .inl ⟨rfl, rfl⟩⟩
  exact .seq (.done (misses_anyStatement he))
    (.seq (.present (.phrase rfl (finds_tokens he))) hending)

end Snippet.Script
