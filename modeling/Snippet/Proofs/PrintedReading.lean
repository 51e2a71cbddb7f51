import Snippet.Proofs.PrintedTokens

/-!
# Reading printed expressions

The grammar finds in the tokens of a printed expression the node that belongs to it. A phrase of a
level of the grammar is known in two forms. `Reads` says that a node of the level is found where no
operator of the level follows. `Opens` says which parts the phrase starts with where more operators
may follow; it is what the left operand of an operator of the same level gives.
-/

namespace Snippet.Script

open Grammar

/-! ### Reading single tokens -/

section Steps

variable {symbol : Symbol} {lexeme : Recogniser} {token chars : List Char}
  {rest tokens : List (List Char)}

/-- What is found when the tokens are read. -/
abbrev Finds (p : Pattern Symbol) (tokens : List (List Char))
    (nodes : List (Node Symbol)) (rest : List (List Char)) : Prop :=
  Derives language tokenReader p tokens (some (nodes, rest))

/-- Nothing is found when the tokens are read. -/
abbrev Misses (p : Pattern Symbol) (tokens : List (List Char)) : Prop :=
  Derives language tokenReader p tokens none

theorem finds_token (hrule : language.rule symbol = .token lexeme)
    (h : lexeme token = some token.length) :
    Finds (.call symbol) (token :: rest) [tokenNode symbol token] rest :=
  .token ⟨lexeme, hrule, .inl ⟨h, rfl⟩⟩

theorem misses_token (hrule : language.rule symbol = .token lexeme)
    (h : lexeme (front tokens) = none) : Misses (.call symbol) tokens :=
  .noToken ⟨lexeme, hrule, .inr ⟨h, rfl⟩⟩

theorem misses_token_cons (hrule : language.rule symbol = .token lexeme)
    (h : lexeme token = none) : Misses (.call symbol) (token :: rest) :=
  misses_token hrule h

theorem finds_lit (s : String) (hne : s.toList ≠ []) : Finds (.lit s) (s.toList :: rest) [] rest :=
  .text ⟨hne, .inl ⟨rfl, rfl⟩⟩

theorem misses_text (hne : chars ≠ []) (h : chars.isPrefixOf (front tokens) = false) :
    Misses (.text chars) tokens :=
  .noText ⟨hne, .inr ⟨h, rfl⟩⟩

theorem misses_text_cons (hne : chars ≠ []) (h : chars.isPrefixOf token = false) :
    Misses (.text chars) (token :: rest) :=
  misses_text hne h

end Steps

/-! ### Repetitions -/

/-- What a repetition finds, and that it gets on if it finds anything. -/
def Repeats (p : Pattern Symbol) (tokens : List (List Char)) (nodes : List (Node Symbol))
    (rest : List (List Char)) : Prop :=
  Finds (.many p) tokens nodes rest ∧ (nodes = [] ∧ rest = tokens ∨ rest.length < tokens.length)

theorem Repeats.nil {p : Pattern Symbol} {tokens : List (List Char)} (h : Misses p tokens) :
    Repeats p tokens [] tokens :=
  ⟨.done h, .inl ⟨rfl, rfl⟩⟩

theorem Repeats.cons {p : Pattern Symbol} {tokens middle rest : List (List Char)}
    {nodes more : List (Node Symbol)} (h : Finds p tokens nodes middle)
    (hlength : middle.length < tokens.length) (hmore : Repeats p middle more rest) :
    Repeats p tokens (nodes ++ more) rest := by
  obtain ⟨hmany, ⟨rfl, rfl⟩ | hrest⟩ := hmore
  · rw [List.append_nil]
    exact ⟨.last h hlength hmany (Nat.lt_irrefl _), .inr hlength⟩
  · exact ⟨.more h hlength hmany hrest, .inr (Nat.lt_trans hrest hlength)⟩

/-! ### What may follow a phrase -/

/-- The tokens with which a phrase of a level goes on behind its first operand. -/
def operatorsAt : Nat → List String
  | 0 => ["?"]
  | 1 => ["||"]
  | 2 => ["&&"]
  | 3 => ["==", "!="]
  | 4 => ["<", "<=", ">", ">="]
  | 5 => ["+", "-"]
  | 6 => ["*", "/", "%"]
  | 8 => ["(", "[", "."]
  | _ => []

/-- The tokens at which a phrase of a level ends: those that end every expression, the end of the
text among them, and the operators that bind more loosely. -/
def stopsAt : Nat → List String
  | 0 => ["", ")", "]", "\x7d", ",", ":"]
  | level + 1 => stopsAt level ++ operatorsAt level

/-- The next token ends a phrase of a level. -/
def Follow (level : Nat) (rest : List (List Char)) : Prop :=
  ∃ s ∈ stopsAt level, front rest = s.toList

theorem Follow.mono {low high : Nat} (hle : low ≤ high) {rest : List (List Char)}
    (h : Follow low rest) : Follow high rest := by
  induction hle with
  | refl => exact h
  | step _ ih =>
    obtain ⟨s, hs, heq⟩ := ih
    exact ⟨s, List.mem_append_left _ hs, heq⟩

theorem Follow.of_operator {level : Nat} {s : String} (hs : s ∈ operatorsAt level)
    {rest : List (List Char)} : Follow (level + 1) (s.toList :: rest) :=
  ⟨s, List.mem_append_right _ hs, rfl⟩

theorem Follow.of_closer {s : String} (hs : s ∈ stopsAt 0) {rest : List (List Char)} :
    Follow 0 (s.toList :: rest) :=
  ⟨s, hs, rfl⟩

theorem follow_nil : Follow 0 [] :=
  ⟨"", by decide, rfl⟩

/-! ### Levels -/

/-- The levels of the grammar that are chains: operands with something between or behind them. -/
def chains : List Nat :=
  [1, 2, 3, 4, 5, 6, 8]

/-- What a chain starts with. -/
def operandAt : Nat → Pattern Symbol
  | 8 => Symbol.anyPrimary
  | level => .call (levelSymbol (level + 1))

/-- What a chain goes on with. -/
def linkAt : Nat → Pattern Symbol
  | 8 => .any [.call .callArgs, .call .index, .call .member]
  | level => .all [.call (operatorSymbol level), .call (levelSymbol (level + 1))]

theorem rule_of_mem_chains {level : Nat} (h : level ∈ chains) :
    language.rule (levelSymbol level) =
      .phrase true (.seq (operandAt level) (.many (linkAt level))) := by
  simp only [chains, List.mem_cons, List.not_mem_nil, or_false] at h
  rcases h with rfl | rfl | rfl | rfl | rfl | rfl | rfl <;> rfl

/-- A chain ends at the tokens that may follow it. -/
theorem misses_link {level : Nat} (h : level ∈ chains) {rest : List (List Char)}
    (hrest : Follow level rest) : Misses (linkAt level) rest := by
  obtain ⟨s, hs, heq⟩ := hrest
  have hlexeme {lexeme : Recogniser} (hall : ∀ s ∈ stopsAt level, lexeme s.toList = none) :
      lexeme (front rest) = none := heq ▸ hall s hs
  have htext {chars : List Char}
      (hall : ∀ s ∈ stopsAt level, chars.isPrefixOf s.toList = false) :
      chars.isPrefixOf (front rest) = false := heq ▸ hall s hs
  simp only [chains, List.mem_cons, List.not_mem_nil, or_false] at h
  rcases h with rfl | rfl | rfl | rfl | rfl | rfl | rfl
  case inr.inr.inr.inr.inr.inr =>
    refine .right ?_ (.right ?_ ?_)
    · exact .noPhrase rfl (.noFirst (misses_text (by decide) (htext (by decide))))
    · exact .noPhrase rfl (.noFirst (misses_text (by decide) (htext (by decide))))
    · exact .noPhrase rfl (.noFirst (misses_text (by decide) (htext (by decide))))
  all_goals exact .noFirst (misses_token rfl (hlexeme (by decide)))

/-! ### Phrases -/

/-- The node of a level that tokens are read as where no operator of the level follows. -/
def Reads (level : Nat) (tokens : List (List Char)) (node : Node Symbol) : Prop :=
  ∀ rest, Follow level rest → Finds (.call (levelSymbol level)) (tokens ++ rest) [node] rest

/-- The parts of a chain that tokens are read as where the chain may go on. -/
def Opens (level : Nat) (tokens : List (List Char)) (parts : List (Node Symbol)) : Prop :=
  ∀ rest more last, Follow (level + 1) rest → Repeats (linkAt level) rest more last →
    Finds (.seq (operandAt level) (.many (linkAt level))) (tokens ++ rest) (parts ++ more) last

/-- No sign stands at the front. -/
def Unsigned (tokens : List (List Char)) : Prop :=
  ∀ rest, Misses (.call .unaryOp) (tokens ++ rest)

/-- The parts of signs and an operand. -/
def Signs (tokens : List (List Char)) (parts : List (Node Symbol)) : Prop :=
  ∀ rest, Follow 7 rest → ∃ signs operand node, parts = signs ++ [node] ∧
    Repeats (.call .unaryOp) (tokens ++ rest) signs operand ∧
    Finds (.call .postfixed) operand [node] rest

/-- The pattern of a whole expression. -/
def exprBody : Pattern Symbol :=
  .all [.call .orExpr, .optional (.all [.lit "?", .call .expr, .lit ":", .call .expr])]

/-- The parts of a phrase of a level that tokens are read as. -/
def Parts (level : Nat) (tokens : List (List Char)) (parts : List (Node Symbol)) : Prop :=
  match level with
  | 0 => ∀ rest, Follow 0 rest → Finds exprBody (tokens ++ rest) parts rest
  | 7 => Signs tokens parts
  | 8 => Unsigned tokens ∧ Opens 8 tokens parts
  | level => Opens level tokens parts

theorem Opens.reads {level : Nat} (hlevel : level ∈ chains) {tokens : List (List Char)}
    {parts : List (Node Symbol)} (h : Opens level tokens parts) :
    Reads level tokens (phraseNode (levelSymbol level) parts) := by
  intro rest hrest
  have hparts := h rest [] rest (hrest.mono (Nat.le_succ _)) (.nil (misses_link hlevel hrest))
  rw [List.append_nil] at hparts
  exact .phrase (rule_of_mem_chains hlevel) hparts

/-- The parts of a phrase make its node. -/
theorem Parts.reads {level : Nat} (hlevel : level ≤ 8) {tokens : List (List Char)}
    {parts : List (Node Symbol)} (h : Parts level tokens parts) :
    Reads level tokens (phraseNode (levelSymbol level) parts) := by
  match level, hlevel with
  | 0, _ => exact fun rest hrest ↦ .phrase rfl (h rest hrest)
  | 1, _ | 2, _ | 3, _ | 4, _ | 5, _ | 6, _ => exact Opens.reads (by decide) h
  | 7, _ =>
    intro rest hrest
    obtain ⟨signs, operand, node, rfl, hsigns, hnode⟩ := h rest hrest
    exact .phrase rfl (.seq hsigns.1 hnode)
  | 8, _ => exact Opens.reads (by decide) h.2

/-- A phrase is the only part of a phrase of the level below. -/
theorem Parts.lower {level : Nat} (hlevel : level < 8) {tokens : List (List Char)}
    {parts : List (Node Symbol)} (h : Parts (level + 1) tokens parts) :
    Parts level tokens [phraseNode (levelSymbol (level + 1)) parts] := by
  have hreads := h.reads hlevel
  match level, hlevel with
  | 0, _ =>
    intro rest hrest
    have hmark : "?".toList.isPrefixOf (front rest) = false := by
      obtain ⟨s, hs, heq⟩ := hrest
      have hall : ∀ s ∈ stopsAt 0, "?".toList.isPrefixOf s.toList = false := by decide
      exact heq ▸ hall s hs
    exact .seq (hreads rest (hrest.mono (Nat.zero_le _)))
      (.missing (.noFirst (misses_text (by decide) hmark)))
  | 1, _ | 2, _ | 3, _ | 4, _ | 5, _ | 6, _ =>
    exact fun rest more last hrest hmore ↦ .seq (hreads rest hrest) hmore.1
  | 7, _ =>
    exact fun rest hrest ↦ ⟨[], tokens ++ rest, _, rfl, .nil (h.1 rest),
      hreads rest (hrest.mono (Nat.le_succ 7))⟩

/-- Tokens are read as a node of a level. -/
def Phrase (level : Nat) (tokens : List (List Char)) (node : Node Symbol) : Prop :=
  node = phraseNode (levelSymbol level) node.parts ∧ Parts level tokens node.parts

theorem Phrase.reads {level : Nat} (hlevel : level ≤ 8) {tokens : List (List Char)}
    {node : Node Symbol} (h : Phrase level tokens node) : Reads level tokens node := by
  rw [h.1]
  exact h.2.reads hlevel

/-- A phrase, with the levels between, is a phrase of every level below. -/
theorem Phrase.raise {level count : Nat} (hlevel : level + count ≤ 8) {tokens : List (List Char)}
    {node : Node Symbol} (h : Phrase (level + count) tokens node) :
    Phrase level tokens (raise level count node) := by
  induction count generalizing level with
  | zero => exact h
  | succ count ih =>
    rw [← Nat.add_assoc, Nat.add_right_comm] at h
    obtain ⟨heq, hparts⟩ := ih (by omega) h
    refine ⟨rfl, ?_⟩
    have hlower := hparts.lower (by omega)
    rwa [← heq] at hlower

/-! ### Operators -/

theorem unsigned_cons {token : List Char} {tokens : List (List Char)}
    (h : Lexeme.oneOf ["!", "-"] token = none) : Unsigned (token :: tokens) :=
  fun _ ↦ misses_token rfl h

theorem Unsigned.append {tokens : List (List Char)} (h : Unsigned tokens)
    (more : List (List Char)) : Unsigned (tokens ++ more) := by
  intro rest
  rw [List.append_assoc]
  exact h (more ++ rest)

theorem finds_binary (op : BinaryOp) (rest : List (List Char)) :
    Finds (.call (operatorSymbol op.level)) (op.symbol.toList :: rest)
      [tokenNode (operatorSymbol op.level) op.symbol.toList] rest := by
  cases op <;> exact finds_token rfl (by decide)

/-- A chain goes on with a link. -/
theorem Opens.link {level : Nat} {tokens link : List (List Char)} {parts nodes : List (Node Symbol)}
    (h : Opens level tokens parts) (hne : link ≠ [])
    (hlink : ∀ rest, Follow (level + 1) rest → Finds (linkAt level) (link ++ rest) nodes rest)
    (hfollow : ∀ rest, Follow (level + 1) (link ++ rest)) :
    Opens level (tokens ++ link) (parts ++ nodes) := by
  intro rest more last hrest hmore
  have hlength : rest.length < (link ++ rest).length := by
    have := List.length_pos_iff.2 hne
    simp only [List.length_append]
    omega
  have hopen := h _ _ _ (hfollow rest) (.cons (hlink rest hrest) hlength hmore)
  simpa only [List.append_assoc] using hopen

theorem Opens.binary {op : BinaryOp} {lhs rhs : List (List Char)} {parts : List (Node Symbol)}
    {node : Node Symbol} (hlhs : Opens op.level lhs parts) (hrhs : Reads (op.level + 1) rhs node) :
    Opens op.level (lhs ++ op.symbol.toList :: rhs)
      (parts ++ [tokenNode (operatorSymbol op.level) op.symbol.toList, node]) := by
  refine hlhs.link (by simp) (fun rest hrest ↦ ?_) fun rest ↦ ?_
  · have h := Derives.seq (finds_binary op (rhs ++ rest)) (hrhs rest hrest)
    cases op <;> exact h
  · have hmem : op.symbol ∈ operatorsAt op.level := by
      cases op <;> decide
    exact .of_operator hmem

theorem Signs.cons (op : UnaryOp) {tokens : List (List Char)} {parts : List (Node Symbol)}
    (h : Signs tokens parts) :
    Signs (op.symbol.toList :: tokens) (tokenNode .unaryOp op.symbol.toList :: parts) := by
  intro rest hrest
  obtain ⟨signs, operand, node, rfl, hsigns, hnode⟩ := h rest hrest
  have hsign : Finds (.call .unaryOp) (op.symbol.toList :: (tokens ++ rest))
      [tokenNode .unaryOp op.symbol.toList] (tokens ++ rest) := by
    cases op <;> exact finds_token rfl (by decide)
  exact ⟨_, operand, node, rfl, .cons hsign (Nat.lt_succ_self _) hsigns, hnode⟩

theorem Parts.ternary {cond yes no : List (List Char)} {c y n : Node Symbol}
    (hcond : Reads 1 cond c) (hyes : Reads 0 yes y) (hno : Reads 0 no n) :
    Parts 0 (cond ++ "?".toList :: (yes ++ ":".toList :: no)) [c, y, n] := by
  intro rest hrest
  have hno := hno rest hrest
  have hyes := hyes (":".toList :: (no ++ rest)) (.of_closer (by decide))
  have hcond := hcond ("?".toList :: (yes ++ ":".toList :: (no ++ rest)))
    (.of_operator (s := "?") (by decide))
  have h : Finds exprBody (cond ++ "?".toList :: (yes ++ ":".toList :: (no ++ rest))) [c, y, n]
      rest :=
    .seq hcond (.present (.seq (finds_lit _ (by decide))
      (.seq hyes (.seq (finds_lit _ (by decide)) hno))))
  simpa only [List.append_assoc, List.cons_append] using h

/-! ### Suffixes -/

theorem Opens.index {target i : List (List Char)} {parts : List (Node Symbol)} {node : Node Symbol}
    (h : Opens 8 target parts) (hi : Reads 0 i node) :
    Opens 8 (target ++ "[".toList :: (i ++ ["]".toList]))
      (parts ++ [phraseNode .index [node]]) := by
  refine h.link (by simp) (fun rest _ ↦ ?_) fun rest ↦ .of_operator (s := "[") (by decide)
  have hi := hi ("]".toList :: rest) (.of_closer (by decide))
  have hparts := Derives.seq (finds_lit "[" (by decide))
    (Derives.seq hi (finds_lit "]" (by decide)))
  rw [List.cons_append, List.append_assoc]
  refine .right (.noPhrase rfl (.noFirst ?_)) (.left (.phrase rfl hparts))
  exact misses_text_cons (by decide) (by decide)

theorem Opens.member {target : List (List Char)} {parts : List (Node Symbol)} {name : String}
    (h : Opens 8 target parts) (hname : isName name = true) :
    Opens 8 (target ++ [".".toList, name.toList])
      (parts ++ [phraseNode .member [tokenNode .ident name.toList]]) := by
  refine h.link (by simp) (fun rest _ ↦ ?_) fun rest ↦ .of_operator (s := ".") (by decide)
  have hfield : Finds (.call .ident) (name.toList :: rest) [tokenNode .ident name.toList] rest :=
    finds_token rfl (name_name hname)
  have hparts := Derives.seq (finds_lit "." (by decide)) hfield
  refine .right (.noPhrase rfl (.noFirst ?_)) (.right (.noPhrase rfl (.noFirst ?_))
    (.phrase rfl hparts))
  · exact misses_text_cons (by decide) (by decide)
  · exact misses_text_cons (by decide) (by decide)

/-! ### Lists of items -/

/-- Items with a comma in front of each of them. -/
inductive Items (item : Pattern Symbol) : List (List Char) → List (Node Symbol) → Prop
  | nil : Items item [] []
  | cons {tokens more node nodes}
      (h : ∀ rest, Follow 0 rest → Finds item (tokens ++ rest) [node] rest)
      (hmore : Items item more nodes) :
      Items item (",".toList :: (tokens ++ more)) (node :: nodes)

section Items

variable {item : Pattern Symbol} {tokens rest : List (List Char)} {nodes : List (Node Symbol)}

theorem Items.follow (h : Items item tokens nodes) (hrest : Follow 0 rest) :
    Follow 0 (tokens ++ rest) := by
  cases h with
  | nil => exact hrest
  | cons => exact .of_closer (s := ",") (by decide)

theorem Items.repeats (h : Items item tokens nodes) (hrest : Follow 0 rest)
    (hcomma : ",".toList.isPrefixOf (front rest) = false) :
    Repeats (.all [.lit ",", item]) (tokens ++ rest) nodes rest := by
  induction h with
  | nil => exact .nil (.noFirst (misses_text (by decide) hcomma))
  | @cons tokens more node nodes h hmore ih =>
    have hitem := h (more ++ rest) (hmore.follow hrest)
    rw [List.cons_append, List.append_assoc]
    have hlink := Derives.seq (finds_lit "," (by decide)) hitem
    refine .cons hlink ?_ ih
    simp only [List.length_cons, List.length_append]
    omega

/-- A list that may be empty, up to what stands behind it: the first item without its comma, and
the others as `others` finds them. -/
theorem Items.finds {others : Pattern Symbol} (h : Items item tokens nodes) (hrest : Follow 0 rest)
    (hcomma : ",".toList.isPrefixOf (front rest) = false) (hmisses : Misses item rest)
    (hothers : ∀ tokens nodes, Repeats (.all [.lit ",", item]) tokens nodes rest →
      Finds others tokens nodes rest) :
    Finds (.optional (.seq item others)) (tokens.drop 1 ++ rest) nodes rest := by
  cases h with
  | nil => exact .missing (.noFirst hmisses)
  | @cons tokens more node nodes h hmore =>
    have hitem := h (more ++ rest) (hmore.follow hrest)
    rw [List.drop_one, List.tail_cons, List.append_assoc]
    exact .present (.seq hitem (hothers _ _ (hmore.repeats hrest hcomma)))

end Items

/-- No expression starts with a token that ends one. -/
theorem misses_expr {tokens : List (List Char)} (h : Follow 0 tokens) :
    Misses (.call .expr) tokens := by
  obtain ⟨s, hs, heq⟩ := h
  have hlexeme {symbol : Symbol} {lexeme : Recogniser}
      (hrule : language.rule symbol = .token lexeme)
      (hall : ∀ s ∈ stopsAt 0, lexeme s.toList = none) : Misses (.call symbol) tokens :=
    misses_token hrule (heq ▸ hall s hs)
  have htext {chars : List Char} (hne : chars ≠ [])
      (hall : ∀ s ∈ stopsAt 0, chars.isPrefixOf s.toList = false) : Misses (.text chars) tokens :=
    misses_text hne (heq ▸ hall s hs)
  have hprimary : Misses Symbol.anyPrimary tokens := by
    refine .right (hlexeme rfl ?_) (.right (hlexeme rfl ?_) (.right (hlexeme rfl ?_)
      (.right (hlexeme rfl ?_) (.right (hlexeme rfl ?_)
      (.right (.noPhrase rfl (.noFirst (htext ?_ ?_)))
      (.right (.noPhrase rfl (.noFirst (htext ?_ ?_)))
      (.right (hlexeme rfl ?_) (.noFirst (htext ?_ ?_)))))))))
    all_goals decide
  have hunary : Misses (.call .unary) tokens :=
    .noPhrase rfl (.noSecond (.done (hlexeme rfl (by decide))) (.noPhrase rfl (.noFirst hprimary)))
  have hlevel {symbol : Symbol} {first second : Pattern Symbol}
      (hrule : language.rule symbol = .phrase true (.seq first second)) (h : Misses first tokens) :
      Misses (.call symbol) tokens :=
    .noPhrase hrule (.noFirst h)
  exact hlevel rfl (hlevel rfl (hlevel rfl (hlevel rfl (hlevel rfl (hlevel rfl (hlevel rfl
    hunary))))))

theorem Opens.call {callee args : List (List Char)} {parts nodes : List (Node Symbol)}
    (h : Opens 8 callee parts) (hargs : Items (.call .expr) args nodes) :
    Opens 8 (callee ++ "(".toList :: (args.drop 1 ++ [")".toList]))
      (parts ++ [phraseNode .callArgs nodes]) := by
  refine h.link (by simp) (fun rest _ ↦ ?_) fun rest ↦ .of_operator (s := "(") (by decide)
  have hclose : Follow 0 (")".toList :: rest) := .of_closer (by decide)
  have hitems := hargs.finds hclose rfl (misses_expr hclose) fun _ _ h ↦ h.1
  have hnodes := Derives.seq hitems (finds_lit ")" (by decide))
  rw [List.append_nil] at hnodes
  rw [List.cons_append, List.append_assoc]
  exact .left (.phrase rfl (.seq (finds_lit _ (by decide)) hnodes))

/-! ### Innermost expressions -/

/-- The node that tokens are read as where an innermost expression is looked for. -/
def Primary (tokens : List (List Char)) (node : Node Symbol) : Prop :=
  ∀ rest, Finds Symbol.anyPrimary (tokens ++ rest) [node] rest

theorem Primary.parts {tokens : List (List Char)} {node : Node Symbol} (h : Primary tokens node)
    (hsign : Unsigned tokens) : Parts 8 tokens [node] :=
  ⟨hsign, fun rest _ _ _ hmore ↦ .seq (h rest) hmore.1⟩

theorem primary_digits (n : Nat) :
    Primary [Nat.toDigits 10 n] (tokenNode .intLit (Nat.toDigits 10 n)) :=
  fun _ ↦ .right (misses_token_cons rfl (by simpa using (number_digits n).fraction))
    (.left (finds_token rfl (by simpa using (number_digits n).integer)))

theorem primary_quoted (s : List Char) :
    Primary ['"' :: (Literal.escaped s ++ ['"'])]
      (tokenNode .stringLit ('"' :: (Literal.escaped s ++ ['"']))) := by
  have hquoted := quoted_spelling s []
  rw [List.append_nil] at hquoted
  exact fun _ ↦ .right (misses_token_cons rfl (fraction_eq_none (by decide) _))
    (.right (misses_token_cons rfl (integer_eq_none (by decide) _))
    (.left (finds_token rfl hquoted)))

/-- Words, numbers and strings are looked for first. -/
theorem primary_of_mark {token : List Char} {tokens : List (List Char)} {nodes : List (Node Symbol)}
    {rest : List (List Char)} (hfraction : Lexeme.fraction token = none)
    (hinteger : Lexeme.integer token = none) (hquoted : Lexeme.quoted token = none)
    (hbool : Lexeme.word ["true", "false"] token = none) (hnull : Lexeme.word ["null"] token = none)
    (h : Finds (.any [.call .listLit, .call .mapLit, .call .ident,
      .all [.lit "(", .call .expr, .lit ")"]]) (token :: tokens) nodes rest) :
    Finds Symbol.anyPrimary (token :: tokens) nodes rest :=
  .right (misses_token_cons rfl hfraction) (.right (misses_token_cons rfl hinteger)
    (.right (misses_token_cons rfl hquoted) (.right (misses_token_cons rfl hbool)
    (.right (misses_token_cons rfl hnull) h))))

theorem primary_name {name : String} (h : isName name = true) :
    Primary [name.toList] (tokenNode .ident name.toList) := by
  intro rest
  obtain ⟨c, tail, heq, hc, hword, -⟩ := isName_cases h
  have hdigit := isDigit_eq_false_of_isAlpha hc
  have hquote : c ≠ '"' := by
    rintro rfl
    exact absurd (hword '"' (by simp [heq])) (by decide)
  have hmark := startsWithMark_name h
  refine primary_of_mark ?_ ?_ ?_ (word_name (by decide) h) (word_name (by decide) h)
    (.right ?_ (.right ?_ (.left (finds_token rfl (name_name h)))))
  · rw [heq, fraction_eq_none hdigit]
  · rw [heq, integer_eq_none hdigit]
  · rw [heq, Lexeme.quoted]
    exact fun _ h ↦ hquote (List.cons.inj h).1
  · exact .noPhrase rfl (.noFirst (misses_text_cons (by decide)
      (isPrefixOf_mark (by decide) hmark)))
  · exact .noPhrase rfl (.noFirst (misses_text_cons (by decide)
      (isPrefixOf_mark (by decide) hmark)))

theorem primary_literal {value : Literal} (h : value.Printable) :
    Primary [value.spelling] (tokenNode value.symbol value.spelling) := by
  match value, h with
  | .int value, _ => exact primary_digits _
  | .string s, _ => exact primary_quoted _
  | .bool true, _ | .bool false, _ =>
    intro rest
    refine .right (misses_token_cons rfl ?_) (.right (misses_token_cons rfl ?_)
      (.right (misses_token_cons rfl ?_) (.left (finds_token rfl ?_))))
    all_goals decide
  | .null, _ =>
    intro rest
    refine .right (misses_token_cons rfl ?_) (.right (misses_token_cons rfl ?_)
      (.right (misses_token_cons rfl ?_) (.right (misses_token_cons rfl ?_)
      (.left (finds_token rfl ?_)))))
    all_goals decide

theorem unsigned_spelling {value : Literal} (h : value.Printable) : Unsigned [value.spelling] := by
  match value, h with
  | .int value, _ =>
    have hmark := (number_digits value.toInt.toNat).startsWithMark
    rw [List.append_nil] at hmark
    exact unsigned_cons (oneOf_mark (by decide) hmark)
  | .string _, _ => exact unsigned_cons rfl
  | .bool true, _ | .bool false, _ | .null, _ => exact unsigned_cons (by decide)

theorem primary_paren {tokens : List (List Char)} {node : Node Symbol} (h : Reads 0 tokens node) :
    Primary ("(".toList :: (tokens ++ [")".toList])) node := by
  intro rest
  have hexpr := h (")".toList :: rest) (.of_closer (by decide))
  have hparts := Derives.seq (finds_lit "(" (by decide))
    (Derives.seq hexpr (finds_lit ")" (by decide)))
  rw [List.cons_append, List.append_assoc]
  refine primary_of_mark (by decide) (by decide) (by decide) (by decide) (by decide)
    (.right (.noPhrase rfl (.noFirst (misses_text_cons ?_ ?_)))
    (.right (.noPhrase rfl (.noFirst (misses_text_cons ?_ ?_)))
    (.right (misses_token_cons rfl ?_) hparts)))
  all_goals decide

/-- The items of a list or map, behind which one more comma may stand. -/
theorem Items.finds_trailing {item : Pattern Symbol} {tokens rest : List (List Char)}
    {nodes : List (Node Symbol)} (h : Items item tokens nodes) (hrest : Follow 0 rest)
    (hcomma : ",".toList.isPrefixOf (front rest) = false) (hmisses : Misses item rest) :
    Finds (.optional (.all [item, .many (.all [.lit ",", item]), .optional (.lit ",")]))
      (tokens.drop 1 ++ rest) nodes rest := by
  refine h.finds hrest hcomma hmisses fun tokens nodes h ↦ ?_
  have hnone : Finds (.optional (.lit ",")) rest [] rest :=
    .missing (misses_text (by decide) hcomma)
  have hall := Derives.seq h.1 hnone
  rwa [List.append_nil] at hall

theorem primary_list {items : List (List Char)} {nodes : List (Node Symbol)}
    (h : Items (.call .expr) items nodes) :
    Primary ("[".toList :: (items.drop 1 ++ ["]".toList])) (phraseNode .listLit nodes) := by
  intro rest
  have hclose : Follow 0 ("]".toList :: rest) := .of_closer (by decide)
  have hitems := h.finds_trailing hclose rfl (misses_expr hclose)
  have hparts := Derives.seq (finds_lit "[" (by decide))
    (Derives.seq hitems (finds_lit "]" (by decide)))
  rw [List.append_nil] at hparts
  rw [List.cons_append, List.append_assoc]
  exact primary_of_mark (by decide) (by decide) (by decide) (by decide) (by decide)
    (.left (.phrase rfl hparts))

theorem primary_map {entries : List (List Char)} {nodes : List (Node Symbol)}
    (h : Items (.call .mapEntry) entries nodes) :
    Primary ("\x7b".toList :: (entries.drop 1 ++ ["\x7d".toList])) (phraseNode .mapLit nodes) := by
  intro rest
  have hclose : Follow 0 ("\x7d".toList :: rest) := .of_closer (by decide)
  have hentries := h.finds_trailing hclose rfl (.noPhrase rfl (.noFirst (misses_expr hclose)))
  have hparts := Derives.seq (finds_lit "\x7b" (by decide))
    (Derives.seq hentries (finds_lit "\x7d" (by decide)))
  rw [List.append_nil] at hparts
  rw [List.cons_append, List.append_assoc]
  refine primary_of_mark (by decide) (by decide) (by decide) (by decide) (by decide)
    (.right (.noPhrase rfl (.noFirst (misses_text_cons ?_ ?_))) (.left (.phrase rfl hparts)))
  all_goals decide

theorem Items.entry {key value more : List (List Char)} {k v : Node Symbol}
    {nodes : List (Node Symbol)} (hkey : Reads 0 key k) (hvalue : Reads 0 value v)
    (hmore : Items (.call .mapEntry) more nodes) :
    Items (.call .mapEntry) (",".toList :: (key ++ ":".toList :: (value ++ more)))
      (phraseNode .mapEntry [k, v] :: nodes) := by
  have h : ∀ rest, Follow 0 rest → Finds (.call .mapEntry)
      ((key ++ ":".toList :: value) ++ rest) [phraseNode .mapEntry [k, v]] rest := by
    intro rest hrest
    have hkey := hkey (":".toList :: (value ++ rest)) (.of_closer (by decide))
    have hparts := Derives.seq hkey (Derives.seq (finds_lit ":" (by decide))
      (hvalue rest hrest))
    rw [List.append_assoc, List.cons_append]
    exact .phrase rfl hparts
  simpa only [List.append_assoc, List.cons_append] using Items.cons h hmore

/-! ### Printed expressions -/

namespace Expr

/-- An expression that needs no parentheses is read as its own node. -/
def ReadsBack (e : Expr) : Prop :=
  ∀ start, (start && e.isMap) = false → Phrase e.level (e.inner start) (e.node start)

/-- A printed expression is read as its node in every place of the grammar. -/
theorem ReadsBack.phrase {e : Expr} (h : e.ReadsBack) (start : Bool) (min : Nat) (hmin : min ≤ 8) :
    Phrase min (e.tokensAt start min) (e.nodeAt start min) := by
  have hle := e.level_le
  have hraise {start : Bool} {low : Nat} (hlow : low ≤ e.level)
      (hmap : (start && e.isMap) = false) :
      Phrase low (e.inner start) (raise low (e.level - low) (e.node start)) := by
    have hphrase := h start hmap
    rw [← Nat.add_sub_cancel' hlow] at hphrase
    exact hphrase.raise (by omega)
  rw [tokensAt, enclose, nodeAt, lift]
  split
  · have hinner := (@hraise false 0 (Nat.zero_le _) rfl).reads (by decide)
    have hparts := (primary_paren hinner).parts (unsigned_cons (by decide))
    have hphrase : Phrase 8 _ (phraseNode .postfixed _) := ⟨rfl, hparts⟩
    rw [← Nat.add_sub_cancel' hmin] at hphrase
    exact hphrase.raise (by omega)
  · next hparens =>
    simp only [needsParens, Bool.or_eq_true, decide_eq_true_eq, not_or, Bool.not_eq_true,
      Nat.not_lt] at hparens
    exact hraise hparens.1 hparens.2

/-- On its own, an expression is read as a node of the lowest level. -/
theorem ReadsBack.reads {e : Expr} (h : e.ReadsBack) :
    Reads 0 (e.inner false) (raise 0 e.level (e.node false)) :=
  (h.phrase false 0 (Nat.zero_le 8)).reads (Nat.zero_le 8)

theorem ReadsBack.opens {e : Expr} (h : e.ReadsBack) (start : Bool) (op : BinaryOp) :
    Opens op.level (e.tokensAt start op.level) (e.nodeAt start op.level).parts := by
  have hparts := (h.phrase start op.level (Nat.le_of_lt op.level_lt)).2
  cases op <;> exact hparts

/-- A map is not read where it would be the first thing in the text. -/
theorem readsBack_map {span : Span} {entries : List (Expr × Expr)}
    (h : Items (.call .mapEntry) (innerEntries entries) (entryNodes entries)) :
    (Expr.map span entries).ReadsBack :=
  fun _ _ ↦ ⟨rfl, (primary_map h).parts (unsigned_cons (by decide))⟩

mutual

/-- Printable expressions are read as their nodes. -/
theorem readsBack (e : Expr) (he : e.Printable) : e.ReadsBack := by
  cases e with
  | literal span value =>
    exact fun _ _ ↦ ⟨rfl, (primary_literal he).parts (unsigned_spelling he)⟩
  | name span n =>
    exact fun _ _ ↦ ⟨rfl, (primary_name he).parts
      (unsigned_cons (oneOf_mark (by decide) (startsWithMark_name he)))⟩
  | list span items =>
    exact fun _ _ ↦
      ⟨rfl, (primary_list (items_innerAll items he)).parts (unsigned_cons (by decide))⟩
  | map span entries => exact readsBack_map (items_innerEntries entries he)
  | unary span op operand =>
    have hoperand := (readsBack operand he).phrase false 7 (by decide)
    exact fun _ _ ↦ ⟨rfl, Signs.cons op hoperand.2⟩
  | binary span op lhs rhs =>
    have hlhs := readsBack lhs he.1
    have hrhs := (readsBack rhs he.2).phrase false (op.level + 1) op.level_lt
    intro start _
    have hopens := (hlhs.opens start op).binary (hrhs.reads op.level_lt)
    refine ⟨rfl, ?_⟩
    cases op <;> exact hopens
  | ternary span cond yes no =>
    intro start _
    have hcond := (readsBack cond he.1).phrase start 1 (by decide)
    exact ⟨rfl, .ternary (hcond.reads (by decide)) (readsBack yes he.2.1).reads
      (readsBack no he.2.2).reads⟩
  | call span callee args =>
    intro start _
    obtain ⟨hsign, hopens⟩ := ((readsBack callee he.1).phrase start 8 (by decide)).2
    exact ⟨rfl, hsign.append _, hopens.call (items_innerAll args he.2)⟩
  | index span target i =>
    intro start _
    obtain ⟨hsign, hopens⟩ := ((readsBack target he.1).phrase start 8 (by decide)).2
    exact ⟨rfl, hsign.append _, hopens.index (readsBack i he.2).reads⟩
  | member span target field =>
    intro start _
    obtain ⟨hsign, hopens⟩ := ((readsBack target he.1).phrase start 8 (by decide)).2
    exact ⟨rfl, hsign.append _, hopens.member he.2⟩

theorem items_innerAll (items : List Expr) (h : PrintableAll items) :
    Items (.call .expr) (innerAll items) (nodes items) := by
  cases items with
  | nil => exact .nil
  | cons e rest => exact .cons (readsBack e h.1).reads (items_innerAll rest h.2)

theorem items_innerEntries (entries : List (Expr × Expr)) (h : PrintableEntries entries) :
    Items (.call .mapEntry) (innerEntries entries) (entryNodes entries) := by
  match entries, h with
  | [], _ => exact .nil
  | (key, value) :: rest, ⟨hkey, hvalue, hrest⟩ =>
    exact .entry (readsBack key hkey).reads (readsBack value hvalue).reads
      (items_innerEntries rest hrest)

end

end Expr

end Snippet.Script
