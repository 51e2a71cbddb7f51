import Snippet.Proofs.PhraseParts
import Snippet.Proofs.SignedIntegers
import Snippet.Proofs.SourcePlaces

/-!
# Texts that match the grammar

A text that matches the grammar is parsed, or refused for one of three reasons: it is too deep, an
integer in it is too large, or there is an unknown escape in a string (`parse_of_matches`). Building
never fails for what is missing in a node. This rests on two facts about nodes that stand in a text:
each has the parts of its phrase (`parts_of_stands`), and the texts of its tokens are known to the
tree (`exists_binaryOp` and the like).

The induction for expressions is on how a node stands in the text, and not on the builder, whose
functions take lists of nodes apart in different ways; each of these has a lemma of its own about
nodes that are ready for it. What stands behind an operand is no expression, but the expressions in
it are built all the same. So of each node it is said that its parts can be built as well
(`Usable`).
-/

namespace Snippet.Script

open Grammar

/-! ### Complaints about texts that match -/

/-- The problems that a text may have although it matches the grammar. -/
def Problem.isResidual : Problem → Bool
  | tooDeep | constantTooLarge | badEscape _ => true
  | _ => false

theorem Problem.id_mem_of_isResidual {problem : Problem} (h : problem.isResidual = true) :
    problem.id ∈ ["SC8078", "SC1021", "SC1009"] := by
  cases problem <;> cases h
  case tooDeep => decide
  case constantTooLarge => decide
  case badEscape _ => exact List.mem_of_mem_getLast? rfl

section NoMismatch

variable {α β : Type} {source : List Char} {node : Node Symbol}

/-- There is an answer, or a complaint that has nothing to do with the shape of the nodes. -/
def NoMismatch (x : Except Complaint α) : Prop :=
  ∀ c, x = .error c → c.problem.isResidual = true

theorem noMismatch_pure (a : α) : NoMismatch (pure a : Except Complaint α) :=
  nofun

theorem noMismatch_throw {c : Complaint} (h : c.problem.isResidual = true) :
    NoMismatch (throw c : Except Complaint α) := by
  intro c' heq
  cases heq
  exact h

theorem NoMismatch.bind {x : Except Complaint α} {k : α → Except Complaint β} (h : NoMismatch x)
    (hk : ∀ a, NoMismatch (k a)) : NoMismatch (x >>= k) := by
  cases x with
  | ok a => exact hk a
  | error c => exact noMismatch_throw (h c rfl)

theorem NoMismatch.map {x : Except Complaint α} (h : NoMismatch x) (f : α → β) :
    NoMismatch (f <$> x) := by
  cases x with
  | ok a => exact noMismatch_pure (f a)
  | error c => exact noMismatch_throw (h c rfl)

theorem noMismatch_checkDepth (depth : Nat) (span : Span) : NoMismatch (checkDepth depth span) := by
  unfold checkDepth
  split
  · exact noMismatch_throw rfl
  · exact noMismatch_pure ()

theorem noMismatch_unescape (place : Nat) (body : List Char) :
    NoMismatch (unescape place body) := by
  fun_induction unescape place body with
  | case1 | case4 => exact noMismatch_pure _
  | case2 _ _ _ _ _ ih | case5 _ _ _ _ _ ih => exact ih.map _
  | case3 => exact noMismatch_throw rfl

theorem noMismatch_typeOf (h : node.Stands language source) (hsymbol : node.symbol = .declType) :
    NoMismatch (typeOf node) := by
  obtain ⟨type, htype⟩ := exists_declType h hsymbol
  rw [typeOf, htype]
  exact noMismatch_pure type

/-- A node from which something is built at every depth that is not too deep. -/
def Buildable (build : Nat → Node Symbol → Except Complaint α) (node : Node Symbol) : Prop :=
  ∀ depth, NoMismatch (build depth node)

end NoMismatch

/-! ### Building expressions -/

section Expressions

variable {source : List Char} {node : Node Symbol} {nodes : List (Node Symbol)}

/-- A node whose expressions can be built: itself if it is one, and those among its parts. -/
structure Usable (source : List Char) (node : Node Symbol) : Prop where
  stands : node.Stands language source
  self : node.symbol.isExpression = true → Buildable exprOf node
  part : ∀ part ∈ node.parts, part.symbol.isExpression = true → Buildable exprOf part

theorem Usable.expr_part {part : Node Symbol} (h : Usable source node) (hmem : part ∈ node.parts)
    (hsymbol : part.symbol = .expr) : Buildable exprOf part :=
  h.part part hmem (by rw [hsymbol]; rfl)

theorem noMismatch_exprsOf (depth : Nat) (h : ∀ node ∈ nodes, Buildable exprOf node) :
    NoMismatch (exprsOf depth nodes) := by
  induction nodes with
  | nil => exact noMismatch_pure []
  | cons node rest ih =>
    obtain ⟨hnode, hrest⟩ := List.forall_mem_cons.1 h
    rw [exprsOf]
    exact (hnode depth).bind fun _ ↦ (ih hrest).bind fun _ ↦ noMismatch_pure _

theorem noMismatch_entriesOf (depth : Nat)
    (h : ∀ node ∈ nodes, node.symbol = .mapEntry ∧ Usable source node) :
    NoMismatch (entriesOf depth nodes) := by
  induction nodes with
  | nil => exact noMismatch_pure []
  | cons node rest ih =>
    obtain ⟨⟨hsymbol, hnode⟩, hrest⟩ := List.forall_mem_cons.1 h
    obtain ⟨symbol, span, text, parts⟩ := node
    obtain rfl : symbol = .mapEntry := hsymbol
    have hparts : parts.map Node.symbol = [.expr, .expr] := parts_of_stands hnode.stands
    simp only [List.map_eq_cons_iff, List.map_eq_nil_iff] at hparts
    obtain ⟨key, _, rfl, hkey, value, _, rfl, hvalue, rfl⟩ := hparts
    have hkey' := hnode.expr_part (List.mem_cons_self ..) hkey
    have hvalue' := hnode.expr_part (List.mem_cons_of_mem _ (List.mem_cons_self ..)) hvalue
    rw [entriesOf]
    exact (hkey' depth).bind fun _ ↦ (hvalue' depth).bind fun _ ↦ (ih hrest).bind fun _ ↦
      noMismatch_pure _

theorem noMismatch_chainOf (span : Span) (depth : Nat) (lhs : Expr)
    (h : Alternates (fun op ↦ ∃ o, BinaryOp.ofSymbol? (nodeText op) = some o) (Buildable exprOf)
      nodes) :
    NoMismatch (chainOf span depth lhs nodes) := by
  induction h generalizing depth lhs with
  | nil => exact noMismatch_pure lhs
  | cons hop hoperand _ ih =>
    obtain ⟨op, hop⟩ := hop
    rw [chainOf]
    refine (noMismatch_checkDepth _ _).bind fun _ ↦ ?_
    simp only [hop]
    exact (hoperand _).bind fun rhs ↦ ih _ _

/-- Whatever stands in front of the last node is taken for a sign. -/
theorem noMismatch_unaryOf (span : Span) (depth : Nat) (ops : List (UnaryOp × Span))
    (signs : List (Node Symbol)) {operand : Node Symbol} (h : Buildable exprOf operand) :
    NoMismatch (unaryOf span depth ops (signs ++ [operand])) := by
  induction signs generalizing ops with
  | nil =>
    rw [List.nil_append, unaryOf]
    split
    · exact (noMismatch_checkDepth _ _).bind fun _ ↦ noMismatch_pure _
    · exact (h _).bind fun _ ↦ (noMismatch_checkDepth _ _).bind fun _ ↦ noMismatch_pure _
  | cons sign signs ih =>
    rw [List.cons_append, unaryOf]
    · exact ih _
    · simp

theorem noMismatch_suffixesOf (span : Span) (depth : Nat) (target : Expr)
    (h : ∀ node ∈ nodes, node.symbol.isSuffix = true ∧ Usable source node) :
    NoMismatch (suffixesOf span depth target nodes) := by
  induction nodes generalizing depth target with
  | nil => exact noMismatch_pure target
  | cons node rest ih =>
    obtain ⟨⟨hsymbol, hnode⟩, hrest⟩ := List.forall_mem_cons.1 h
    obtain ⟨symbol, ⟨start, stop⟩, text, parts⟩ := node
    have hparts : symbol.Parts (parts.map Node.symbol) := parts_of_stands hnode.stands
    rw [suffixesOf.eq_def]
    refine (noMismatch_checkDepth _ _).bind fun _ ↦ ?_
    rcases Symbol.eq_of_isSuffix hsymbol with rfl | rfl | rfl
    · exact (noMismatch_exprsOf _ fun part hmem ↦
        hnode.expr_part hmem (List.forall_mem_map.1 hparts part hmem)).bind fun _ ↦ ih _ _ hrest
    · obtain ⟨index, rfl, hindex⟩ := List.map_eq_singleton_iff.1 hparts
      have hindex' := hnode.expr_part (List.mem_singleton_self _) hindex
      exact (hindex' _).bind fun _ ↦ ih _ _ hrest
    · obtain ⟨field, rfl, -⟩ := List.map_eq_singleton_iff.1 hparts
      exact ih _ _ hrest

/-- A chain starts with an operand that can be built, and its links can be built behind it. -/
theorem exists_chain {operand operator : Symbol} (hoperand : operand.isExpression = true)
    (hoperator : operator.isOperator = true)
    (hlinked : Symbol.Linked operand operator (nodes.map Node.symbol))
    (husable : ∀ node ∈ nodes, Usable source node) :
    ∃ head rest, nodes = head :: rest ∧ Buildable exprOf head ∧
      ∀ span depth lhs, NoMismatch (chainOf span depth lhs rest) := by
  obtain ⟨_, hcons, halternates⟩ := hlinked
  obtain ⟨head, rest, rfl, hhead, rfl⟩ := List.map_eq_cons_iff.1 hcons
  obtain ⟨hhead', hrest⟩ := List.forall_mem_cons.1 husable
  refine ⟨head, rest, rfl, hhead'.self (by rw [hhead, hoperand]), fun _ _ _ ↦ ?_⟩
  refine noMismatch_chainOf _ _ _ (halternates.of_map.imp (fun node hmem hsymbol ↦ ?_)
    fun node hmem hsymbol ↦ ?_)
  · exact exists_binaryOp (hrest node hmem).stands (by rw [hsymbol, hoperator])
  · exact (hrest node hmem).self (by rw [hsymbol, hoperand])

/-- An expression is built of the parts of its node. -/
theorem buildable_exprOf (h : node.Stands language source)
    (hsymbol : node.symbol.isExpression = true)
    (husable : ∀ part ∈ node.parts, Usable source part) :
    Buildable exprOf node := by
  intro depth
  obtain ⟨symbol, ⟨start, stop⟩, text, parts⟩ := node
  have hparts : symbol.Parts (parts.map Node.symbol) := parts_of_stands h
  have hexpr {part : Node Symbol} {kind : Symbol} (hmem : part ∈ parts) (hpart : part.symbol = kind)
      (hkind : kind.isExpression = true) : Buildable exprOf part :=
    (husable part hmem).self (by rw [hpart, hkind])
  rw [exprOf.eq_def]
  refine (noMismatch_checkDepth _ _).bind fun _ ↦ ?_
  cases symbol <;> cases hsymbol
  case expr =>
    rcases hparts with hparts | hparts
    · obtain ⟨head, rfl, hhead⟩ := List.map_eq_singleton_iff.1 hparts
      exact hexpr (List.mem_singleton_self _) hhead rfl _
    · simp only [List.map_eq_cons_iff, List.map_eq_nil_iff] at hparts
      obtain ⟨cond, _, rfl, hcond, yes, _, rfl, hyes, no, _, rfl, hno, rfl⟩ := hparts
      exact (hexpr (by simp) hcond rfl _).bind fun _ ↦ (hexpr (by simp) hyes rfl _).bind fun _ ↦
        (hexpr (by simp) hno rfl _).bind fun _ ↦ noMismatch_pure _
  case orExpr | andExpr | eqExpr | cmpExpr | addExpr | mulExpr =>
    obtain ⟨head, rest, rfl, hhead, hrest⟩ := exists_chain rfl rfl hparts husable
    exact (hhead _).bind fun _ ↦ hrest _ _ _
  case unary =>
    obtain ⟨_, hsigns, -⟩ := hparts
    obtain ⟨signs, _, rfl, -, hoperand⟩ := List.map_eq_append_iff.1 hsigns
    obtain ⟨operand, rfl, hpostfixed⟩ := List.map_eq_singleton_iff.1 hoperand
    exact noMismatch_unaryOf _ _ _ signs (hexpr (by simp) hpostfixed rfl)
  case postfixed =>
    obtain ⟨e, _, he, hcons, hsuffixes⟩ := hparts
    obtain ⟨head, rest, rfl, rfl, rfl⟩ := List.map_eq_cons_iff.1 hcons
    have hrest : ∀ suffix ∈ rest, suffix.symbol.isSuffix = true ∧ Usable source suffix :=
      fun suffix hmem ↦ ⟨List.forall_mem_map.1 hsuffixes suffix hmem,
        husable suffix (List.mem_cons_of_mem _ hmem)⟩
    exact (hexpr (by simp) rfl he _).bind fun _ ↦ noMismatch_suffixesOf _ _ _ hrest
  case listLit =>
    exact (noMismatch_exprsOf _ fun item hmem ↦
      hexpr hmem (List.forall_mem_map.1 hparts item hmem) rfl).bind fun _ ↦ noMismatch_pure _
  case mapLit =>
    exact (noMismatch_entriesOf _ fun entry hmem ↦
      ⟨List.forall_mem_map.1 hparts entry hmem, husable entry hmem⟩).bind fun _ ↦ noMismatch_pure _
  case intLit =>
    dsimp only
    split
    · exact noMismatch_pure _
    · exact noMismatch_throw rfl
  case floatLit =>
    obtain ⟨x, hx⟩ : ∃ x, Decimal.ofText? (String.ofList text) = some x := exists_float h rfl
    simp only [hx]
    exact noMismatch_pure _
  case stringLit =>
    obtain ⟨body, hbody⟩ : ∃ body, quotedBody? text = some body := exists_body h rfl
    simp only [hbody]
    exact (noMismatch_unescape _ _).bind fun _ ↦ noMismatch_pure _
  case boolLit | nullLit | ident => exact noMismatch_pure _

/-- Every node of the grammar is usable. -/
theorem usable_of_stands (h : node.Stands language source) : Usable source node := by
  induction h with
  | token hrule hlexeme hle hstop =>
    have hstands := Node.Stands.token hrule hlexeme hle hstop
    exact ⟨hstands, fun hsymbol ↦ buildable_exprOf hstands hsymbol nofun, nofun⟩
  | phrase hrule hshape hle hstop hparts hinside ih =>
    have hstands := Node.Stands.phrase hrule hshape hle hstop hparts hinside
    exact ⟨hstands, fun hsymbol ↦ buildable_exprOf hstands hsymbol ih,
      fun part hpart ↦ (ih part hpart).self⟩

end Expressions

/-! ### Building statements -/

section Statements

variable {source : List Char} {node : Node Symbol} {nodes : List (Node Symbol)}

/-- Wherever an expression is asked for, it is built of the node that stands there. -/
theorem buildable_expr (h : node.Stands language source) (hsymbol : node.symbol = .expr) :
    Buildable exprOf node :=
  (usable_of_stands h).self (by rw [hsymbol]; rfl)

theorem noMismatch_pathOf (depth : Nat)
    (h : ∀ node ∈ nodes, node.symbol.isStep = true ∧ node.Stands language source) :
    NoMismatch (pathOf depth nodes) := by
  induction nodes with
  | nil => exact noMismatch_pure []
  | cons node rest ih =>
    obtain ⟨⟨hsymbol, hnode⟩, hrest⟩ := List.forall_mem_cons.1 h
    have hparts := parts_of_stands hnode
    obtain ⟨symbol, span, text, parts⟩ := node
    rw [pathOf.eq_def]
    have hnext (step : Accessor) :
        NoMismatch (do return step :: (← pathOf depth rest) : Except Complaint (List Accessor)) :=
      (ih hrest).bind fun _ ↦ noMismatch_pure _
    rcases Symbol.eq_of_isStep hsymbol with rfl | rfl
    · obtain ⟨index, rfl, hindex⟩ := List.map_eq_singleton_iff.1 hparts
      have hindex' := buildable_expr (hnode.part (List.mem_singleton_self _)) hindex
      exact ((hindex' depth).map _).bind hnext
    · obtain ⟨field, rfl, -⟩ := List.map_eq_singleton_iff.1 hparts
      exact hnext _

theorem noMismatch_stmtsOf (depth : Nat) (h : ∀ node ∈ nodes, Buildable stmtOf node) :
    NoMismatch (stmtsOf depth nodes) := by
  induction nodes with
  | nil => exact noMismatch_pure []
  | cons node rest ih =>
    obtain ⟨hnode, hrest⟩ := List.forall_mem_cons.1 h
    rw [stmtsOf]
    exact (hnode depth).bind fun _ ↦ (ih hrest).bind fun _ ↦ noMismatch_pure _

/-- A statement is built of the parts of its node. -/
theorem buildable_stmtOf (h : node.Stands language source)
    (hsymbol : node.symbol.isStatement = true)
    (hstatements : ∀ part ∈ node.parts, part.symbol.isStatement = true → Buildable stmtOf part) :
    Buildable stmtOf node := by
  intro depth
  obtain ⟨symbol, ⟨start, stop⟩, text, parts⟩ := node
  have hparts : symbol.Parts (parts.map Node.symbol) := parts_of_stands h
  have hexpr {part : Node Symbol} (hmem : part ∈ parts) (hpart : part.symbol = .expr) :
      Buildable exprOf part := buildable_expr (h.part hmem) hpart
  have hstmt {part : Node Symbol} (hmem : part ∈ parts) (hpart : part.symbol.isStatement = true) :
      Buildable stmtOf part := hstatements part hmem hpart
  rw [stmtOf.eq_def]
  refine (noMismatch_checkDepth _ _).bind fun _ ↦ ?_
  cases symbol <;> cases hsymbol <;>
    simp only [Symbol.Parts, List.map_eq_cons_iff, List.map_eq_nil_iff] at hparts
  case block =>
    exact (noMismatch_stmtsOf _ fun part hmem ↦
      hstmt hmem (List.forall_mem_map.1 hparts part hmem)).bind fun _ ↦ noMismatch_pure _
  case ifStmt =>
    obtain ⟨_, hyes, hparts | ⟨_, hno, hparts⟩⟩ := hparts
    · obtain ⟨_, _, rfl, -, cond, _, rfl, hcond, yes, _, rfl, rfl, rfl⟩ := hparts
      exact (hexpr (by simp) hcond _).bind fun _ ↦ (hstmt (by simp) hyes _).bind fun _ ↦
        noMismatch_pure _
    · obtain ⟨_, _, rfl, -, cond, _, rfl, hcond, yes, _, rfl, rfl, _, _, rfl, -, no, _, rfl, rfl,
        rfl⟩ := hparts
      exact (hexpr (by simp) hcond _).bind fun _ ↦ (hstmt (by simp) hyes _).bind fun _ ↦
        (hstmt (by simp) hno _).bind fun _ ↦ noMismatch_pure _
  case whileStmt =>
    obtain ⟨_, hbody, _, _, rfl, -, cond, _, rfl, hcond, body, _, rfl, rfl, rfl⟩ := hparts
    exact (hexpr (by simp) hcond _).bind fun _ ↦ (hstmt (by simp) hbody _).bind fun _ ↦
      noMismatch_pure _
  case foreachStmt =>
    obtain ⟨_, hbody, _, _, rfl, -, type, _, rfl, htype, name, _, rfl, -, _, _, rfl, -, items, _,
      rfl, hitems, body, _, rfl, rfl, rfl⟩ := hparts
    exact (noMismatch_typeOf (h.part (by simp [Node.parts])) htype).bind fun _ ↦
      (hexpr (by simp) hitems _).bind fun _ ↦ (hstmt (by simp) hbody _).bind fun _ ↦
        noMismatch_pure _
  case returnStmt =>
    rcases hparts with ⟨_, _, rfl, -, _, _, rfl, -, rfl⟩ |
      ⟨_, _, rfl, -, value, _, rfl, hvalue, _, _, rfl, -, rfl⟩
    · exact noMismatch_pure _
    · exact (hexpr (by simp) hvalue _).bind fun _ ↦ noMismatch_pure _
  case throwStmt =>
    obtain ⟨_, _, rfl, -, value, _, rfl, hvalue, _, _, rfl, -, rfl⟩ := hparts
    exact (hexpr (by simp) hvalue _).bind fun _ ↦ noMismatch_pure _
  case exprStmt =>
    obtain ⟨value, _, rfl, hvalue, _, _, rfl, -, rfl⟩ := hparts
    exact (hexpr (by simp) hvalue _).bind fun _ ↦ noMismatch_pure _
  case breakStmt | continueStmt | emptyStmt => exact noMismatch_pure _
  case declaration =>
    rcases hparts with ⟨type, _, rfl, htype, name, _, rfl, -, _, _, rfl, -, rfl⟩ |
      ⟨type, _, rfl, htype, name, _, rfl, -, value, _, rfl, hvalue, _, _, rfl, -, rfl⟩
    · exact (noMismatch_typeOf (h.part (by simp [Node.parts])) htype).bind fun _ ↦ noMismatch_pure _
    · exact (noMismatch_typeOf (h.part (by simp [Node.parts])) htype).bind fun _ ↦
        (hexpr (by simp) hvalue _).bind fun _ ↦ noMismatch_pure _
  case assignment =>
    obtain ⟨target, _, rfl, htarget, op, _, rfl, hop, value, _, rfl, hvalue, _, _, rfl, -, rfl⟩ :=
      hparts
    have hstands : target.Stands language source := h.part (by simp [Node.parts])
    have htargets := parts_of_stands hstands
    rw [htarget] at htargets
    obtain ⟨_, hcons, hsteps⟩ := htargets
    obtain ⟨root, path, hpath, -, rfl⟩ := List.map_eq_cons_iff.1 hcons
    obtain ⟨_, _, _, targets⟩ := target
    obtain rfl : targets = root :: path := hpath
    have hsteps' : ∀ step ∈ path, step.symbol.isStep = true ∧ step.Stands language source :=
      fun step hmem ↦ ⟨List.forall_mem_map.1 hsteps step hmem,
        hstands.part (List.mem_cons_of_mem _ hmem)⟩
    obtain ⟨op', hop'⟩ := exists_assignOp (h.part (by simp [Node.parts])) hop
    refine (noMismatch_pathOf _ hsteps').bind fun _ ↦ ?_
    simp only [hop']
    exact (hexpr (by simp) hvalue _).bind fun _ ↦ noMismatch_pure _

/-- Every node of a statement is one that a statement is built of. -/
theorem buildable_of_statement (h : node.Stands language source)
    (hsymbol : node.symbol.isStatement = true) : Buildable stmtOf node := by
  induction h with
  | token hrule hlexeme hle hstop =>
    exact buildable_stmtOf (.token hrule hlexeme hle hstop) hsymbol nofun
  | phrase hrule hshape hle hstop hparts hinside ih =>
    exact buildable_stmtOf (.phrase hrule hshape hle hstop hparts hinside) hsymbol ih

theorem noMismatch_programOf
    (h : ∀ node ∈ nodes, node.symbol.isProgramPart = true ∧ node.Stands language source) :
    NoMismatch (programOf nodes) := by
  induction nodes with
  | nil => exact noMismatch_pure _
  | cons node rest ih =>
    obtain ⟨⟨hsymbol, hnode⟩, hrest⟩ := List.forall_mem_cons.1 h
    have hparts := parts_of_stands hnode
    have hstatement := buildable_of_statement hnode
    obtain ⟨symbol, span, text, parts⟩ := node
    rcases Symbol.eq_of_isProgramPart hsymbol with hkind | rfl | rfl
    · have hending : symbol ≠ .ending := by
        rintro rfl
        cases hkind
      have htail : symbol ≠ .tailExpr := by
        rintro rfl
        cases hkind
      rw [programOf]
      · exact (hstatement hkind 0).bind fun _ ↦ (ih hrest).bind fun _ ↦ noMismatch_pure _
      · rintro _ _ _ ⟨⟩
        exact hending rfl
      · rintro _ _ _ ⟨⟩
        exact htail rfl
    · obtain ⟨value, rfl, hvalue⟩ := List.map_eq_singleton_iff.1 hparts
      have hvalue' := buildable_expr (hnode.part (List.mem_singleton_self _)) hvalue
      rw [programOf]
      exact (hvalue' 0).bind fun _ ↦ (ih hrest).bind fun _ ↦ noMismatch_pure _
    · rw [programOf]
      exact ih hrest

end Statements

/-! ### Texts -/

section Texts

variable {source : String}

/-- A text in which the rule for programs is found. -/
def Matches (source : String) : Prop :=
  (language.run true language.top (.call .program) source.toList 0 .none).1.isSome = true

/-- A text that does not match is refused for it, if it is not too deep to be looked at. -/
theorem parse_of_not_matches (h : ¬Matches source) :
    ∃ c, parse source = .error c ∧ c.problem.id ∈ ["SC1001", "SC8078"] := by
  rcases checkNesting_cases source.toList with hguard | ⟨c, hguard, hproblem⟩
  · have hnone : language.run true language.top (.call .program) source.toList 0 .none =
        (none, _) := Prod.ext (Option.not_isSome_iff_eq_none.1 h) rfl
    obtain ⟨tried, hparse⟩ : ∃ tried, language.parse .program source.toList = .error tried :=
      ⟨_, by rw [Language.parse, hnone]⟩
    refine ⟨_, parse_of_attempts hguard hparse, ?_⟩
    rw [syntaxProblem_id]
    decide
  · exact ⟨c, parse_of_checkNesting hguard, by rw [hproblem]; decide⟩

/-- What is built of a node for a whole program. -/
theorem noMismatch_of_parse {node : Node Symbol}
    (h : language.parse .program source.toList = .ok node) : NoMismatch (programOf node.parts) := by
  obtain ⟨hstands, hsymbol⟩ := language_bounded.stands_parse h
  have hparts := parts_of_stands hstands
  rw [hsymbol] at hparts
  exact noMismatch_programOf fun part hmem ↦
    ⟨List.forall_mem_map.1 hparts part hmem, hstands.part hmem⟩

/-- A text that matches the grammar is parsed, or it is too deep, has an integer that is too large,
or has an unknown escape. There is a node for it, and no part of that node is missing or unexpected
where a program is built of it, whether or not the text has too many brackets. -/
theorem parse_of_matches (h : Matches source) :
    (∃ node, language.parse .program source.toList = .ok node ∧
      ∀ c, programOf node.parts = .error c → c.problem ≠ .malformed) ∧
    ((∃ program, parse source = .ok program) ∨
      ∃ c, parse source = .error c ∧ c.diagnostic.id ∈ ["SC8078", "SC1021", "SC1009"]) := by
  obtain ⟨node, hnode⟩ := language_bounded.exists_parse h
  have hprogram := noMismatch_of_parse hnode
  have hparse : NoMismatch (parse source) := by
    rcases checkNesting_cases source.toList with hguard | ⟨c, hguard, hproblem⟩
    · rwa [parse_of_node hguard hnode]
    · rw [parse_of_checkNesting hguard]
      exact noMismatch_throw (by rw [hproblem]; rfl)
  refine ⟨⟨node, hnode, fun c hc hmalformed ↦ ?_⟩, ?_⟩
  · have hresidual := hprogram c hc
    rw [hmalformed] at hresidual
    cases hresidual
  · cases hp : parse source with
    | ok program => exact .inl ⟨program, rfl⟩
    | error c => exact .inr ⟨c, rfl, Problem.id_mem_of_isResidual (hparse c hp)⟩

/-- A text that matches the grammar although there is no integer for its digits. -/
theorem parse_of_matches_tooLarge :
    Matches "9223372036854775808" ∧
    ((∃ program, parse "9223372036854775808" = .ok program) ∨
      ∃ c, parse "9223372036854775808" = .error c ∧
        c.diagnostic.id ∈ ["SC8078", "SC1021", "SC1009"]) := by
  have hnumber : Number "9223372036854775808".toList [] :=
    ⟨by decide, List.all_eq_true.1 (by decide), by simp, by simp⟩
  have hmarks : Ahead '-' 0 "9223372036854775808".toList ("9223372036854775808".toList ++ []) := by
    have hdone : Ahead '-' 0 ("9223372036854775808".toList ++ []) _ := .done
    rwa [hnumber.skip_eq, List.append_nil] at hdone
  have hguard : checkNesting "9223372036854775808".toList = .ok () :=
    checkNesting_eq_ok_iff.2 (by decide +kernel)
  have hverdict : verdict "9223372036854775808" = .error "SC1021" :=
    verdict_signed_of_le hguard hnumber ends_nil hmarks (by omega) (by decide +kernel) (by omega)
  have hmatches : Matches "9223372036854775808" := by
    by_contra hnone
    obtain ⟨c, hparse, hid⟩ := parse_of_not_matches hnone
    rw [verdict_of_parse_error hparse] at hverdict
    rw [Except.error.inj hverdict] at hid
    exact absurd hid (by decide)
  exact ⟨hmatches, (parse_of_matches hmatches).2⟩

end Texts

end Snippet.Script
