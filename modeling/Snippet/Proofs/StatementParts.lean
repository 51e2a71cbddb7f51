import Snippet.Proofs.MatchedTexts

/-!
# The parts of a statement

A statement is built by the shape of its node, in which every part has its place. Keywords and
terminators carry nothing: with these left out, a statement can as well be built of the parts that
remain, each of them taken when it is asked for (`Taking.stmt`). On the nodes that stand in a text
the two agree (`stmtOf_eq_taken`), and a program does not change either when what ends it is left
out (`programOf_contentOf`).
-/

namespace Snippet.Script

open Grammar

/-- What remains of the parts of a node without keywords and terminators. -/
def contentOf (parts : List (Node Symbol)) : List (Node Symbol) :=
  parts.filter fun part ↦ !part.symbol.isPunctuation

/-! ### Taking parts -/

/-- What takes the parts of a node one after the other. -/
abbrev Taking := StateT (List (Node Symbol)) (Except Complaint)

namespace Taking

/-- The next part, if there is one. -/
def next? : Taking (Option (Node Symbol)) := do
  let parts ← get
  set parts.tail
  return parts.head?

/-- The next part of a node at a span, which is malformed without it. -/
def next (span : Span) : Taking (Node Symbol) := do
  match ← next? with
  | some part => return part
  | none => throw ⟨.malformed, span⟩

section Next

variable {part : Node Symbol} {parts : List (Node Symbol)}

@[simp]
theorem run_next?_nil : next?.run [] = pure (none, []) :=
  rfl

@[simp]
theorem run_next?_cons : next?.run (part :: parts) = pure (some part, parts) :=
  rfl

@[simp]
theorem run_next_cons (span : Span) : (next span).run (part :: parts) = pure (part, parts) :=
  rfl

end Next

/-- The name that is assigned to, and the path behind it. -/
def targetOf (depth : Nat) (node : Node Symbol) : Except Complaint (Ident × List Accessor) :=
  match node.parts with
  | root :: path => return (identOf root, ← pathOf (depth + 1) path)
  | [] => throw ⟨.malformed, nodeSpan node⟩

/-- The operator of an assignment. -/
def assignOpOf (node : Node Symbol) : Except Complaint AssignOp :=
  match AssignOp.ofSymbol? (nodeText node) with
  | some op => return op
  | none => throw ⟨.malformed, nodeSpan node⟩

/-- A statement from the parts of its node. -/
def stmt (depth : Nat) (span : Span) : Symbol → Taking Stmt
  | .block => do return .block span (← stmtsOf (depth + 1) (← get))
  | .ifStmt => do
    let cond ← exprOf (depth + 1) (← next span)
    let yes ← stmtOf (depth + 1) (← next span)
    match ← next? with
    | some no => return .ifElse span cond yes (some (← stmtOf (depth + 1) no))
    | none => return .ifElse span cond yes none
  | .whileStmt => do
    let cond ← exprOf (depth + 1) (← next span)
    let body ← stmtOf (depth + 1) (← next span)
    return .whileLoop span cond body
  | .foreachStmt => do
    let type ← typeOf (← next span)
    let binding := identOf (← next span)
    let items ← exprOf (depth + 1) (← next span)
    let body ← stmtOf (depth + 1) (← next span)
    return .forEach span type binding items body
  | .returnStmt => do
    match ← next? with
    | some value => return .returnWith span (some (← exprOf (depth + 1) value))
    | none => return .returnWith span none
  | .throwStmt => do return .throwWith span (← exprOf (depth + 1) (← next span))
  | .breakStmt => return .breakLoop span
  | .continueStmt => return .continueLoop span
  | .emptyStmt => return .empty span
  | .declaration => do
    let type ← typeOf (← next span)
    let name := identOf (← next span)
    match ← next? with
    | some value => return .declare span type name (some (← exprOf (depth + 1) value))
    | none => return .declare span type name none
  | .assignment => do
    let (root, path) ← targetOf (depth + 1) (← next span)
    let op ← assignOpOf (← next span)
    let value ← exprOf (depth + 1) (← next span)
    return .assign span root path op value
  | .exprStmt => do return .expression span (← exprOf (depth + 1) (← next span))
  | _ => throw ⟨.malformed, span⟩

end Taking

/-! ### What is built of the parts -/

theorem isPunctuation_eq_false {symbol : Symbol} (h : symbol.isStatement = true) :
    symbol.isPunctuation = false := by
  cases symbol <;> cases h <;> rfl

section Content

variable {parts : List (Node Symbol)}

theorem contentOf_of_isStatement (h : ∀ s ∈ parts.map Node.symbol, s.isStatement = true) :
    contentOf parts = parts := by
  refine List.filter_eq_self.2 fun part hpart ↦ ?_
  rw [isPunctuation_eq_false (h _ (List.mem_map_of_mem hpart))]
  rfl

/-- A statement is built of the parts of its node in their order, without its keywords and its
terminator. -/
theorem stmtOf_eq_taken {source : List Char} {node : Node Symbol}
    (h : node.Stands language source) (hsymbol : node.symbol.isStatement = true) (depth : Nat) :
    stmtOf depth node = (do
      checkDepth depth (nodeSpan node)
      (Taking.stmt depth (nodeSpan node) node.symbol).run' (contentOf node.parts)) := by
  obtain ⟨symbol, ⟨start, stop⟩, text, parts⟩ := node
  have hparts : symbol.Parts (parts.map Node.symbol) := parts_of_stands h
  rw [stmtOf.eq_def]
  refine bind_congr fun _ ↦ ?_
  change _ = (Taking.stmt depth ⟨start, stop⟩ symbol).run' (contentOf parts)
  -- first what is left of the parts, then what is taken of them
  cases symbol <;> cases hsymbol <;>
    simp only [Symbol.Parts, List.map_eq_cons_iff, List.map_eq_nil_iff] at hparts
  case block =>
    rw [contentOf_of_isStatement hparts]
    simp [Taking.stmt, StateT.run'_eq]
  case ifStmt =>
    obtain ⟨_, hyes, hparts | ⟨_, hno, hparts⟩⟩ := hparts
    · obtain ⟨_, _, rfl, hif, cond, _, rfl, hcond, yes, _, rfl, rfl, rfl⟩ := hparts
      simp only [contentOf, List.filter, hif, hcond, isPunctuation_eq_false hyes]
      simp [Symbol.isPunctuation, Taking.stmt, StateT.run'_eq]
    · obtain ⟨_, _, rfl, hif, cond, _, rfl, hcond, yes, _, rfl, rfl, _, _, rfl, helse, no, _, rfl,
        rfl, rfl⟩ := hparts
      simp only [contentOf, List.filter, hif, helse, hcond, isPunctuation_eq_false hyes,
        isPunctuation_eq_false hno]
      simp [Symbol.isPunctuation, Taking.stmt, StateT.run'_eq]
  case whileStmt =>
    obtain ⟨_, hbody, _, _, rfl, hwhile, cond, _, rfl, hcond, body, _, rfl, rfl, rfl⟩ := hparts
    simp only [contentOf, List.filter, hwhile, hcond, isPunctuation_eq_false hbody]
    simp [Symbol.isPunctuation, Taking.stmt, StateT.run'_eq]
  case foreachStmt =>
    obtain ⟨_, hbody, _, _, rfl, hforeach, type, _, rfl, htype, name, _, rfl, hname, _, _, rfl, hin,
      items, _, rfl, hitems, body, _, rfl, rfl, rfl⟩ := hparts
    simp only [contentOf, List.filter, hforeach, htype, hname, hin, hitems,
      isPunctuation_eq_false hbody]
    simp [Symbol.isPunctuation, Taking.stmt, StateT.run'_eq]
  case returnStmt =>
    rcases hparts with ⟨_, _, rfl, hreturn, _, _, rfl, hsemi, rfl⟩ |
      ⟨_, _, rfl, hreturn, value, _, rfl, hvalue, _, _, rfl, hsemi, rfl⟩
    · simp only [contentOf, List.filter, hreturn, hsemi]
      simp [Symbol.isPunctuation, Taking.stmt, StateT.run'_eq]
    · simp only [contentOf, List.filter, hreturn, hsemi, hvalue]
      simp [Symbol.isPunctuation, Taking.stmt, StateT.run'_eq]
  case throwStmt =>
    obtain ⟨_, _, rfl, hthrow, value, _, rfl, hvalue, _, _, rfl, hsemi, rfl⟩ := hparts
    simp only [contentOf, List.filter, hthrow, hsemi, hvalue]
    simp [Symbol.isPunctuation, Taking.stmt, StateT.run'_eq]
  case exprStmt =>
    obtain ⟨value, _, rfl, hvalue, _, _, rfl, hsemi, rfl⟩ := hparts
    simp only [contentOf, List.filter, hsemi, hvalue]
    simp [Symbol.isPunctuation, Taking.stmt, StateT.run'_eq]
  case breakStmt | continueStmt | emptyStmt => rfl
  case declaration =>
    rcases hparts with ⟨type, _, rfl, htype, name, _, rfl, hname, _, _, rfl, hsemi, rfl⟩ |
      ⟨type, _, rfl, htype, name, _, rfl, hname, value, _, rfl, hvalue, _, _, rfl, hsemi, rfl⟩
    · simp only [contentOf, List.filter, htype, hname, hsemi]
      simp [Symbol.isPunctuation, Taking.stmt, StateT.run'_eq]
    · simp only [contentOf, List.filter, htype, hname, hvalue, hsemi]
      simp [Symbol.isPunctuation, Taking.stmt, StateT.run'_eq]
  case assignment =>
    obtain ⟨target, _, rfl, htarget, op, _, rfl, hop, value, _, rfl, hvalue, _, _, rfl, hsemi,
      rfl⟩ := hparts
    have htargets := parts_of_stands (h.part (List.mem_cons_self ..))
    rw [htarget] at htargets
    obtain ⟨_, hcons, -⟩ := htargets
    obtain ⟨root, path, hpath, -, -⟩ := List.map_eq_cons_iff.1 hcons
    obtain ⟨_, _, _, targets⟩ := target
    obtain rfl : targets = root :: path := hpath
    obtain ⟨assign, hassign⟩ := exists_assignOp (h.part (by simp [Node.parts])) hop
    simp only [contentOf, List.filter, htarget, hop, hvalue, hsemi]
    simp [Symbol.isPunctuation, Taking.stmt, StateT.run'_eq, Taking.targetOf, Taking.assignOpOf,
      Node.parts, hassign]

theorem programOf_cons_congr {part : Node Symbol} {rest rest' : List (Node Symbol)}
    (h : programOf rest = programOf rest') :
    programOf (part :: rest) = programOf (part :: rest') := by
  obtain ⟨symbol, span, text, parts⟩ := part
  by_cases hending : symbol = .ending
  · rw [hending, programOf, programOf, h]
  by_cases htail : symbol = .tailExpr ∧ ∃ value, parts = [value]
  · obtain ⟨rfl, value, rfl⟩ := htail
    rw [programOf, programOf, h]
  · have hnotTail : ∀ span' text' value,
        Node.mk symbol span text parts = Node.mk .tailExpr span' text' [value] → False := by
      rintro _ _ value ⟨⟩
      exact htail ⟨rfl, value, rfl⟩
    have hnotEnding : ∀ span' text' parts',
        Node.mk symbol span text parts = Node.mk .ending span' text' parts' → False := by
      rintro _ _ _ ⟨⟩
      exact hending rfl
    rw [programOf, programOf, h] <;> assumption

/-- A program is built of its statements and of the expression behind them. -/
theorem programOf_contentOf (h : ∀ part ∈ parts, part.symbol.isProgramPart = true) :
    programOf (contentOf parts) = programOf parts := by
  induction parts with
  | nil => rfl
  | cons part rest ih =>
    obtain ⟨hpart, hrest⟩ := List.forall_mem_cons.1 h
    obtain ⟨symbol, span, text, parts⟩ := part
    rcases Symbol.eq_of_isProgramPart hpart with hsymbol | rfl | rfl
    · have hkept : contentOf (.mk symbol span text parts :: rest) =
          .mk symbol span text parts :: contentOf rest :=
        List.filter_cons_of_pos (by
          rw [Bool.not_eq_true']
          exact isPunctuation_eq_false hsymbol)
      rw [hkept]
      exact programOf_cons_congr (ih hrest)
    · exact programOf_cons_congr (ih hrest)
    · rw [programOf]
      exact ih hrest

end Content

end Snippet.Script
