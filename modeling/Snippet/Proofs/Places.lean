import Snippet.Proofs.Derivation
import Snippet.Script.Parse

/-!
# Trees up to places

Two texts that hold the same tokens at different places have the same syntax tree but for its
spans. This module forgets the spans: of trees (`Expr.bare`, `Stmt.bare`, `Program.bare`) and of
the answers that are trees or complaints (`outline`). Building a tree from matched nodes depends
on the places of the nodes only in what is forgotten (`outline_exprOf`, `outline_stmtOf`,
`outline_programOf`).
-/

namespace Snippet.Script

open Grammar

/-! ### Forgetting spans -/

/-- The span in place of the forgotten ones. -/
def noSpan : Span :=
  ⟨0, 0⟩

/-- The identifier without its place. -/
def Ident.bare (i : Ident) : Ident :=
  ⟨i.name, noSpan⟩

mutual

/-- The expression without its places. -/
def Expr.bare : Expr → Expr
  | .literal _ value => .literal noSpan value
  | .name _ n => .name noSpan n
  | .list _ items => .list noSpan (bareAll items)
  | .map _ entries => .map noSpan (bareEntries entries)
  | .unary _ op operand => .unary noSpan op operand.bare
  | .binary _ op lhs rhs => .binary noSpan op lhs.bare rhs.bare
  | .ternary _ cond yes no => .ternary noSpan cond.bare yes.bare no.bare
  | .call _ callee args => .call noSpan callee.bare (bareAll args)
  | .index _ target i => .index noSpan target.bare i.bare
  | .member _ target field => .member noSpan target.bare field.bare

/-- The expressions without their places. -/
def Expr.bareAll : List Expr → List Expr
  | [] => []
  | e :: rest => e.bare :: bareAll rest

/-- The entries of a map without their places. -/
def Expr.bareEntries : List (Expr × Expr) → List (Expr × Expr)
  | [] => []
  | (key, value) :: rest => (key.bare, value.bare) :: bareEntries rest

end

/-- What is a name without its place is a name. -/
theorem Expr.exists_name_of_bare {e : Expr} {name : String} (h : e.bare = .name noSpan name) :
    ∃ span, e = .name span name := by
  cases e <;> rw [bare] at h
  case name =>
    injection h with _ h
    exact ⟨_, congrArg _ h⟩
  all_goals nomatch h

/-- What is a literal without its place is a literal. -/
theorem Expr.exists_literal_of_bare {e : Expr} {value : Literal}
    (h : e.bare = .literal noSpan value) : ∃ span, e = .literal span value := by
  cases e <;> rw [bare] at h
  case literal =>
    injection h with _ h
    exact ⟨_, congrArg _ h⟩
  all_goals nomatch h

/-- What has a sign without its places has that sign. -/
theorem Expr.exists_unary_of_bare {e operand : Expr} {op : UnaryOp}
    (h : e.bare = .unary noSpan op operand) :
    ∃ span operand', e = .unary span op operand' ∧ operand'.bare = operand := by
  cases e <;> rw [bare] at h
  case unary =>
    injection h with _ hop hoperand
    exact ⟨_, _, congrArg (fun op ↦ Expr.unary _ op _) hop, hoperand⟩
  all_goals nomatch h

/-- What has an operator without its places has that operator. -/
theorem Expr.exists_binary_of_bare {e lhs rhs : Expr} {op : BinaryOp}
    (h : e.bare = .binary noSpan op lhs rhs) :
    ∃ span lhs' rhs', e = .binary span op lhs' rhs' ∧ lhs'.bare = lhs ∧ rhs'.bare = rhs := by
  cases e <;> rw [bare] at h
  case binary =>
    injection h with _ hop hlhs hrhs
    exact ⟨_, _, _, congrArg (fun op ↦ Expr.binary _ op _ _) hop, hlhs, hrhs⟩
  all_goals nomatch h

/-- What is a call without its places is a call. -/
theorem Expr.exists_call_of_bare {e callee : Expr} {args : List Expr}
    (h : e.bare = .call noSpan callee args) :
    ∃ span callee' args', e = .call span callee' args' ∧ callee'.bare = callee ∧
      bareAll args' = args := by
  cases e <;> rw [bare] at h
  case call =>
    injection h with _ hcallee hargs
    exact ⟨_, _, _, rfl, hcallee, hargs⟩
  all_goals nomatch h

/-- A single expression without its place is one. -/
theorem Expr.exists_singleton_of_bareAll {es : List Expr} {e : Expr} (h : bareAll es = [e]) :
    ∃ e', es = [e'] ∧ e'.bare = e := by
  match es with
  | [] => nomatch h
  | [e'] => exact ⟨e', rfl, (List.cons.inj h).1⟩
  | _ :: _ :: _ => nomatch (List.cons.inj h).2

/-- The step of a path without its places. -/
def Accessor.bare : Accessor → Accessor
  | .index i => .index i.bare
  | .member field => .member field.bare

mutual

/-- The statement without its places. -/
def Stmt.bare : Stmt → Stmt
  | .declare _ type name init => .declare noSpan type name.bare (init.map Expr.bare)
  | .assign _ root path op value =>
    .assign noSpan root.bare (path.map Accessor.bare) op value.bare
  | .expression _ value => .expression noSpan value.bare
  | .block _ body => .block noSpan (bareAll body)
  | .ifElse _ cond yes no => .ifElse noSpan cond.bare yes.bare (bareOption no)
  | .whileLoop _ cond body => .whileLoop noSpan cond.bare body.bare
  | .forEach _ type binding items body =>
    .forEach noSpan type binding.bare items.bare body.bare
  | .returnWith _ value => .returnWith noSpan (value.map Expr.bare)
  | .throwWith _ value => .throwWith noSpan value.bare
  | .breakLoop _ => .breakLoop noSpan
  | .continueLoop _ => .continueLoop noSpan
  | .empty _ => .empty noSpan

/-- The statements without their places. -/
def Stmt.bareAll : List Stmt → List Stmt
  | [] => []
  | s :: rest => s.bare :: bareAll rest

/-- The statement, where there is one, without its places. -/
def Stmt.bareOption : Option Stmt → Option Stmt
  | none => none
  | some s => some s.bare

end

/-- The program without its places. -/
def Program.bare (p : Program) : Program :=
  ⟨Stmt.bareAll p.statements, p.tail.map Expr.bare⟩

/-- What an answer is when places are forgotten: the tree without its spans, or what is wrong. -/
def outline {α β : Type} (bare : α → β) : Except Complaint α → Except Problem β
  | .ok a => .ok (bare a)
  | .error c => .error c.problem

section Outline

variable {α β γ δ : Type} {f : α → γ} {g : β → δ}

@[simp]
theorem outline_pure (f : α → γ) (a : α) : outline f (pure a) = .ok (f a) :=
  rfl

/-- Answers agree up to places if their parts do. -/
theorem outline_bind {x y : Except Complaint α} {k l : α → Except Complaint β}
    (h : outline f x = outline f y)
    (hkl : ∀ a b, f a = f b → outline g (k a) = outline g (l b)) :
    outline g (x >>= k) = outline g (y >>= l) := by
  cases x with
  | ok a =>
    cases y with
    | ok b => exact hkl a b (Except.ok.inj h)
    | error c => cases h
  | error c =>
    cases y with
    | ok b => cases h
    | error c' => exact congrArg Except.error (Except.error.inj h)

/-- The last step of a sequence. -/
theorem outline_bind_pure {x y : Except Complaint α} {k l : α → β}
    (h : outline f x = outline f y) (hkl : ∀ a b, f a = f b → g (k a) = g (l b)) :
    outline g (x >>= fun a ↦ pure (k a)) = outline g (y >>= fun b ↦ pure (l b)) :=
  outline_bind h fun a b hab ↦ congrArg Except.ok (hkl a b hab)

end Outline

/-! ### Building from nodes without places -/

@[simp]
theorem nodeText_bare (node : Node Symbol) : nodeText node.bare = nodeText node := by
  cases node
  rfl

@[simp]
theorem bare_identOf (node : Node Symbol) : (identOf node.bare).bare = (identOf node).bare := by
  cases node
  rfl

theorem outline_checkDepth (depth : Nat) (span span' : Span) :
    outline id (checkDepth depth span) = outline id (checkDepth depth span') := by
  unfold checkDepth
  split <;> rfl

theorem outline_unescape (place place' : Nat) (s : List Char) :
    outline id (unescape place s) = outline id (unescape place' s) := by
  fun_induction unescape place s generalizing place' with
  | case1 => rfl
  | case2 place c rest e he ih =>
    rw [unescape, he]
    exact outline_bind_pure (ih (place' + 2)) fun _ _ h ↦ congrArg (e :: ·) h
  | case3 place c rest he =>
    rw [unescape, he]
    rfl
  | case4 => rfl
  | case5 place c rest h1 h2 ih =>
    rw [unescape]
    · exact outline_bind_pure (ih (place' + 1)) fun _ _ h ↦ congrArg (c :: ·) h
    · exact h1
    · exact h2

theorem outline_typeOf (node : Node Symbol) :
    outline id (typeOf node) = outline id (typeOf node.bare) := by
  unfold typeOf
  rw [nodeText_bare]
  split <;> rfl

/-- Operators in front of an operand, up to places. -/
theorem bare_applyUnary (ops ops' : List (UnaryOp × Span)) (e e' : Expr)
    (hops : ops.map Prod.fst = ops'.map Prod.fst) (he : e.bare = e'.bare) :
    (applyUnary ops e).bare = (applyUnary ops' e').bare := by
  induction ops generalizing ops' with
  | nil =>
    cases ops' with
    | nil => exact he
    | cons _ _ => cases hops
  | cons op ops ih =>
    cases ops' with
    | nil => cases hops
    | cons op' ops' =>
      obtain ⟨hop, hops⟩ := List.cons.inj hops
      have h := ih ops' hops
      simp only [applyUnary, List.foldr_cons, Expr.bare] at h ⊢
      rw [hop, h]

theorem bareAll_eq_nil_iff {nodes : List (Node Symbol)} :
    Node.bareAll nodes = [] ↔ nodes = [] := by
  cases nodes <;> simp [Node.bareAll]

theorem bareAll_eq_cons_iff {nodes rest : List (Node Symbol)} {head : Node Symbol} :
    Node.bareAll nodes = head :: rest ↔
      ∃ n ns, nodes = n :: ns ∧ n.bare = head ∧ Node.bareAll ns = rest := by
  cases nodes with
  | nil => simp [Node.bareAll]
  | cons n ns => simp [Node.bareAll, and_assoc]

/-- A node whose bare form has one part has one part. -/
theorem eq_of_bare_eq_single {node part : Node Symbol} {symbol : Symbol} {span : Nat × Nat}
    {text : List Char} (h : node.bare = .mk symbol span text [part]) :
    ∃ span' part', node = .mk symbol span' text [part'] := by
  obtain ⟨symbol', span', text', parts⟩ := node
  simp only [Node.bare, Node.mk.injEq] at h
  obtain ⟨rfl, -, rfl, h⟩ := h
  obtain ⟨part', _, rfl, -, h⟩ := bareAll_eq_cons_iff.1 h
  exact ⟨span', part', by rw [bareAll_eq_nil_iff.1 h]⟩

/-- A node whose bare form has parts has parts. -/
theorem eq_of_bare_eq_cons {node part : Node Symbol} {parts : List (Node Symbol)} {symbol : Symbol}
    {span : Nat × Nat} {text : List Char} (h : node.bare = .mk symbol span text (part :: parts)) :
    ∃ span' part' parts', node = .mk symbol span' text (part' :: parts') := by
  obtain ⟨symbol', span', text', nodes⟩ := node
  simp only [Node.bare, Node.mk.injEq] at h
  obtain ⟨rfl, -, rfl, h⟩ := h
  obtain ⟨part', parts', rfl, -, -⟩ := bareAll_eq_cons_iff.1 h
  exact ⟨span', part', parts', rfl⟩

theorem mostNegative?_bare (minus minus' : Option (UnaryOp × Span)) (node : Node Symbol)
    (h : minus.map Prod.fst = minus'.map Prod.fst) :
    (mostNegative? minus node).map Expr.bare = (mostNegative? minus' node.bare).map Expr.bare := by
  unfold mostNegative?
  split
  · simp only [Node.bare, Node.bareAll]
    rcases minus with - | ⟨op, place⟩
    · rw [Option.map_eq_none_iff.1 h.symm]
    · obtain ⟨⟨op', place'⟩, rfl, hop⟩ := Option.map_eq_some_iff.1 h.symm
      cases hop
      cases op
      · rfl
      · dsimp only
        split <;> rfl
  · next hshape =>
    split
    · next heq =>
      obtain ⟨_, ⟨_, _, _, _⟩, rfl⟩ := eq_of_bare_eq_single heq
      cases heq
      exact (hshape _ _ _ _ _ _ rfl).elim
    · rfl

mutual

theorem outline_exprOf (depth : Nat) (node : Node Symbol) :
    outline Expr.bare (exprOf depth node) = outline Expr.bare (exprOf depth node.bare) := by
  obtain ⟨symbol, ⟨start, stop⟩, text, parts⟩ := node
  rw [exprOf.eq_def, Node.bare, exprOf.eq_def]
  dsimp only
  refine outline_bind (outline_checkDepth depth _ _) fun _ _ _ ↦ ?_
  split
  case h_19 =>
    -- parts and their bare forms are equally many, so that both are malformed or neither is
    split
    case h_19 => rfl
    case h_2 =>
      obtain ⟨_, _, rfl, -, h⟩ := bareAll_eq_cons_iff.1 ‹Node.bareAll parts = [_, _, _]›
      obtain ⟨_, _, rfl, -, h⟩ := bareAll_eq_cons_iff.1 h
      obtain ⟨_, _, rfl, -, h⟩ := bareAll_eq_cons_iff.1 h
      simp_all [bareAll_eq_nil_iff]
    all_goals simp_all [bareAll_eq_cons_iff, bareAll_eq_nil_iff]
  case h_1 head => exact outline_exprOf (depth + 1) head
  case h_2 head yes no =>
    refine outline_bind (outline_exprOf (depth + 1) head) fun c c' hc ↦ ?_
    refine outline_bind (outline_exprOf (depth + 1) yes) fun y y' hy ↦ ?_
    refine outline_bind (outline_exprOf (depth + 1) no) fun n n' hn ↦ ?_
    simp only [outline_pure, Expr.bare, hc, hy, hn]
  case h_9 => exact outline_unaryOf _ _ depth [] [] rfl parts
  case h_10 head rest =>
    refine outline_bind (outline_exprOf (depth + 1) head) fun t t' ht ↦ ?_
    exact outline_suffixesOf _ _ depth t t' ht rest
  case h_11 | h_12 =>
    split <;> rfl
  case h_13 =>
    split
    · refine outline_bind (outline_unescape _ _ _) fun b b' hb ↦ ?_
      cases hb
      rfl
    · rfl
  case h_14 => rfl
  case h_15 => rfl
  case h_16 => rfl
  case h_17 items =>
    refine outline_bind (outline_exprsOf (depth + 1) parts) fun t t' ht ↦ ?_
    simp only [outline_pure, Expr.bare, ht]
  case h_18 entries =>
    refine outline_bind (outline_entriesOf (depth + 1) parts) fun t t' ht ↦ ?_
    simp only [outline_pure, Expr.bare, ht]
  -- the six levels of binary operators
  case h_3 head rest | h_4 head rest | h_5 head rest | h_6 head rest | h_7 head rest
      | h_8 head rest =>
    refine outline_bind (outline_exprOf (depth + 1) head) fun t t' ht ↦ ?_
    exact outline_chainOf _ _ depth t t' ht rest
termination_by sizeOf node

theorem outline_exprsOf (depth : Nat) (nodes : List (Node Symbol)) :
    outline Expr.bareAll (exprsOf depth nodes) =
      outline Expr.bareAll (exprsOf depth (Node.bareAll nodes)) := by
  cases nodes with
  | nil => rfl
  | cons node rest =>
    rw [exprsOf, Node.bareAll, exprsOf]
    refine outline_bind (outline_exprOf depth node) fun e e' he ↦ ?_
    refine outline_bind (outline_exprsOf depth rest) fun es es' hes ↦ ?_
    simp only [outline_pure, Expr.bareAll, he, hes]
termination_by sizeOf nodes

theorem outline_entriesOf (depth : Nat) (nodes : List (Node Symbol)) :
    outline Expr.bareEntries (entriesOf depth nodes) =
      outline Expr.bareEntries (entriesOf depth (Node.bareAll nodes)) := by
  cases nodes with
  | nil => rfl
  | cons node rest =>
    obtain ⟨symbol, span, text, parts⟩ := node
    rw [Node.bareAll, Node.bare]
    match parts with
    | [key, value] =>
      simp only [entriesOf, Node.bareAll]
      refine outline_bind (outline_exprOf depth key) fun k k' hk ↦ ?_
      refine outline_bind (outline_exprOf depth value) fun v v' hv ↦ ?_
      refine outline_bind (outline_entriesOf depth rest) fun es es' hes ↦ ?_
      simp only [outline_pure, Expr.bareEntries, hk, hv, hes]
    | [] | [_] | _ :: _ :: _ :: _ => rfl
termination_by sizeOf nodes

theorem outline_chainOf (span span' : Span) (depth : Nat) (lhs lhs' : Expr)
    (hlhs : lhs.bare = lhs'.bare) (nodes : List (Node Symbol)) :
    outline Expr.bare (chainOf span depth lhs nodes) =
      outline Expr.bare (chainOf span' depth lhs' (Node.bareAll nodes)) := by
  match nodes with
  | [] => exact congrArg Except.ok hlhs
  | [_] => rfl
  | op :: operand :: rest =>
    simp only [chainOf, Node.bareAll, nodeText_bare]
    refine outline_bind (outline_checkDepth _ _ _) fun _ _ _ ↦ ?_
    split
    · rfl
    · refine outline_bind (outline_exprOf (depth + 2) operand) fun rhs rhs' hrhs ↦ ?_
      exact outline_chainOf _ _ (depth + 1) _ _ (by simp only [Expr.bare, hlhs, hrhs]) rest
termination_by sizeOf nodes

theorem outline_unaryOf (span span' : Span) (depth : Nat) (ops ops' : List (UnaryOp × Span))
    (hops : ops.map Prod.fst = ops'.map Prod.fst) (nodes : List (Node Symbol)) :
    outline Expr.bare (unaryOf span depth ops nodes) =
      outline Expr.bare (unaryOf span' depth ops' (Node.bareAll nodes)) := by
  have hlength : ops.length = ops'.length := by simpa using congrArg List.length hops
  match nodes with
  | [] => rfl
  | [operand] =>
    simp only [unaryOf, Node.bareAll]
    have hminus := mostNegative?_bare ops.getLast? ops'.getLast? operand
      (by simp only [← List.getLast?_map, hops])
    rcases hm : mostNegative? ops.getLast? operand with - | literal
    · rw [hm] at hminus
      rw [Option.map_eq_none_iff.1 hminus.symm, hlength]
      refine outline_bind (outline_exprOf _ operand) fun e e' he ↦ ?_
      refine outline_bind (outline_checkDepth _ _ _) fun _ _ _ ↦ ?_
      exact congrArg Except.ok (bare_applyUnary ops ops' e e' hops he)
    · rw [hm] at hminus
      obtain ⟨literal', hm', hliteral⟩ := Option.map_eq_some_iff.1 hminus.symm
      rw [hm', hlength]
      refine outline_bind (outline_checkDepth _ _ _) fun _ _ _ ↦ ?_
      refine congrArg Except.ok (bare_applyUnary _ _ _ _ ?_ hliteral.symm)
      rw [List.map_dropLast, List.map_dropLast, hops]
  | op :: op' :: rest =>
    have htext : op.bare.text = op.text := by cases op; rfl
    have hnodes : unaryOf span' depth ops' (Node.bareAll (op :: op' :: rest)) =
        unaryOf span' depth (ops' ++ [(if op.text == ['!'] then .not else .neg, nodeSpan op.bare)])
          (Node.bareAll (op' :: rest)) := by
      rw [← htext]
      rfl
    rw [hnodes]
    exact outline_unaryOf span span' depth _ _ (by simp [hops]) (op' :: rest)
termination_by sizeOf nodes

theorem outline_suffixesOf (span span' : Span) (depth : Nat) (target target' : Expr)
    (ht : target.bare = target'.bare) (nodes : List (Node Symbol)) :
    outline Expr.bare (suffixesOf span depth target nodes) =
      outline Expr.bare (suffixesOf span' depth target' (Node.bareAll nodes)) := by
  match nodes with
  | [] => exact congrArg Except.ok ht
  | .mk symbol (start, stop) text parts :: rest =>
    rw [suffixesOf.eq_def, Node.bareAll, Node.bare, suffixesOf.eq_def]
    dsimp only
    refine outline_bind (outline_checkDepth _ _ _) fun _ _ _ ↦ ?_
    split
    · refine outline_bind (outline_exprsOf _ parts) fun as as' has ↦ ?_
      exact outline_suffixesOf _ _ (depth + 1) _ _ (by simp only [Expr.bare, ht, has]) rest
    · next index =>
      refine outline_bind (outline_exprOf _ index) fun i i' hi ↦ ?_
      exact outline_suffixesOf _ _ (depth + 1) _ _ (by simp only [Expr.bare, ht, hi]) rest
    · next field =>
      exact outline_suffixesOf _ _ (depth + 1) _ _
        (by simp only [Expr.bare, ht, bare_identOf]) rest
    · split
      case h_4 => rfl
      all_goals simp_all [bareAll_eq_cons_iff, bareAll_eq_nil_iff]
termination_by sizeOf nodes

end

theorem outline_pathOf (depth : Nat) (nodes : List (Node Symbol)) :
    outline (List.map Accessor.bare) (pathOf depth nodes) =
      outline (List.map Accessor.bare) (pathOf depth (Node.bareAll nodes)) := by
  induction nodes with
  | nil => rfl
  | cons node rest ih =>
    rw [Node.bareAll, pathOf.eq_def, pathOf.eq_def]
    dsimp only
    have hstep {x y : Except Complaint Accessor}
        (h : outline Accessor.bare x = outline Accessor.bare y) :
        outline (List.map Accessor.bare) (do return (← x) :: (← pathOf depth rest)) =
          outline (List.map Accessor.bare)
            (do return (← y) :: (← pathOf depth (Node.bareAll rest))) :=
      outline_bind h fun a a' ha ↦ outline_bind_pure ih fun as as' has ↦ by
        simp only [List.map_cons, ha, has]
    split
    · next index =>
      exact hstep (outline_bind_pure (outline_exprOf depth index) fun _ _ ↦ congrArg Accessor.index)
    · next field =>
      refine hstep ?_
      simp only [outline_pure, Accessor.bare, bare_identOf]
    · split
      case h_3 => rfl
      all_goals
        obtain ⟨_, _, rfl⟩ := eq_of_bare_eq_single ‹node.bare = .mk _ _ _ [_]›
        simp_all

mutual

theorem outline_stmtOf (depth : Nat) (node : Node Symbol) :
    outline Stmt.bare (stmtOf depth node) = outline Stmt.bare (stmtOf depth node.bare) := by
  obtain ⟨symbol, ⟨start, stop⟩, text, parts⟩ := node
  rw [stmtOf.eq_def, Node.bare, stmtOf.eq_def]
  dsimp only
  refine outline_bind (outline_checkDepth depth _ _) fun _ _ _ ↦ ?_
  split
  case h_16 =>
    -- as with expressions, what is malformed stays so
    split
    case h_16 => rfl
    case h_14 hshape _ =>
      obtain ⟨target, _, rfl, htarget, h⟩ :=
        bareAll_eq_cons_iff.1 ‹Node.bareAll parts = [.mk _ _ _ (_ :: _), _, _, _]›
      obtain ⟨_, _, _, rfl⟩ := eq_of_bare_eq_cons htarget
      simp only [bareAll_eq_cons_iff, bareAll_eq_nil_iff] at h
      obtain ⟨_, _, rfl, -, _, _, rfl, -, _, _, rfl, -, rfl⟩ := h
      exact (hshape _ _ _ _ _ _ _ _ rfl rfl).elim
    all_goals simp only [bareAll_eq_cons_iff, bareAll_eq_nil_iff] at *
    all_goals grind
  case h_1 =>
    exact outline_bind_pure (outline_stmtsOf (depth + 1) parts) fun _ _ h ↦ by
      simp only [Stmt.bare, h]
  case h_2 cond yes =>
    refine outline_bind (outline_exprOf (depth + 1) cond) fun c c' hc ↦ ?_
    exact outline_bind_pure (outline_stmtOf (depth + 1) yes) fun _ _ hy ↦ by
      simp only [Stmt.bare, Stmt.bareOption, hc, hy]
  case h_3 cond yes _ no =>
    refine outline_bind (outline_exprOf (depth + 1) cond) fun c c' hc ↦ ?_
    refine outline_bind (outline_stmtOf (depth + 1) yes) fun y y' hy ↦ ?_
    exact outline_bind_pure (outline_stmtOf (depth + 1) no) fun _ _ hn ↦ by
      simp only [Stmt.bare, Stmt.bareOption, hc, hy, hn]
  case h_4 cond body =>
    refine outline_bind (outline_exprOf (depth + 1) cond) fun c c' hc ↦ ?_
    exact outline_bind_pure (outline_stmtOf (depth + 1) body) fun _ _ hb ↦ by
      simp only [Stmt.bare, hc, hb]
  case h_5 type binding _ items body =>
    refine outline_bind (outline_typeOf type) fun t t' ht ↦ ?_
    refine outline_bind (outline_exprOf (depth + 1) items) fun i i' hi ↦ ?_
    exact outline_bind_pure (outline_stmtOf (depth + 1) body) fun _ _ hb ↦ by
      cases ht
      simp only [Stmt.bare, bare_identOf, hi, hb]
  case h_7 value _ =>
    exact outline_bind_pure (outline_exprOf (depth + 1) value) fun _ _ h ↦ by
      simp only [Stmt.bare, Option.map_some, h]
  case h_8 value _ =>
    exact outline_bind_pure (outline_exprOf (depth + 1) value) fun _ _ h ↦ by
      simp only [Stmt.bare, h]
  case h_12 type name _ =>
    exact outline_bind_pure (outline_typeOf type) fun _ _ h ↦ by
      cases h
      simp only [Stmt.bare, bare_identOf, Option.map_none]
  case h_13 type name value _ =>
    refine outline_bind (outline_typeOf type) fun t t' ht ↦ ?_
    exact outline_bind_pure (outline_exprOf (depth + 1) value) fun _ _ h ↦ by
      cases ht
      simp only [Stmt.bare, bare_identOf, Option.map_some, h]
  case h_14 root path op value _ =>
    refine outline_bind (outline_pathOf (depth + 2) path) fun p p' hp ↦ ?_
    rw [nodeText_bare]
    split
    · rfl
    · exact outline_bind_pure (outline_exprOf (depth + 1) value) fun _ _ h ↦ by
        simp only [Stmt.bare, bare_identOf, hp, h]
  case h_15 value _ =>
    exact outline_bind_pure (outline_exprOf (depth + 1) value) fun _ _ h ↦ by
      simp only [Stmt.bare, h]
  all_goals rfl
termination_by sizeOf node

theorem outline_stmtsOf (depth : Nat) (nodes : List (Node Symbol)) :
    outline Stmt.bareAll (stmtsOf depth nodes) =
      outline Stmt.bareAll (stmtsOf depth (Node.bareAll nodes)) := by
  cases nodes with
  | nil => rfl
  | cons node rest =>
    rw [stmtsOf, Node.bareAll, stmtsOf]
    refine outline_bind (outline_stmtOf depth node) fun s s' hs ↦ ?_
    refine outline_bind (outline_stmtsOf depth rest) fun ss ss' hss ↦ ?_
    simp only [outline_pure, Stmt.bareAll, hs, hss]
termination_by sizeOf nodes

end

theorem outline_programOf (nodes : List (Node Symbol)) :
    outline Program.bare (programOf nodes) =
      outline Program.bare (programOf (Node.bareAll nodes)) := by
  induction nodes with
  | nil => rfl
  | cons node rest ih =>
    rw [Node.bareAll, programOf.eq_def, programOf.eq_def]
    split
    · cases ‹_ :: _ = []›
    · next span text parts rest' heq =>
      obtain ⟨rfl, rfl⟩ := List.cons.inj heq
      exact ih
    · next span text value rest' heq =>
      obtain ⟨rfl, rfl⟩ := List.cons.inj heq
      refine outline_bind (outline_exprOf 0 value) fun v v' hv ↦ ?_
      exact outline_bind_pure ih fun p p' hp ↦ by
        simp only [Program.bare, Option.map_some, hv, (Program.mk.inj hp).1]
    · next node' rest' h1 h2 heq =>
      obtain ⟨rfl, rfl⟩ := List.cons.inj heq
      split
      · cases ‹_ :: _ = []›
      · next heq' =>
        obtain ⟨heq', -⟩ := List.cons.inj heq'
        obtain ⟨symbol, span, text, parts⟩ := node
        cases heq'
        exact (h1 _ _ _ rfl).elim
      · next heq' =>
        obtain ⟨_, _, rfl⟩ := eq_of_bare_eq_single (List.cons.inj heq').1
        exact (h2 _ _ _ rfl).elim
      · next heq' =>
        obtain ⟨rfl, rfl⟩ := List.cons.inj heq'
        refine outline_bind (outline_stmtOf 0 node) fun v v' hv ↦ ?_
        exact outline_bind_pure ih fun p p' hp ↦ by
          obtain ⟨hs, ht⟩ := Program.mk.inj hp
          simp only [Program.bare, Stmt.bareAll, hv, hs, ht]

end Snippet.Script
