import Snippet.Proofs.RoundTrip

/-!
# How deep parsed trees are

The builder refuses to go on below `maxDepth` levels, but its levels are not those of the tree: the
operators and suffixes of a chain count from the start of their own chain, while in the tree each
of them lies above the operands to its left. So a step to the left operand is free, and what the
builder bounds is the length of a path less its steps to the left (`path_length_le`). There are
other paths longer than `maxDepth` (`path_length_longChains`). Since a chain is no longer than
the levels that are left below it, the paths are bounded at all.
-/

namespace Snippet.Script

open Grammar

/-! ### Paths -/

/-- The operand that a chain of operators or suffixes goes on from. -/
def Expr.leftOperand? : Expr → Option Expr
  | .binary _ _ lhs _ => some lhs
  | .call _ callee _ => some callee
  | .index _ target _ | .member _ target _ => some target
  | _ => none

/-- The expressions inside another one that are not the left operand. -/
def Expr.others : Expr → List Expr
  | .literal _ _ | .name _ _ | .member _ _ _ => []
  | .list _ items => items
  | .map _ entries => entries.flatMap fun (key, value) ↦ [key, value]
  | .unary _ _ operand => [operand]
  | .binary _ _ _ rhs => [rhs]
  | .ternary _ cond yes no => [cond, yes, no]
  | .call _ _ args => args
  | .index _ _ i => [i]

/-- A path down from an expression, with the number of its nodes and of its steps to the left. -/
inductive Expr.Path : Expr → Nat → Nat → Prop
  | stop {e} : Path e 1 0
  | left {e lhs n lefts} (hlhs : e.leftOperand? = some lhs) (h : Path lhs n lefts) :
    Path e (n + 1) (lefts + 1)
  | other {e e' n lefts} (he : e' ∈ e.others) (h : Path e' n lefts) : Path e (n + 1) lefts

/-- The expressions of a step of a path of an assignment. -/
def Accessor.exprs : Accessor → List Expr
  | .index i => [i]
  | .member _ => []

/-- The expressions that a statement has of its own. -/
def Stmt.exprs : Stmt → List Expr
  | .declare _ _ _ init => init.toList
  | .assign _ _ path _ value => path.flatMap Accessor.exprs ++ [value]
  | .expression _ value | .throwWith _ value => [value]
  | .ifElse _ cond _ _ | .whileLoop _ cond _ => [cond]
  | .forEach _ _ _ items _ => [items]
  | .returnWith _ value => value.toList
  | .block _ _ | .breakLoop _ | .continueLoop _ | .empty _ => []

/-- The statements directly inside a statement. -/
def Stmt.parts : Stmt → List Stmt
  | .block _ body => body
  | .ifElse _ _ yes no => yes :: no.toList
  | .whileLoop _ _ body | .forEach _ _ _ _ body => [body]
  | _ => []

/-- A path down from a statement, with the number of its nodes and of its steps to the left. -/
inductive Stmt.Path : Stmt → Nat → Nat → Prop
  | stop {s} : Path s 1 0
  | part {s s' n lefts} (hs : s' ∈ s.parts) (h : Path s' n lefts) : Path s (n + 1) lefts
  | expr {s e n lefts} (he : e ∈ s.exprs) (h : e.Path n lefts) : Path s (n + 1) lefts

/-- A path down into a program, with the number of its nodes and of its steps to the left. -/
inductive Program.Path (p : Program) : Nat → Nat → Prop
  | statement {s n lefts} (hs : s ∈ p.statements) (h : s.Path n lefts) : Path p n lefts
  | tail {e n lefts} (he : e ∈ p.tail) (h : e.Path n lefts) : Path p n lefts

/-! ### Bounds -/

/-- No path has more than `bound` nodes and `slack` more for each of its steps to the left. -/
def Expr.Within (slack bound : Nat) (e : Expr) : Prop :=
  ∀ n lefts, e.Path n lefts → n ≤ bound + slack * lefts

/-- The same for paths down from a statement. -/
def Stmt.Within (slack bound : Nat) (s : Stmt) : Prop :=
  ∀ n lefts, s.Path n lefts → n ≤ bound + slack * lefts

section Within

variable {slack bound inner : Nat} {e : Expr} {s : Stmt}

theorem Expr.Within.mono {bound' : Nat} (h : e.Within slack bound) (hle : bound ≤ bound') :
    e.Within slack bound' := fun n lefts hpath ↦ by
  have := h n lefts hpath
  omega

/-- What bounds the paths of the parts of an expression bounds those of the expression. -/
theorem Expr.within_of_others (hpos : 1 ≤ bound) (hleft : e.leftOperand? = none)
    (hothers : ∀ e' ∈ e.others, e'.Within slack (bound - 1)) : e.Within slack bound := by
  intro n lefts hpath
  cases hpath with
  | stop => omega
  | left hlhs => rw [hleft] at hlhs; cases hlhs
  | @other _ e' n _ he h =>
    have := hothers e' he n lefts h
    omega

/-- A link of a chain makes the paths through its left operand longer by one, for which a step to
the left may pay. -/
theorem Expr.within_link {lhs : Expr} (hslack : slack ≤ 1) (hlhs : e.leftOperand? = some lhs)
    (hwithin : lhs.Within slack bound) (hpos : 1 ≤ bound)
    (hothers : ∀ e' ∈ e.others, e'.Within slack (bound - 1)) :
    e.Within slack (bound + (1 - slack)) := by
  intro n lefts hpath
  cases hpath with
  | stop => omega
  | @left _ _ n lefts hlhs' h =>
    cases hlhs.symm.trans hlhs'
    have := hwithin n lefts h
    rw [Nat.mul_add]
    omega
  | @other _ e' n _ he h =>
    have := hothers e' he n lefts h
    omega

theorem Stmt.within_of_parts (hpos : 1 ≤ bound)
    (hparts : ∀ s' ∈ s.parts, s'.Within slack (bound - 1))
    (hexprs : ∀ e ∈ s.exprs, e.Within slack (bound - 1)) : s.Within slack bound := by
  intro n lefts hpath
  cases hpath with
  | stop => omega
  | @part _ s' n _ hs h =>
    have := hparts s' hs n lefts h
    omega
  | @expr _ e n _ he h =>
    have := hexprs e he n lefts h
    omega

end Within

/-- Operators in front of an expression make its paths longer by one each. -/
theorem within_applyUnary {slack bound : Nat} {e : Expr} (h : e.Within slack bound)
    (ops : List (UnaryOp × Span)) : (applyUnary ops e).Within slack (bound + ops.length) := by
  induction ops with
  | nil => exact h
  | cons op ops ih =>
    refine Expr.within_of_others (by simp; omega) rfl fun e' he' ↦ ?_
    cases List.mem_singleton.1 he'
    exact ih.mono (by simp)

/-- The literal of the most negative integer has nothing inside. -/
theorem within_mostNegative {slack : Nat} {minus : Option (UnaryOp × Span)} {node : Node Symbol}
    {e : Expr} (h : mostNegative? minus node = some e) : e.Within slack 1 := by
  unfold mostNegative? at h
  split at h
  · split at h
    · split at h
      · cases h
        exact Expr.within_of_others (Nat.le_refl 1) rfl (List.forall_mem_nil _)
      · cases h
    · cases h
  · cases h

/-- Bounds for the trees that are built at each depth. -/
structure Budget (slack : Nat) (bound : Nat → Nat) : Prop where
  slack_le : slack ≤ 1
  pos {depth} : depth ≤ maxDepth → 1 ≤ bound depth
  step {depth} : depth + 1 ≤ maxDepth → bound (depth + 1) + 1 ≤ bound depth
  chain {depth} : depth + 1 ≤ maxDepth →
    bound (depth + 1) + (1 - slack) * (maxDepth - depth) ≤ bound depth

theorem Budget.descend {slack : Nat} {bound : Nat → Nat} (hb : Budget slack bound) {depth : Nat}
    (count : Nat) (h : depth + count ≤ maxDepth) :
    bound (depth + count) + count ≤ bound depth := by
  induction count with
  | zero => exact Nat.le_refl _
  | succ count ih =>
    have hstep : bound (depth + count + 1) + 1 ≤ bound (depth + count) := hb.step (by omega)
    have := ih (by omega)
    rw [← Nat.add_assoc depth]
    omega

/-! ### Answers -/

section Answers

variable {α β : Type} {P : α → Prop} {Q : β → Prop}

/-- The answer, if it is no complaint, has the property `P`. -/
def Answers (P : α → Prop) (x : Except Complaint α) : Prop :=
  ∀ a, x = .ok a → P a

theorem answers_pure {a : α} (h : P a) : Answers P (pure a) := by
  intro a' heq
  cases heq
  exact h

theorem answers_throw {c : Complaint} : Answers P (throw c) :=
  fun _ heq ↦ by cases heq

theorem Answers.bind {x : Except Complaint α} {k : α → Except Complaint β} (h : Answers P x)
    (hk : ∀ a, P a → Answers Q (k a)) : Answers Q (x >>= k) := by
  cases x with
  | ok a => exact hk a (h a rfl)
  | error c => exact answers_throw

theorem answers_checkDepth (depth : Nat) (span : Span) :
    Answers (fun _ ↦ depth ≤ maxDepth) (checkDepth depth span) := by
  intro _ heq
  unfold checkDepth at heq
  split at heq
  · cases heq
  · omega

end Answers

/-! ### Building expressions -/

section Building

variable {slack : Nat} {bound : Nat → Nat}

/-- What is built at a depth: it keeps to the bound of the depth, which is not too deep. -/
def Expr.Fits (slack : Nat) (bound : Nat → Nat) (depth : Nat) (e : Expr) : Prop :=
  depth ≤ maxDepth ∧ e.Within slack (bound depth)

/-- Something built one level deeper may be inside of something else. -/
theorem Expr.Fits.inside (hb : Budget slack bound) {depth : Nat} {e : Expr}
    (h : e.Fits slack bound (depth + 1)) : e.Within slack (bound depth - 1) :=
  h.2.mono (by have := hb.step h.1; omega)

/-- Two levels deeper, it may be inside of a link that joins a chain with at least as much room as
the level between has. -/
theorem Expr.Fits.inside_link (hb : Budget slack bound) {depth room : Nat} {e : Expr}
    (h : e.Fits slack bound (depth + 2)) (hroom : depth + 1 ≤ maxDepth → bound (depth + 1) ≤ room) :
    e.Within slack (room - 1) :=
  (h.inside hb).mono (by have := hroom (by have := h.1; omega); omega)

/-- Room for the first link of a chain is room for the next one. -/
theorem room_succ (hb : Budget slack bound) {depth room : Nat} (hdepth : depth + 1 ≤ maxDepth)
    (hroom : depth + 1 ≤ maxDepth → bound (depth + 1) ≤ room) :
    depth + 2 ≤ maxDepth → bound (depth + 2) ≤ room + (1 - slack) := by
  intro h
  have hstep : bound (depth + 2) + 1 ≤ bound (depth + 1) := hb.step h
  have := hroom hdepth
  omega

/-- What a chain may still grow by, at a depth. -/
def growth (slack depth : Nat) : Nat :=
  (1 - slack) * (maxDepth - depth)

theorem growth_succ {slack depth : Nat} (h : depth + 1 ≤ maxDepth) :
    growth slack depth = 1 - slack + growth slack (depth + 1) := by
  have hsub : maxDepth - depth = maxDepth - (depth + 1) + 1 := by omega
  rw [growth, hsub, Nat.mul_succ, Nat.add_comm, growth]

/-- What the builder of a chain answers with grows out of the operand it starts with. -/
def Grows (slack depth room : Nat) (x : Except Complaint Expr) : Prop :=
  Answers (Expr.Within slack (room + growth slack depth)) x

mutual

theorem fits_exprOf (hb : Budget slack bound) (depth : Nat) (node : Node Symbol) :
    Answers (Expr.Fits slack bound depth) (exprOf depth node) := by
  obtain ⟨symbol, ⟨start, stop⟩, text, parts⟩ := node
  rw [exprOf.eq_def]
  dsimp only
  refine (answers_checkDepth depth _).bind fun _ hdepth ↦ ?_
  have hnode {e : Expr} (hleft : e.leftOperand? = none)
      (hothers : ∀ e' ∈ e.others, e'.Within slack (bound depth - 1)) : e.Fits slack bound depth :=
    ⟨hdepth, Expr.within_of_others (hb.pos hdepth) hleft hothers⟩
  have hchain {head : Expr} {x : Except Complaint Expr} (h : head.Fits slack bound (depth + 1))
      (hx : Grows slack depth (bound (depth + 1)) x) : Answers (Expr.Fits slack bound depth) x :=
    fun e he ↦ ⟨hdepth, (hx e he).mono (hb.chain h.1)⟩
  split
  case h_1 head =>
    exact fun e he ↦ ⟨hdepth, ((fits_exprOf hb (depth + 1) head e he).inside hb).mono (by omega)⟩
  case h_2 head yes no =>
    refine (fits_exprOf hb (depth + 1) head).bind fun c hc ↦ ?_
    refine (fits_exprOf hb (depth + 1) yes).bind fun y hy ↦ ?_
    refine (fits_exprOf hb (depth + 1) no).bind fun n hn ↦ answers_pure (hnode rfl ?_)
    simpa [Expr.others] using ⟨hc.inside hb, hy.inside hb, hn.inside hb⟩
  case h_9 => exact fun e he ↦ ⟨hdepth, within_unaryOf hb _ depth [] parts e he⟩
  case h_10 head rest =>
    refine (fits_exprOf hb (depth + 1) head).bind fun e he ↦ hchain he ?_
    exact grows_suffixesOf hb _ depth (bound (depth + 1)) e he.2 (hb.pos he.1)
      (fun _ ↦ Nat.le_refl _) rest
  case h_11 | h_12 =>
    split
    · exact answers_pure (hnode rfl (by simp [Expr.others]))
    · exact answers_throw
  case h_13 =>
    split
    · exact Answers.bind (P := fun _ ↦ True) (fun _ _ ↦ trivial)
        fun _ _ ↦ answers_pure (hnode rfl (by simp [Expr.others]))
    · exact answers_throw
  case h_17 items =>
    refine (fits_exprsOf hb (depth + 1) parts).bind fun es hes ↦ answers_pure (hnode rfl ?_)
    exact fun e he ↦ (hes e he).inside hb
  case h_18 entries =>
    refine (fits_entriesOf hb (depth + 1) parts).bind fun es hes ↦ answers_pure (hnode rfl ?_)
    intro e he
    obtain ⟨⟨key, value⟩, hentry, he⟩ := List.mem_flatMap.1 he
    obtain ⟨hkey, hvalue⟩ := hes _ hentry
    simp only [List.mem_cons, List.not_mem_nil, or_false] at he
    rcases he with rfl | rfl
    · exact hkey.inside hb
    · exact hvalue.inside hb
  case h_14 | h_15 | h_16 => exact answers_pure (hnode rfl (by simp [Expr.others]))
  case h_3 head rest | h_4 head rest | h_5 head rest | h_6 head rest | h_7 head rest
      | h_8 head rest =>
    refine (fits_exprOf hb (depth + 1) head).bind fun e he ↦ hchain he ?_
    exact grows_chainOf hb _ depth (bound (depth + 1)) e he.2 (hb.pos he.1)
      (fun _ ↦ Nat.le_refl _) rest
  case h_19 => exact answers_throw
termination_by sizeOf node

theorem fits_exprsOf (hb : Budget slack bound) (depth : Nat) (nodes : List (Node Symbol)) :
    Answers (fun es ↦ ∀ e ∈ es, e.Fits slack bound depth) (exprsOf depth nodes) := by
  cases nodes with
  | nil => exact answers_pure (List.forall_mem_nil _)
  | cons node rest =>
    rw [exprsOf]
    refine (fits_exprOf hb depth node).bind fun e he ↦ ?_
    exact (fits_exprsOf hb depth rest).bind fun es hes ↦
      answers_pure (List.forall_mem_cons.2 ⟨he, hes⟩)
termination_by sizeOf nodes

theorem fits_entriesOf (hb : Budget slack bound) (depth : Nat) (nodes : List (Node Symbol)) :
    Answers (fun es ↦ ∀ entry ∈ es, entry.1.Fits slack bound depth ∧ entry.2.Fits slack bound depth)
      (entriesOf depth nodes) := by
  match nodes with
  | [] => exact answers_pure (List.forall_mem_nil _)
  | .mk _ _ _ [key, value] :: rest =>
    rw [entriesOf]
    refine (fits_exprOf hb depth key).bind fun k hk ↦ ?_
    refine (fits_exprOf hb depth value).bind fun v hv ↦ ?_
    exact (fits_entriesOf hb depth rest).bind fun es hes ↦
      answers_pure (List.forall_mem_cons.2 ⟨⟨hk, hv⟩, hes⟩)
  | .mk _ _ _ [] :: _ | .mk _ _ _ [_] :: _ | .mk _ _ _ (_ :: _ :: _ :: _) :: _ =>
    exact answers_throw
termination_by sizeOf nodes

theorem grows_chainOf (hb : Budget slack bound) (span : Span) (depth room : Nat) (lhs : Expr)
    (hlhs : lhs.Within slack room) (hpos : 1 ≤ room)
    (hroom : depth + 1 ≤ maxDepth → bound (depth + 1) ≤ room) (nodes : List (Node Symbol)) :
    Grows slack depth room (chainOf span depth lhs nodes) := by
  match nodes with
  | [] => exact answers_pure (hlhs.mono (Nat.le_add_right _ _))
  | [_] => exact answers_throw
  | op :: operand :: rest =>
    simp only [Grows, chainOf]
    refine (answers_checkDepth _ _).bind fun _ hdepth ↦ ?_
    split
    · exact answers_throw
    · next op _ =>
      refine (fits_exprOf hb (depth + 2) operand).bind fun rhs hrhs ↦ ?_
      have hlink := Expr.within_link (e := .binary (lhs.span.join rhs.span) op lhs rhs) hb.slack_le
        rfl hlhs hpos (List.forall_mem_singleton.2 (hrhs.inside_link hb hroom))
      have hgrows := grows_chainOf hb span (depth + 1) (room + (1 - slack)) _ hlink (by omega)
        (room_succ hb hdepth hroom) rest
      rwa [Grows, Nat.add_assoc, ← growth_succ hdepth] at hgrows
termination_by sizeOf nodes

theorem within_unaryOf (hb : Budget slack bound) (span : Span) (depth : Nat)
    (ops : List (UnaryOp × Span)) (nodes : List (Node Symbol)) :
    Answers (Expr.Within slack (bound depth)) (unaryOf span depth ops nodes) := by
  match nodes with
  | [] => exact answers_throw
  | [operand] =>
    rw [unaryOf]
    split
    · next literal hliteral =>
      refine (answers_checkDepth _ _).bind fun _ hdepth ↦ answers_pure ?_
      have hdescend := hb.descend _ hdepth
      have hpos := hb.pos hdepth
      refine (within_applyUnary (within_mostNegative hliteral) ops.dropLast).mono ?_
      rw [List.length_dropLast]
      omega
    · refine (fits_exprOf hb _ operand).bind fun e he ↦ ?_
      refine (answers_checkDepth _ _).bind fun _ hdepth ↦ answers_pure ?_
      have hdescend := hb.descend ops.length hdepth
      have hstep := hb.step he.1
      exact (within_applyUnary he.2 ops).mono (by omega)
  | op :: op' :: rest =>
    rw [unaryOf]
    · exact within_unaryOf hb span depth _ (op' :: rest)
    · exact List.cons_ne_nil _ _
termination_by sizeOf nodes

theorem grows_suffixesOf (hb : Budget slack bound) (span : Span) (depth room : Nat) (target : Expr)
    (ht : target.Within slack room) (hpos : 1 ≤ room)
    (hroom : depth + 1 ≤ maxDepth → bound (depth + 1) ≤ room) (nodes : List (Node Symbol)) :
    Grows slack depth room (suffixesOf span depth target nodes) := by
  match nodes with
  | [] => exact answers_pure (ht.mono (Nat.le_add_right _ _))
  | .mk symbol (start, stop) text parts :: rest =>
    rw [suffixesOf.eq_def]
    dsimp only
    refine (answers_checkDepth _ _).bind fun _ hdepth ↦ ?_
    have hnext {e : Expr} (hleft : e.leftOperand? = some target)
        (hothers : ∀ e' ∈ e.others, e'.Within slack (room - 1)) :
        Answers (Expr.Within slack (room + growth slack depth))
          (suffixesOf span (depth + 1) e rest) := by
      have hlink := Expr.within_link hb.slack_le hleft ht hpos hothers
      have hgrows := grows_suffixesOf hb span (depth + 1) (room + (1 - slack)) e hlink (by omega)
        (room_succ hb hdepth hroom) rest
      rwa [Grows, Nat.add_assoc, ← growth_succ hdepth] at hgrows
    split
    · refine (fits_exprsOf hb (depth + 2) parts).bind fun as has ↦ hnext rfl fun e he ↦ ?_
      exact (has e he).inside_link hb hroom
    · next index =>
      refine (fits_exprOf hb (depth + 2) index).bind fun i hi ↦ hnext rfl ?_
      exact List.forall_mem_singleton.2 (hi.inside_link hb hroom)
    · next field => exact hnext rfl (List.forall_mem_nil _)
    · exact answers_throw
termination_by sizeOf nodes

end

/-! ### Building statements -/

theorem fits_pathOf (hb : Budget slack bound) (depth : Nat) (nodes : List (Node Symbol)) :
    Answers (fun path ↦ ∀ e ∈ path.flatMap Accessor.exprs, e.Fits slack bound depth)
      (pathOf depth nodes) := by
  induction nodes with
  | nil => exact answers_pure (List.forall_mem_nil _)
  | cons node rest ih =>
    rw [pathOf.eq_def]
    dsimp only
    have hstep {x : Except Complaint Accessor}
        (h : Answers (fun step ↦ ∀ e ∈ step.exprs, e.Fits slack bound depth) x) :
        Answers (fun path ↦ ∀ e ∈ path.flatMap Accessor.exprs, e.Fits slack bound depth)
          (do return (← x) :: (← pathOf depth rest)) :=
      h.bind fun step hstep ↦ ih.bind fun path hpath ↦ answers_pure (by
        rw [List.flatMap_cons]
        exact List.forall_mem_append.2 ⟨hstep, hpath⟩)
    split
    · next index =>
      exact hstep ((fits_exprOf hb depth index).bind fun i hi ↦
        answers_pure (List.forall_mem_singleton.2 hi))
    · exact hstep (answers_pure (List.forall_mem_nil _))
    · exact hstep answers_throw

/-- What is built at a depth: it keeps to the bound of the depth, which is not too deep. -/
def Stmt.Fits (slack : Nat) (bound : Nat → Nat) (depth : Nat) (s : Stmt) : Prop :=
  depth ≤ maxDepth ∧ s.Within slack (bound depth)

theorem Stmt.Fits.inside (hb : Budget slack bound) {depth : Nat} {s : Stmt}
    (h : s.Fits slack bound (depth + 1)) : s.Within slack (bound depth - 1) := by
  intro n lefts hpath
  have := h.2 n lefts hpath
  have := hb.step h.1
  omega

mutual

theorem fits_stmtOf (hb : Budget slack bound) (depth : Nat) (node : Node Symbol) :
    Answers (Stmt.Fits slack bound depth) (stmtOf depth node) := by
  obtain ⟨symbol, ⟨start, stop⟩, text, parts⟩ := node
  rw [stmtOf.eq_def]
  dsimp only
  refine (answers_checkDepth depth _).bind fun _ hdepth ↦ ?_
  have hnode {s : Stmt} (hparts : ∀ s' ∈ s.parts, s'.Within slack (bound depth - 1))
      (hexprs : ∀ e ∈ s.exprs, e.Within slack (bound depth - 1)) : s.Fits slack bound depth :=
    ⟨hdepth, Stmt.within_of_parts (hb.pos hdepth) hparts hexprs⟩
  have hleaf {s : Stmt} (hparts : s.parts = []) (hexprs : s.exprs = []) :
      Answers (Stmt.Fits slack bound depth) (pure s) :=
    answers_pure (hnode (by simp [hparts]) (by simp [hexprs]))
  have hone {s : Stmt} {e : Expr} (he : e.Fits slack bound (depth + 1)) (hparts : s.parts = [])
      (hexprs : s.exprs = [e]) : Answers (Stmt.Fits slack bound depth) (pure s) :=
    answers_pure (hnode (by simp [hparts]) (by simpa [hexprs] using he.inside hb))
  have htype (type : Node Symbol) : Answers (fun _ ↦ True) (typeOf type) := fun _ _ ↦ trivial
  split
  case h_1 =>
    exact (fits_stmtsOf hb (depth + 1) parts).bind fun body hbody ↦
      answers_pure (hnode (fun s hs ↦ (hbody s hs).inside hb) (List.forall_mem_nil _))
  case h_2 cond yes =>
    refine (fits_exprOf hb (depth + 1) cond).bind fun c hc ↦ ?_
    exact (fits_stmtOf hb (depth + 1) yes).bind fun y hy ↦
      answers_pure (hnode (List.forall_mem_singleton.2 (hy.inside hb))
        (List.forall_mem_singleton.2 (hc.inside hb)))
  case h_3 cond yes _ no =>
    refine (fits_exprOf hb (depth + 1) cond).bind fun c hc ↦ ?_
    refine (fits_stmtOf hb (depth + 1) yes).bind fun y hy ↦ ?_
    exact (fits_stmtOf hb (depth + 1) no).bind fun n hn ↦
      answers_pure (hnode (List.forall_mem_cons.2 ⟨hy.inside hb,
        List.forall_mem_singleton.2 (hn.inside hb)⟩) (List.forall_mem_singleton.2 (hc.inside hb)))
  case h_4 cond body =>
    refine (fits_exprOf hb (depth + 1) cond).bind fun c hc ↦ ?_
    exact (fits_stmtOf hb (depth + 1) body).bind fun b hbody ↦
      answers_pure (hnode (List.forall_mem_singleton.2 (hbody.inside hb))
        (List.forall_mem_singleton.2 (hc.inside hb)))
  case h_5 type binding _ items body =>
    refine (htype type).bind fun t _ ↦ (fits_exprOf hb (depth + 1) items).bind fun i hi ↦ ?_
    exact (fits_stmtOf hb (depth + 1) body).bind fun b hbody ↦
      answers_pure (hnode (List.forall_mem_singleton.2 (hbody.inside hb))
        (List.forall_mem_singleton.2 (hi.inside hb)))
  case h_6 | h_9 | h_10 | h_11 => exact hleaf rfl rfl
  case h_7 value _ | h_8 value _ | h_15 value _ =>
    exact (fits_exprOf hb (depth + 1) value).bind fun v hv ↦ hone hv rfl rfl
  case h_12 type name _ => exact (htype type).bind fun _ _ ↦ hleaf rfl rfl
  case h_13 type name value _ =>
    exact (htype type).bind fun _ _ ↦ (fits_exprOf hb (depth + 1) value).bind fun v hv ↦
      hone hv rfl rfl
  case h_14 root path op value _ =>
    refine (fits_pathOf hb (depth + 2) path).bind fun path hpath ↦ ?_
    split
    · exact answers_throw
    · refine (fits_exprOf hb (depth + 1) value).bind fun v hv ↦
        answers_pure (hnode (List.forall_mem_nil _) (List.forall_mem_append.2 ⟨fun e he ↦ ?_,
          List.forall_mem_singleton.2 (hv.inside hb)⟩))
      have hstep : bound (depth + 1) + 1 ≤ bound depth := hb.step (by have := (hpath e he).1; omega)
      exact (hpath e he).inside_link hb fun _ ↦ Nat.le_of_lt hstep
  case h_16 => exact answers_throw
termination_by sizeOf node

theorem fits_stmtsOf (hb : Budget slack bound) (depth : Nat) (nodes : List (Node Symbol)) :
    Answers (fun ss ↦ ∀ s ∈ ss, s.Fits slack bound depth) (stmtsOf depth nodes) := by
  cases nodes with
  | nil => exact answers_pure (List.forall_mem_nil _)
  | cons node rest =>
    rw [stmtsOf]
    refine (fits_stmtOf hb depth node).bind fun s hs ↦ ?_
    exact (fits_stmtsOf hb depth rest).bind fun ss hss ↦
      answers_pure (List.forall_mem_cons.2 ⟨hs, hss⟩)
termination_by sizeOf nodes

end

/-- No path down into a program is longer than the bound of the depth at which building starts. -/
theorem within_programOf (hb : Budget slack bound) (nodes : List (Node Symbol)) :
    Answers (fun p ↦ ∀ n lefts, p.Path n lefts → n ≤ bound 0 + slack * lefts)
      (programOf nodes) := by
  induction nodes with
  | nil =>
    refine answers_pure fun n lefts hpath ↦ ?_
    cases hpath with
    | statement hs => cases hs
    | tail he => cases he
  | cons node rest ih =>
    rw [programOf.eq_def]
    split
    · next heq => cases heq
    · next heq =>
      obtain ⟨-, rfl⟩ := List.cons.inj heq
      exact ih
    · next value _ heq =>
      obtain ⟨-, rfl⟩ := List.cons.inj heq
      refine (fits_exprOf hb 0 value).bind fun v hv ↦ ih.bind fun p hp ↦ answers_pure ?_
      intro n lefts hpath
      cases hpath with
      | statement hs h => exact hp n lefts (.statement hs h)
      | tail he h =>
        cases he
        exact hv.2 n lefts h
    · next node _ _ _ heq =>
      obtain ⟨-, rfl⟩ := List.cons.inj heq
      refine (fits_stmtOf hb 0 node).bind fun s hs ↦ ih.bind fun p hp ↦ answers_pure ?_
      intro n lefts hpath
      cases hpath with
      | statement hmem h =>
        rcases List.mem_cons.1 hmem with rfl | hmem
        · exact hs.2 n lefts h
        · exact hp n lefts (.statement hmem h)
      | tail he h => exact hp n lefts (.tail he h)

end Building

/-! ### Chains on the left of chains -/

/-- The number of steps down to the left. -/
def Expr.leftSteps : Expr → Nat
  | .binary _ _ lhs _ => lhs.leftSteps + 1
  | .call _ callee _ => callee.leftSteps + 1
  | .index _ target _ | .member _ target _ => target.leftSteps + 1
  | _ => 0

theorem Expr.leftSteps_bare (e : Expr) : e.bare.leftSteps = e.leftSteps := by
  match e with
  | .binary _ _ lhs _ => exact congrArg (· + 1) lhs.leftSteps_bare
  | .call _ callee _ => exact congrArg (· + 1) callee.leftSteps_bare
  | .index _ target _ | .member _ target _ => exact congrArg (· + 1) target.leftSteps_bare
  | .literal _ _ | .name _ _ | .list _ _ | .map _ _ | .unary _ _ _ | .ternary _ _ _ _ => rfl

theorem Expr.path_leftSteps (e : Expr) : e.Path (e.leftSteps + 1) e.leftSteps := by
  match e with
  | .binary _ _ lhs _ => exact .left rfl lhs.path_leftSteps
  | .call _ callee _ => exact .left rfl callee.path_leftSteps
  | .index _ target _ | .member _ target _ => exact .left rfl target.path_leftSteps
  | .literal _ _ | .name _ _ | .list _ _ | .map _ _ | .unary _ _ _ | .ternary _ _ _ _ =>
    exact .stop

/-- The path to the left of a printed expression is there in what is parsed from its text. -/
theorem exists_path_printed {e : Expr} (he : e.Printable)
    (hguard : checkNesting (e.tokens.flatMap (· ++ [' '])) = .ok ())
    (hbuilt : (exprOf 0 (e.nodeAt true 0)).isOk = true) :
    ∃ program, parse (String.ofList (e.tokens.flatMap (· ++ [' ']))) = .ok program ∧
      program.Path (e.leftSteps + 1) e.leftSteps := by
  generalize htext : String.ofList (e.tokens.flatMap (· ++ [' '])) = text
  have hchars : text.toList = e.tokens.flatMap (· ++ [' ']) := by
    rw [← htext, String.toList_ofList]
  have hspaced : Spaced e.tokens text.toList := by
    rw [hchars]
    exact spaced_flatMap _
  obtain ⟨tree, hparse, hbare⟩ := exists_parse_printed he hspaced (by rw [hchars, hguard]) hbuilt
  have hpath := tree.path_leftSteps
  rw [← tree.leftSteps_bare, hbare, Expr.leftSteps_bare] at hpath
  exact ⟨_, hparse, .tail rfl hpath⟩

/-- As many ones behind an expression, with an operator in front of each of them. -/
def ones (op : BinaryOp) : Nat → Expr → Expr
  | 0, e => e
  | count + 1, e => .binary noSpan op (ones op count e) (.literal noSpan (.int 1))

theorem printable_one : (Expr.literal noSpan (.int 1)).Printable := by
  show 0 ≤ (1 : Int64).toInt
  decide

theorem printable_ones (op : BinaryOp) (count : Nat) {e : Expr} (h : e.Printable) :
    (ones op count e).Printable := by
  induction count with
  | zero => exact h
  | succ count ih => exact ⟨ih, printable_one⟩

theorem leftSteps_ones (op : BinaryOp) (count : Nat) (e : Expr) :
    (ones op count e).leftSteps = e.leftSteps + count := by
  induction count with
  | zero => rfl
  | succ count ih => rw [ones, Expr.leftSteps, ih, Nat.add_assoc]

/-- A product of as many ones and one more, to which as many ones are added. -/
def twoChains (count : Nat) : Expr :=
  ones .add count (ones .mul count (.literal noSpan (.int 1)))

theorem printable_twoChains (count : Nat) : (twoChains count).Printable :=
  printable_ones .add count (printable_ones .mul count printable_one)

theorem leftSteps_twoChains (count : Nat) : (twoChains count).leftSteps = 2 * count := by
  have hone : (Expr.literal noSpan (.int 1)).leftSteps = 0 := rfl
  rw [twoChains, leftSteps_ones, leftSteps_ones, hone]
  omega

/-- The text of the two chains, with a blank behind each token. -/
def twoChainsText (count : Nat) : String :=
  String.ofList ((twoChains count).tokens.flatMap (· ++ [' ']))

/-! ### Parsed programs -/

/-- With the steps to the left free, the levels of the builder bound the paths. -/
theorem budget_free : Budget 1 fun depth ↦ maxDepth + 1 - depth where
  slack_le := Nat.le_refl 1
  pos := by omega
  step := by omega
  chain := by omega

/-- What the levels left below a depth add up to grows by their number. -/
theorem half_levels {depth : Nat} (h : depth + 1 ≤ maxDepth) :
    (maxDepth - depth) * (maxDepth - depth + 1) / 2 =
      (maxDepth - (depth + 1)) * (maxDepth - (depth + 1) + 1) / 2 + (maxDepth - depth) := by
  obtain ⟨left, hleft⟩ : ∃ left, maxDepth - depth = left + 1 :=
    ⟨_, (Nat.succ_pred (by omega)).symm⟩
  have hnext : maxDepth - (depth + 1) = left := by omega
  have hmul : (left + 1) * (left + 1 + 1) = left * (left + 1) + 2 * (left + 1) := by
    rw [← Nat.add_mul, Nat.mul_comm]
  rw [hleft, hnext, hmul, Nat.add_mul_div_left _ _ (by decide)]

/-- With every step counted, each level may add a chain as long as there are levels left below. -/
theorem budget_counted :
    Budget 0 fun depth ↦ (maxDepth - depth) * (maxDepth - depth + 1) / 2 + 1 where
  slack_le := Nat.zero_le 1
  pos _ := Nat.succ_pos _
  step {depth} h := by
    have := half_levels h
    omega
  chain {depth} h := by
    have := half_levels h
    omega

theorem within_parse {slack : Nat} {bound : Nat → Nat} (hb : Budget slack bound) {source : String}
    {program : Program} (h : parse source = .ok program) {n lefts : Nat}
    (hpath : program.Path n lefts) : n ≤ bound 0 + slack * lefts := by
  rw [parse] at h
  have hanswers : Answers (fun p : Program ↦ ∀ n lefts, p.Path n lefts →
      n ≤ bound 0 + slack * lefts) (parse source) := by
    refine Answers.bind (P := fun _ ↦ True) (fun _ _ ↦ trivial) fun _ _ ↦ ?_
    split
    · exact answers_throw
    · exact within_programOf hb _
  exact hanswers program h n lefts hpath

/-- A path down into a parsed program has at most one node more than the builder has levels, and one
more for each of its steps to a left operand. At all events it has no more nodes than all chains
together, each as long as there are levels left below it. -/
theorem path_length_le {source : String} {program : Program} (h : parse source = .ok program)
    {n lefts : Nat} (hpath : program.Path n lefts) :
    n ≤ maxDepth + 1 + lefts ∧ n ≤ maxDepth * (maxDepth + 1) / 2 + 1 := by
  have hfree := within_parse budget_free h hpath
  have hcounted := within_parse budget_counted h hpath
  simp only [Nat.sub_zero, Nat.one_mul, Nat.zero_mul, Nat.add_zero] at hfree hcounted
  exact ⟨hfree, hcounted⟩

theorem path_length_le_twoChains :
    ∃ program, parse (twoChainsText 2) = .ok program ∧ program.Path 5 4 ∧ 5 ≤ maxDepth + 1 + 4 := by
  obtain ⟨program, hparse, hpath⟩ := exists_path_printed (printable_twoChains 2)
    (checkNesting_eq_ok_iff.2 (by decide +kernel)) (by decide +kernel)
  rw [leftSteps_twoChains] at hpath
  exact ⟨program, hparse, hpath, (path_length_le hparse hpath).1⟩

/-- Two chains that are each short enough for the builder, with a path through both that is longer
than the tree may be deep. -/
theorem path_length_longChains :
    ∃ program n lefts, parse (twoChainsText 130) = .ok program ∧ program.Path n lefts ∧
      maxDepth < n := by
  obtain ⟨program, hparse, hpath⟩ := exists_path_printed (printable_twoChains 130)
    (checkNesting_eq_ok_iff.2 (by decide +kernel)) (by decide +kernel)
  rw [leftSteps_twoChains] at hpath
  exact ⟨program, _, _, hparse, hpath, by decide⟩

end Snippet.Script
