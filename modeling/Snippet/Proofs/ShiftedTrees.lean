import Snippet.Proofs.Places
import Snippet.Proofs.PlacedMatches

/-!
# Trees further on and further down

An expression that stands further on in a text, and inside of another one, has the same tree with
every place moved (`Expr.shift`). Building it there only starts at a greater depth: it gives the
moved tree, or it is refused as too deep (`lowered_exprOf`).
-/

namespace Snippet

/-- The span as many characters further on. -/
def Span.shift (k : Nat) (s : Span) : Span :=
  ⟨s.start + k, s.stop + k⟩

theorem Span.shift_join (k : Nat) (a b : Span) :
    (a.join b).shift k = (a.shift k).join (b.shift k) := by
  simp only [Span.shift, Span.join, Nat.add_min_add_right, Nat.add_max_add_right]

namespace Script

open Grammar

/-! ### Moving places -/

/-- The identifier as many characters further on. -/
def Ident.shift (k : Nat) (i : Ident) : Ident :=
  ⟨i.name, i.span.shift k⟩

mutual

/-- The expression as many characters further on. -/
def Expr.shift (k : Nat) : Expr → Expr
  | .literal span value => .literal (span.shift k) value
  | .name span n => .name (span.shift k) n
  | .list span items => .list (span.shift k) (shiftAll k items)
  | .map span entries => .map (span.shift k) (shiftEntries k entries)
  | .unary span op operand => .unary (span.shift k) op (operand.shift k)
  | .binary span op lhs rhs => .binary (span.shift k) op (lhs.shift k) (rhs.shift k)
  | .ternary span cond yes no => .ternary (span.shift k) (cond.shift k) (yes.shift k) (no.shift k)
  | .call span callee args => .call (span.shift k) (callee.shift k) (shiftAll k args)
  | .index span target i => .index (span.shift k) (target.shift k) (i.shift k)
  | .member span target field => .member (span.shift k) (target.shift k) (field.shift k)

/-- The expressions as many characters further on. -/
def Expr.shiftAll (k : Nat) : List Expr → List Expr
  | [] => []
  | e :: rest => e.shift k :: shiftAll k rest

/-- The entries of a map as many characters further on. -/
def Expr.shiftEntries (k : Nat) : List (Expr × Expr) → List (Expr × Expr)
  | [] => []
  | (key, value) :: rest => (key.shift k, value.shift k) :: shiftEntries k rest

end

@[simp]
theorem Expr.span_shift (k : Nat) (e : Expr) : (e.shift k).span = e.span.shift k := by
  cases e <;> rfl

theorem nodeText_shift (k : Nat) (node : Node Symbol) :
    nodeText (node.shift k) = nodeText node := by
  cases node
  rfl

theorem nodeSpan_shift (k : Nat) (node : Node Symbol) :
    nodeSpan (node.shift k) = (nodeSpan node).shift k := by
  cases node
  rfl

theorem identOf_shift (k : Nat) (node : Node Symbol) :
    identOf (node.shift k) = (identOf node).shift k := by
  cases node
  rfl

/-- Operators in front of an operand as many characters further on. -/
def shiftOps (k : Nat) (ops : List (UnaryOp × Span)) : List (UnaryOp × Span) :=
  ops.map (Prod.map id (Span.shift k))

/-- Operators further on, in front of an operand further on. -/
theorem shift_applyUnary (k : Nat) (ops : List (UnaryOp × Span)) (e : Expr) :
    (applyUnary ops e).shift k = applyUnary (shiftOps k ops) (e.shift k) := by
  induction ops with
  | nil => rfl
  | cons op ops ih =>
    simp only [applyUnary, shiftOps, List.foldr_cons, List.map_cons, Expr.shift, Prod.map_fst,
      Prod.map_snd, id] at ih ⊢
    rw [ih, Span.shift_join, ← ih, Expr.span_shift]

theorem mostNegative?_shift (k : Nat) (minus : Option (UnaryOp × Span)) (node : Node Symbol) :
    mostNegative? (minus.map (Prod.map id (Span.shift k))) (node.shift k) =
      (mostNegative? minus node).map (Expr.shift k) := by
  fun_cases mostNegative? minus node with
  | case1 start stop _ _ text _ place h =>
    simp only [Node.shift, Node.shiftAll, mostNegative?, Option.map_some, Prod.map, id, if_pos h,
      Expr.shift, Span.shift_join]
    rfl
  | case2 start stop _ _ text _ place h =>
    simp only [Node.shift, Node.shiftAll, mostNegative?, Option.map_some, Option.map_none, Prod.map,
      id, if_neg h]
  | case3 minus _ _ _ _ _ _ hminus =>
    rcases minus with - | ⟨- | -, place⟩
    · rfl
    · rfl
    · exact (hminus place rfl).elim
  | case4 minus node hshape =>
    unfold mostNegative?
    split
    · next heq =>
      obtain ⟨symbol, ⟨start, stop⟩, text, parts⟩ := node
      rcases parts with - | ⟨⟨_, _, _, _⟩, - | _⟩ <;> cases heq
      exact (hshape _ _ _ _ _ _ rfl).elim
    · rfl

/-! ### Building further down -/

/-- Where the first answer is a tree, the second one is the changed tree, or it refuses it as too
deep. -/
def Lowered {α β : Type} (f : α → β) (x : Except Complaint α) (y : Except Complaint β) : Prop :=
  ∀ a, x = .ok a → y = .ok (f a) ∨ ∃ c, y = .error c ∧ c.problem = .tooDeep

section Lowered

variable {α β γ δ : Type} {f : α → γ} {g : β → δ}

theorem lowered_pure (f : α → γ) (a : α) : Lowered f (pure a) (pure (f a)) := by
  rintro _ ⟨⟩
  exact .inl rfl

theorem lowered_throw (f : α → γ) (c : Complaint) (y : Except Complaint γ) :
    Lowered f (throw c) y :=
  fun _ h ↦ nomatch h

theorem Lowered.bind {x : Except Complaint α} {y : Except Complaint γ}
    {next : α → Except Complaint β} {next' : γ → Except Complaint δ} (h : Lowered f x y)
    (hnext : ∀ a, Lowered g (next a) (next' (f a))) : Lowered g (x >>= next) (y >>= next') := by
  intro b hb
  cases x with
  | error c => cases hb
  | ok a =>
    rcases h a rfl with rfl | ⟨c, rfl, hc⟩
    · exact hnext a b hb
    · exact .inr ⟨c, rfl, hc⟩

theorem lowered_checkDepth (depth depth' : Nat) (span span' : Span) :
    Lowered id (checkDepth depth span) (checkDepth depth' span') := by
  rintro ⟨⟩ -
  unfold checkDepth
  split
  · exact .inr ⟨_, rfl, rfl⟩
  · exact .inl rfl

theorem lowered_unescape (place place' : Nat) (s : List Char) :
    Lowered id (unescape place s) (unescape place' s) := by
  intro text htext
  have h := outline_unescape place place' s
  rw [htext] at h
  cases hplace : unescape place' s with
  | ok text' =>
    rw [hplace] at h
    exact .inl (congrArg Except.ok (Except.ok.inj h).symm)
  | error c =>
    rw [hplace] at h
    cases h

end Lowered

variable (k : Nat)

mutual

theorem lowered_exprOf (depth depth' : Nat) (node : Node Symbol) :
    Lowered (Expr.shift k) (exprOf depth node) (exprOf depth' (node.shift k)) := by
  obtain ⟨symbol, ⟨start, stop⟩, text, parts⟩ := node
  rw [exprOf.eq_def, Node.shift, exprOf.eq_def]
  dsimp only
  refine (lowered_checkDepth depth depth' _ _).bind fun _ ↦ ?_
  split
  case h_19 => exact lowered_throw _ _ _
  case h_1 head => exact lowered_exprOf _ _ head
  case h_2 head yes no =>
    refine (lowered_exprOf _ _ head).bind fun c ↦ ?_
    refine (lowered_exprOf _ _ yes).bind fun y ↦ ?_
    refine (lowered_exprOf _ _ no).bind fun n ↦ ?_
    exact lowered_pure _ (Expr.ternary ⟨start, stop⟩ c y n)
  case h_9 => exact lowered_unaryOf _ _ depth depth' [] parts
  case h_10 head rest =>
    refine (lowered_exprOf _ _ head).bind fun target ↦ ?_
    exact lowered_suffixesOf _ _ depth depth' target rest
  case h_11 | h_12 =>
    split
    · exact lowered_pure _ (Expr.literal ⟨start, stop⟩ _)
    · exact lowered_throw _ _ _
  case h_13 =>
    split
    · refine (lowered_unescape _ _ _).bind fun chars ↦ ?_
      exact lowered_pure _ (Expr.literal ⟨start, stop⟩ _)
    · exact lowered_throw _ _ _
  case h_14 => exact lowered_pure _ (Expr.literal ⟨start, stop⟩ _)
  case h_15 => exact lowered_pure _ (Expr.literal ⟨start, stop⟩ _)
  case h_16 => exact lowered_pure _ (Expr.name ⟨start, stop⟩ _)
  case h_17 items =>
    refine (lowered_exprsOf _ _ parts).bind fun es ↦ ?_
    exact lowered_pure _ (Expr.list ⟨start, stop⟩ es)
  case h_18 entries =>
    refine (lowered_entriesOf _ _ parts).bind fun es ↦ ?_
    exact lowered_pure _ (Expr.map ⟨start, stop⟩ es)
  -- the six levels of binary operators
  case h_3 head rest | h_4 head rest | h_5 head rest | h_6 head rest | h_7 head rest
      | h_8 head rest =>
    refine (lowered_exprOf _ _ head).bind fun lhs ↦ ?_
    exact lowered_chainOf _ _ depth depth' lhs rest
termination_by sizeOf node

theorem lowered_exprsOf (depth depth' : Nat) (nodes : List (Node Symbol)) :
    Lowered (Expr.shiftAll k) (exprsOf depth nodes) (exprsOf depth' (Node.shiftAll k nodes)) := by
  cases nodes with
  | nil => exact lowered_pure _ []
  | cons node rest =>
    rw [exprsOf, Node.shiftAll, exprsOf]
    refine (lowered_exprOf _ _ node).bind fun e ↦ ?_
    refine (lowered_exprsOf _ _ rest).bind fun es ↦ ?_
    exact lowered_pure _ (e :: es)
termination_by sizeOf nodes

theorem lowered_entriesOf (depth depth' : Nat) (nodes : List (Node Symbol)) :
    Lowered (Expr.shiftEntries k) (entriesOf depth nodes)
      (entriesOf depth' (Node.shiftAll k nodes)) := by
  match nodes with
  | [] => exact lowered_pure _ []
  | .mk symbol span text [key, value] :: rest =>
    simp only [Node.shiftAll, Node.shift, entriesOf]
    refine (lowered_exprOf _ _ key).bind fun key ↦ ?_
    refine (lowered_exprOf _ _ value).bind fun value ↦ ?_
    refine (lowered_entriesOf _ _ rest).bind fun es ↦ ?_
    exact lowered_pure _ ((key, value) :: es)
  | .mk _ _ _ [] :: _ | .mk _ _ _ [_] :: _ | .mk _ _ _ (_ :: _ :: _ :: _) :: _ =>
    exact lowered_throw _ _ _
termination_by sizeOf nodes

theorem lowered_chainOf (span span' : Span) (depth depth' : Nat) (lhs : Expr)
    (nodes : List (Node Symbol)) :
    Lowered (Expr.shift k) (chainOf span depth lhs nodes)
      (chainOf span' depth' (lhs.shift k) (Node.shiftAll k nodes)) := by
  match nodes with
  | [] => exact lowered_pure _ lhs
  | [_] => exact lowered_throw _ _ _
  | op :: operand :: rest =>
    simp only [chainOf, Node.shiftAll, nodeText_shift]
    refine (lowered_checkDepth _ _ _ _).bind fun _ ↦ ?_
    split
    · exact lowered_throw _ _ _
    · next op _ =>
      refine (lowered_exprOf _ _ operand).bind fun rhs ↦ ?_
      have hrest := lowered_chainOf span span' (depth + 1) (depth' + 1)
        (.binary (lhs.span.join rhs.span) op lhs rhs) rest
      rw [Expr.shift, Span.shift_join] at hrest
      simpa only [Expr.span_shift] using hrest
termination_by sizeOf nodes

theorem lowered_unaryOf (span span' : Span) (depth depth' : Nat) (ops : List (UnaryOp × Span))
    (nodes : List (Node Symbol)) :
    Lowered (Expr.shift k) (unaryOf span depth ops nodes)
      (unaryOf span' depth' (shiftOps k ops) (Node.shiftAll k nodes)) := by
  match nodes with
  | [] => exact lowered_throw _ _ _
  | [operand] =>
    simp only [unaryOf, Node.shiftAll, shiftOps, List.getLast?_map, mostNegative?_shift]
    cases mostNegative? ops.getLast? operand with
    | none =>
      refine (lowered_exprOf _ _ operand).bind fun e ↦ ?_
      refine (lowered_checkDepth _ _ _ _).bind fun _ ↦ ?_
      exact shift_applyUnary k ops e ▸ lowered_pure _ (applyUnary ops e)
    | some literal =>
      refine (lowered_checkDepth _ _ _ _).bind fun _ ↦ ?_
      rw [← List.map_dropLast]
      exact shift_applyUnary k ops.dropLast literal ▸
        lowered_pure _ (applyUnary ops.dropLast literal)
  | op :: op' :: rest =>
    have hrest := lowered_unaryOf span span' depth depth'
      (ops ++ [(if op.text == ['!'] then .not else .neg, nodeSpan op)]) (op' :: rest)
    have htext : (op.shift k).text = op.text := by cases op; rfl
    simp only [unaryOf, Node.shiftAll, htext, nodeSpan_shift] at hrest ⊢
    simpa [shiftOps] using hrest
termination_by sizeOf nodes

theorem lowered_suffixesOf (span span' : Span) (depth depth' : Nat) (target : Expr)
    (nodes : List (Node Symbol)) :
    Lowered (Expr.shift k) (suffixesOf span depth target nodes)
      (suffixesOf span' depth' (target.shift k) (Node.shiftAll k nodes)) := by
  match nodes with
  | [] => exact lowered_pure _ target
  | .mk symbol (start, stop) text parts :: rest =>
    have hjoin : (target.shift k).span.join ⟨start + k, stop + k⟩ =
        (target.span.join ⟨start, stop⟩).shift k := by
      rw [Expr.span_shift, Span.shift_join]
      rfl
    rw [suffixesOf.eq_def, Node.shiftAll, Node.shift, suffixesOf.eq_def]
    dsimp only
    rw [hjoin]
    refine (lowered_checkDepth _ _ _ _).bind fun _ ↦ ?_
    split
    · refine (lowered_exprsOf _ _ parts).bind fun args ↦ ?_
      exact lowered_suffixesOf _ _ _ _ (.call (target.span.join ⟨start, stop⟩) target args) rest
    · next index =>
      refine (lowered_exprOf _ _ index).bind fun i ↦ ?_
      exact lowered_suffixesOf _ _ _ _ (.index (target.span.join ⟨start, stop⟩) target i) rest
    · next field =>
      simp only [Node.shiftAll, identOf_shift]
      exact lowered_suffixesOf _ _ _ _
        (.member (target.span.join ⟨start, stop⟩) target (identOf field)) rest
    · exact lowered_throw _ _ _
termination_by sizeOf nodes

end

end Script

end Snippet
