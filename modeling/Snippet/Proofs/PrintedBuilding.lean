import Snippet.Proofs.PrintedTokens

/-!
# Building printed expressions

The node of a printed expression is built into the expression, up to places, unless it is too deep
to be built at all (`Expr.buildsBack`). Nothing else can go wrong: the names, numbers and strings
of a printable expression are all in range.
-/

namespace Snippet.Script

open Grammar

/-! ### Building up to the depth limit -/

section Builds

variable {α β γ δ : Type} {f : α → γ} {g : β → δ}

/-- The answer is `b` up to places, or a refusal of something too deep. -/
def Builds (f : α → γ) (x : Except Complaint α) (b : γ) : Prop :=
  outline f x = .ok b ∨ outline f x = .error .tooDeep

theorem builds_pure {a : α} {b : γ} (h : f a = b) : Builds f (pure a) b :=
  .inl (congrArg Except.ok h)

theorem Builds.bind {x : Except Complaint α} {k : α → Except Complaint β} {b : γ} {c : δ}
    (h : Builds f x b) (hk : ∀ a, f a = b → Builds g (k a) c) : Builds g (x >>= k) c := by
  cases x with
  | ok a =>
    rcases h with h | h
    · exact hk a (Except.ok.inj h)
    · cases h
  | error e =>
    rcases h with h | h
    · cases h
    · exact .inr (congrArg Except.error (Except.error.inj h))

theorem Builds.checkDepth_bind {depth : Nat} {span : Span} {k : Unit → Except Complaint β} {c : δ}
    (h : Builds g (k ()) c) : Builds g (checkDepth depth span >>= k) c := by
  unfold checkDepth
  split
  · exact .inr rfl
  · exact h

end Builds

/-- The node is built into the expression, at any depth that is not too deep. -/
def BuildsAs (node : Node Symbol) (e : Expr) : Prop :=
  ∀ depth, Builds Expr.bare (exprOf depth node) e.bare

/-! ### Chains -/

/-- Builds a first operand and goes on as `run` does. -/
def buildFirst (run : Nat → Expr → List (Node Symbol) → Except Complaint Expr) (depth : Nat) :
    List (Node Symbol) → Except Complaint Expr
  | [] => .error ⟨.malformed, noSpan⟩
  | first :: rest => do
    let lhs ← exprOf (depth + 1) first
    run depth lhs rest

/-- Building from these parts, and whatever parts follow them, comes down to building from the
expression and the parts that follow. -/
def Folds (run : Nat → Expr → List (Node Symbol) → Except Complaint Expr)
    (parts : List (Node Symbol)) (e : Expr) : Prop :=
  ∀ depth more b, (∀ depth lhs, lhs.bare = e.bare → Builds Expr.bare (run depth lhs more) b) →
    Builds Expr.bare (buildFirst run depth (parts ++ more)) b

section Folds

variable {run : Nat → Expr → List (Node Symbol) → Except Complaint Expr}

theorem BuildsAs.folds {node : Node Symbol} {e : Expr} (h : BuildsAs node e) : Folds run [node] e :=
  fun depth _ _ hmore ↦ (h (depth + 1)).bind fun lhs hlhs ↦ hmore depth lhs hlhs

/-- What goes on with a node goes on with the nodes behind it. -/
theorem Folds.append {parts nodes : List (Node Symbol)} {e e' : Expr} (h : Folds run parts e)
    (hnodes : ∀ depth more b lhs, lhs.bare = e.bare →
      (∀ depth lhs, lhs.bare = e'.bare → Builds Expr.bare (run depth lhs more) b) →
      Builds Expr.bare (run depth lhs (nodes ++ more)) b) : Folds run (parts ++ nodes) e' := by
  intro depth more b hmore
  rw [List.append_assoc]
  exact h depth (nodes ++ more) b fun depth lhs hlhs ↦ hnodes depth more b lhs hlhs hmore

theorem Folds.builds {parts : List (Node Symbol)} {e : Expr} (h : Folds run parts e)
    (hrun : ∀ depth lhs, run depth lhs [] = .ok lhs) (depth : Nat) :
    Builds Expr.bare (buildFirst run depth parts) e.bare := by
  have hall := h depth [] e.bare fun depth lhs hlhs ↦ by
    rw [hrun]
    exact builds_pure hlhs
  rwa [List.append_nil] at hall

end Folds

theorem exprOf_chain {level : Nat} (hlevel : level ∈ [1, 2, 3, 4, 5, 6]) (depth : Nat)
    (parts : List (Node Symbol)) :
    exprOf depth (phraseNode (levelSymbol level) parts) =
      (checkDepth depth noSpan >>= fun _ ↦ buildFirst (chainOf noSpan) depth parts) := by
  rw [phraseNode, exprOf.eq_def]
  simp only [List.mem_cons, List.not_mem_nil, or_false] at hlevel
  rcases hlevel with rfl | rfl | rfl | rfl | rfl | rfl <;> cases parts <;> rfl

theorem exprOf_postfixed (depth : Nat) (parts : List (Node Symbol)) :
    exprOf depth (phraseNode .postfixed parts) =
      (checkDepth depth noSpan >>= fun _ ↦ buildFirst (suffixesOf noSpan) depth parts) := by
  rw [phraseNode, exprOf.eq_def]
  cases parts <;> rfl

theorem exprOf_unary (depth : Nat) (parts : List (Node Symbol)) :
    exprOf depth (phraseNode .unary parts) =
      (checkDepth depth noSpan >>= fun _ ↦ unaryOf noSpan depth [] parts) := by
  rw [phraseNode, exprOf.eq_def]
  rfl

/-! ### Links of chains -/

section Links

variable {parts nodes : List (Node Symbol)} {node : Node Symbol} {e e' : Expr} {items : List Expr}
  {span : Span}

/-- The nodes are built into the expressions, at any depth that is not too deep. -/
def BuildsAll (nodes : List (Node Symbol)) (items : List Expr) : Prop :=
  ∀ depth, Builds Expr.bareAll (exprsOf depth nodes) (Expr.bareAll items)

theorem buildsAll_nil : BuildsAll [] [] :=
  fun _ ↦ builds_pure rfl

theorem BuildsAs.cons (h : BuildsAs node e) (hrest : BuildsAll nodes items) :
    BuildsAll (node :: nodes) (e :: items) := by
  intro depth
  rw [exprsOf]
  refine (h depth).bind fun a ha ↦ (hrest depth).bind fun as has ↦ builds_pure ?_
  rw [Expr.bareAll, Expr.bareAll, ha, has]

theorem Folds.binary (op : BinaryOp) (h : Folds (chainOf noSpan) parts e) (hnode : BuildsAs node e')
    (span : Span) :
    Folds (chainOf noSpan)
      (parts ++ [tokenNode (operatorSymbol op.level) op.symbol.toList, node])
      (.binary span op e e') := by
  refine h.append fun depth more b lhs hlhs hmore ↦ ?_
  have hop : BinaryOp.ofSymbol? (nodeText (tokenNode (operatorSymbol op.level) op.symbol.toList)) =
      some op := by
    simp [nodeText, tokenNode, Node.text]
  simp only [List.cons_append, List.nil_append, chainOf, hop]
  refine .checkDepth_bind ((hnode (depth + 2)).bind fun rhs hrhs ↦ hmore (depth + 1) _ ?_)
  simp only [Expr.bare, hlhs, hrhs]

theorem Folds.call (h : Folds (suffixesOf noSpan) parts e) (hnodes : BuildsAll nodes items)
    (span : Span) :
    Folds (suffixesOf noSpan) (parts ++ [phraseNode .callArgs nodes]) (.call span e items) := by
  refine h.append fun depth more b lhs hlhs hmore ↦ ?_
  rw [List.cons_append, List.nil_append, phraseNode, suffixesOf]
  refine .checkDepth_bind ((hnodes (depth + 2)).bind fun args hargs ↦ hmore (depth + 1) _ ?_)
  simp only [Expr.bare, hlhs, hargs]

theorem Folds.index (h : Folds (suffixesOf noSpan) parts e) (hnode : BuildsAs node e')
    (span : Span) :
    Folds (suffixesOf noSpan) (parts ++ [phraseNode .index [node]]) (.index span e e') := by
  refine h.append fun depth more b lhs hlhs hmore ↦ ?_
  rw [List.cons_append, List.nil_append, phraseNode, suffixesOf]
  refine .checkDepth_bind ((hnode (depth + 2)).bind fun i hi ↦ hmore (depth + 1) _ ?_)
  simp only [Expr.bare, hlhs, hi]

theorem Folds.member (h : Folds (suffixesOf noSpan) parts e) (field : Ident) (span : Span) :
    Folds (suffixesOf noSpan)
      (parts ++ [phraseNode .member [tokenNode .ident field.name.toList]])
      (.member span e field) := by
  refine h.append fun depth more b lhs hlhs hmore ↦ ?_
  rw [List.cons_append, List.nil_append, phraseNode, suffixesOf]
  refine .checkDepth_bind (hmore (depth + 1) _ ?_)
  simp [Expr.bare, Ident.bare, identOf, nodeText, tokenNode, Node.text, hlhs]

end Links

/-! ### Signs -/

/-- The node is no literal that makes one number with the minus in front of it. -/
def NoBound (node : Node Symbol) : Prop :=
  ∀ minus, mostNegative? minus node = none

/-- Building from signs and an operand gives the expression, with any further signs in front. -/
def BuildsSigns (parts : List (Node Symbol)) (e : Expr) : Prop :=
  ∀ depth ops, Builds Expr.bare (unaryOf noSpan depth ops parts) (applyUnary ops e).bare

theorem BuildsAs.signs {node : Node Symbol} {e : Expr} (h : BuildsAs node e)
    (hbound : NoBound node) :
    BuildsSigns [node] e := by
  intro depth ops
  rw [unaryOf, hbound]
  refine (h _).bind fun a ha ↦ .checkDepth_bind (builds_pure ?_)
  exact bare_applyUnary ops ops a e rfl ha

theorem BuildsSigns.cons {parts : List (Node Symbol)} {e : Expr} (h : BuildsSigns parts e)
    (hne : parts ≠ []) (op : UnaryOp) (span : Span) :
    BuildsSigns (tokenNode .unaryOp op.symbol.toList :: parts) (.unary span op e) := by
  intro depth ops
  obtain ⟨part, rest, rfl⟩ := List.exists_cons_of_ne_nil hne
  have hop : (if (tokenNode .unaryOp op.symbol.toList).text == ['!'] then UnaryOp.not else .neg) =
      op := by
    cases op <;> rfl
  have hbuilds := h depth (ops ++ [(op, noSpan)])
  have hbare : (applyUnary (ops ++ [(op, noSpan)]) e).bare =
      (applyUnary ops (.unary span op e)).bare := by
    rw [applyUnary, List.foldr_append]
    exact bare_applyUnary ops ops _ _ rfl rfl
  rw [unaryOf, hop, ← hbare]
  · exact hbuilds
  · exact fun h ↦ absurd h hne

/-! ### Levels -/

/-- An expression is built from the node of a level. The chains of a level may go on. -/
def Constructs (level : Nat) (node : Node Symbol) (e : Expr) : Prop :=
  node = phraseNode (levelSymbol level) node.parts ∧ node.parts ≠ [] ∧
    match level with
    | 0 => BuildsAs node e
    | 7 => BuildsSigns node.parts e
    | 8 => NoBound node ∧ Folds (suffixesOf noSpan) node.parts e
    | _ => Folds (chainOf noSpan) node.parts e

theorem Constructs.buildsAs {level : Nat} (hlevel : level ≤ 8) {node : Node Symbol} {e : Expr}
    (h : Constructs level node e) : BuildsAs node e := by
  obtain ⟨hnode, -, h⟩ := h
  match level, hlevel with
  | 0, _ => exact h
  | 1, _ | 2, _ | 3, _ | 4, _ | 5, _ | 6, _ =>
    intro depth
    rw [hnode, exprOf_chain (by decide)]
    exact .checkDepth_bind (Folds.builds h (fun _ _ ↦ rfl) depth)
  | 7, _ =>
    intro depth
    rw [hnode]
    show Builds _ (exprOf depth (phraseNode .unary _)) _
    rw [exprOf_unary]
    exact .checkDepth_bind (h depth [])
  | 8, _ =>
    intro depth
    rw [hnode]
    show Builds _ (exprOf depth (phraseNode .postfixed _)) _
    rw [exprOf_postfixed]
    exact .checkDepth_bind (h.2.builds (fun _ _ ↦ rfl) depth)

/-- An expression is also built from its node as the only part of a node of the level below. -/
theorem Constructs.lower {level : Nat} (hlevel : level < 8) {node : Node Symbol} {e : Expr}
    (h : Constructs (level + 1) node e) :
    Constructs level (phraseNode (levelSymbol level) [node]) e := by
  have hbuilds := h.buildsAs hlevel
  refine ⟨rfl, List.cons_ne_nil _ _, ?_⟩
  match level, hlevel with
  | 0, _ =>
    intro depth
    show Builds _ (exprOf depth (.mk .expr (0, 0) [] [node])) _
    rw [exprOf]
    exact .checkDepth_bind (hbuilds (depth + 1))
  | 1, _ | 2, _ | 3, _ | 4, _ | 5, _ | 6, _ => exact hbuilds.folds
  | 7, _ => exact hbuilds.signs h.2.2.1

theorem Constructs.raise {level count : Nat} (hlevel : level + count ≤ 8) {node : Node Symbol}
    {e : Expr} (h : Constructs (level + count) node e) :
    Constructs level (raise level count node) e := by
  induction count generalizing level with
  | zero => exact h
  | succ count ih =>
    rw [← Nat.add_assoc, Nat.add_right_comm] at h
    exact (ih (by omega) h).lower (by omega)

/-- A node with another first part than digits is no number. -/
theorem noBound_of_symbol {part : Node Symbol} {parts : List (Node Symbol)}
    (h : part.symbol ≠ .intLit) : NoBound (phraseNode .postfixed (part :: parts)) := by
  intro minus
  obtain ⟨symbol, span, text, nodes⟩ := part
  rw [phraseNode, mostNegative?]
  intro _ _ _ _ _ _ heq
  cases heq
  exact h rfl

theorem noBound_of_two {first second : Node Symbol} {parts : List (Node Symbol)} :
    NoBound (phraseNode .postfixed (first :: second :: parts)) := by
  intro minus
  rw [phraseNode, mostNegative?]
  intro _ _ _ _ _ _ heq
  cases heq

/-! ### Innermost expressions -/

theorem toNat_lt_intBound (value : Int64) : value.toInt.toNat < intBound := by
  have := value.toInt_lt
  simp only [intBound]
  omega

theorem ofNat_toNat {value : Int64} (h : 0 ≤ value.toInt) :
    Int64.ofNat value.toInt.toNat = value := by
  rw [← Int64.ofInt_eq_ofNat, Int.toNat_of_nonneg h, Int64.ofInt_toInt]

theorem buildsAs_literal {value : Literal} (h : value.Printable) (span : Span) :
    BuildsAs (tokenNode value.symbol value.spelling) (.literal span value) := by
  intro depth
  match value, h with
  | .null, _ | .bool true, _ | .bool false, _ => exact .checkDepth_bind (builds_pure rfl)
  | .string s, _ =>
    simp only [tokenNode, Literal.symbol, Literal.spelling, exprOf]
    refine .checkDepth_bind ?_
    simp only [quotedBody?_quoted, (spells_escaped _).unescape]
    exact builds_pure (by simp [Expr.bare])
  | .int value, h =>
    simp only [tokenNode, Literal.symbol, Literal.spelling, exprOf, digitsValue_digits]
    refine .checkDepth_bind ?_
    rw [if_pos (toNat_lt_intBound value), ofNat_toNat h]
    exact builds_pure rfl

theorem noBound_literal {value : Literal} (h : value.Printable) :
    NoBound (phraseNode .postfixed [tokenNode value.symbol value.spelling]) := by
  match value, h with
  | .null, _ | .bool _, _ | .string _, _ => exact noBound_of_symbol Symbol.noConfusion
  | .int value, _ =>
    intro minus
    simp only [phraseNode, tokenNode, Literal.symbol, Literal.spelling, mostNegative?,
      digitsValue_digits, if_neg (Nat.ne_of_lt (toNat_lt_intBound value))]
    split <;> rfl

/-! ### Printed expressions -/

theorem symbol_raise (level count : Nat) {node : Node Symbol}
    (h : node = phraseNode (levelSymbol (level + count)) node.parts) :
    (raise level count node).symbol = levelSymbol level := by
  cases count with
  | zero =>
    rw [h]
    rfl
  | succ count => rfl

namespace Expr

/-- An expression is built from the node of its own level. -/
def BuildsBack (e : Expr) : Prop :=
  ∀ start, Constructs e.level (e.node start) e

/-- An expression is built from its node in every place of the grammar. -/
theorem BuildsBack.constructs {e : Expr} (h : e.BuildsBack) (start : Bool) (min : Nat)
    (hmin : min ≤ 8) : Constructs min (e.nodeAt start min) e := by
  have hle := e.level_le
  have hraise {low : Nat} (start : Bool) (hlow : low ≤ e.level) :
      Constructs low (raise low (e.level - low) (e.node start)) e := by
    have hnode := h start
    rw [← Nat.add_sub_cancel' hlow] at hnode
    exact hnode.raise (by omega)
  rw [nodeAt, lift]
  split
  · have hinner := (hraise false (Nat.zero_le _)).buildsAs (by decide)
    have hsymbol : (raise 0 e.level (e.node false)).symbol = .expr :=
      symbol_raise 0 e.level (by simpa using (h false).1)
    have hparens : Constructs 8 (phraseNode .postfixed [raise 0 e.level (e.node false)]) e :=
      ⟨rfl, List.cons_ne_nil _ _, noBound_of_symbol (by simp [hsymbol]), hinner.folds⟩
    rw [← Nat.add_sub_cancel' hmin] at hparens
    exact hparens.raise (by omega)
  · next hparens =>
    simp only [needsParens, Bool.or_eq_true, decide_eq_true_eq, not_or, Nat.not_lt] at hparens
    exact hraise start hparens.1

theorem BuildsBack.buildsAs {e : Expr} (h : e.BuildsBack) :
    BuildsAs (raise 0 e.level (e.node false)) e :=
  (h.constructs false 0 (by decide)).buildsAs (by decide)

/-- The parts of the left operand of a chain. -/
theorem BuildsBack.folds {e : Expr} (h : e.BuildsBack) (start : Bool) (op : BinaryOp) :
    Folds (chainOf noSpan) (e.nodeAt start op.level).parts e := by
  have hparts := (h.constructs start op.level (Nat.le_of_lt op.level_lt)).2.2
  cases op <;> exact hparts

/-- The parts of the target of a suffix. -/
theorem BuildsBack.target {e : Expr} (h : e.BuildsBack) (start : Bool) :
    Folds (suffixesOf noSpan) (e.nodeAt start 8).parts e :=
  (h.constructs start 8 (by decide)).2.2.2

/-- A target and a suffix are no number. -/
theorem BuildsBack.noBound {e : Expr} (h : e.BuildsBack) (start : Bool) (suffix : Node Symbol) :
    NoBound (phraseNode .postfixed ((e.nodeAt start 8).parts ++ [suffix])) := by
  obtain ⟨first, rest, hparts⟩ :=
    List.exists_cons_of_ne_nil (h.constructs start 8 (by decide)).2.1
  rw [hparts]
  cases rest <;> exact noBound_of_two

mutual

/-- Printable expressions are built from their nodes. -/
theorem buildsBack (e : Expr) (he : e.Printable) : e.BuildsBack := by
  cases e with
  | literal span value =>
    exact fun _ ↦ ⟨rfl, List.cons_ne_nil _ _, noBound_literal he, (buildsAs_literal he span).folds⟩
  | name span n =>
    have hname : BuildsAs (tokenNode .ident n.toList) (.name span n) := fun depth ↦ by
      rw [tokenNode, exprOf]
      exact .checkDepth_bind (builds_pure (by simp [bare]))
    exact fun _ ↦ ⟨rfl, List.cons_ne_nil _ _, noBound_of_symbol Symbol.noConfusion, hname.folds⟩
  | list span items =>
    have hlist : BuildsAs (phraseNode .listLit (nodes items)) (.list span items) := fun depth ↦ by
      rw [phraseNode, exprOf]
      exact .checkDepth_bind ((buildsAll items he _).bind fun es hes ↦
        builds_pure (by simp [bare, hes]))
    exact fun _ ↦ ⟨rfl, List.cons_ne_nil _ _, noBound_of_symbol Symbol.noConfusion, hlist.folds⟩
  | map span entries =>
    have hmap : BuildsAs (phraseNode .mapLit (entryNodes entries)) (.map span entries) :=
      fun depth ↦ by
        rw [phraseNode, exprOf]
        exact .checkDepth_bind ((buildsEntries entries he _).bind fun es hes ↦
          builds_pure (by simp [bare, hes]))
    exact fun _ ↦ ⟨rfl, List.cons_ne_nil _ _, noBound_of_symbol Symbol.noConfusion, hmap.folds⟩
  | unary span op operand =>
    obtain ⟨-, hne, hoperand⟩ := (buildsBack operand he).constructs false 7 (by decide)
    exact fun _ ↦ ⟨rfl, List.cons_ne_nil _ _, hoperand.cons hne op span⟩
  | binary span op lhs rhs =>
    intro start
    have hlhs := (buildsBack lhs he.1).folds start op
    have hrhs := ((buildsBack rhs he.2).constructs false (op.level + 1) op.level_lt).buildsAs
      op.level_lt
    have hfolds := hlhs.binary op hrhs span
    refine ⟨rfl, List.append_ne_nil_of_right_ne_nil _ (List.cons_ne_nil _ _), ?_⟩
    cases op <;> exact hfolds
  | ternary span cond yes no =>
    intro start
    have hcond := ((buildsBack cond he.1).constructs start 1 (by decide)).buildsAs (by decide)
    have hyes := (buildsBack yes he.2.1).buildsAs
    have hno := (buildsBack no he.2.2).buildsAs
    refine ⟨rfl, List.cons_ne_nil _ _, fun depth ↦ ?_⟩
    rw [node, phraseNode, exprOf]
    refine .checkDepth_bind ((hcond _).bind fun c hc ↦ (hyes _).bind fun y hy ↦
      (hno _).bind fun n hn ↦ builds_pure ?_)
    simp only [bare, hc, hy, hn]
  | call span callee args =>
    intro start
    have hcallee := buildsBack callee he.1
    exact ⟨rfl, List.append_ne_nil_of_right_ne_nil _ (List.cons_ne_nil _ _),
      hcallee.noBound start _, (hcallee.target start).call (buildsAll args he.2) span⟩
  | index span target i =>
    intro start
    have htarget := buildsBack target he.1
    exact ⟨rfl, List.append_ne_nil_of_right_ne_nil _ (List.cons_ne_nil _ _),
      htarget.noBound start _, (htarget.target start).index (buildsBack i he.2).buildsAs span⟩
  | member span target field =>
    intro start
    have htarget := buildsBack target he.1
    exact ⟨rfl, List.append_ne_nil_of_right_ne_nil _ (List.cons_ne_nil _ _),
      htarget.noBound start _, (htarget.target start).member field span⟩

theorem buildsAll (items : List Expr) (h : PrintableAll items) : BuildsAll (nodes items) items := by
  cases items with
  | nil => exact buildsAll_nil
  | cons e rest => exact (buildsBack e h.1).buildsAs.cons (buildsAll rest h.2)

theorem buildsEntries (entries : List (Expr × Expr)) (h : PrintableEntries entries) (depth : Nat) :
    Builds bareEntries (entriesOf depth (entryNodes entries)) (bareEntries entries) := by
  match entries, h with
  | [], _ => exact builds_pure rfl
  | (key, value) :: rest, ⟨hkey, hvalue, hrest⟩ =>
    rw [entryNodes, phraseNode, entriesOf]
    refine ((buildsBack key hkey).buildsAs depth).bind fun k hk ↦
      ((buildsBack value hvalue).buildsAs depth).bind fun v hv ↦
      (buildsEntries rest hrest depth).bind fun es hes ↦ builds_pure ?_
    simp only [bareEntries, hk, hv, hes]

end

end Expr

end Snippet.Script
