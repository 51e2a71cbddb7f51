import Snippet.Proofs.UnreadLocals

/-!
# Scripts that differ in one statement

A list of statements of which one is exchanged for another, itself or in a block inside of the list
(`Exchanged`). The relation is open in what makes up a single exchange, which may depend on what
stands behind the statement in its block. So a property that lists hand down to the blocks inside of
them can be used where the exchange takes place (`Exchanged.keeping`).

* `Exchanged.unnoticed`: where the checks have only warnings and report a variable, an exchange of
  the literal with which it is declared has nothing behind it that reads the variable.
-/

namespace Snippet.Script

open Survey

variable {P Q : Stmt → Stmt → List Stmt → Prop} {beyond ss ss' : List Stmt} {x : Ident}

/-- One statement is exchanged for another. `P` says which, and what stands behind it in its block:
the rest of the list and, in the outermost block, what is beyond the list. A statement that stands
alone is a block. -/
inductive Exchanged (P : Stmt → Stmt → List Stmt → Prop) :
    List Stmt → List Stmt → List Stmt → Prop
  | here {beyond s s' rest} (h : P s s' (rest ++ beyond)) :
      Exchanged P beyond (s :: rest) (s' :: rest)
  | later {beyond s rest rest'} (h : Exchanged P beyond rest rest') :
      Exchanged P beyond (s :: rest) (s :: rest')
  | block {beyond span body body' rest} (h : Exchanged P [] body body') :
      Exchanged P beyond (.block span body :: rest) (.block span body' :: rest)
  | yes {beyond span cond yes yes' no rest} (h : Exchanged P [] [yes] [yes']) :
      Exchanged P beyond (.ifElse span cond yes no :: rest) (.ifElse span cond yes' no :: rest)
  | no {beyond span cond yes no no' rest} (h : Exchanged P [] [no] [no']) :
      Exchanged P beyond (.ifElse span cond yes (some no) :: rest)
        (.ifElse span cond yes (some no') :: rest)
  | whileLoop {beyond span cond body body' rest} (h : Exchanged P [] [body] [body']) :
      Exchanged P beyond (.whileLoop span cond body :: rest) (.whileLoop span cond body' :: rest)
  | forEach {beyond span type binding items body body' rest}
      (h : Exchanged P [] [body] [body']) :
      Exchanged P beyond (.forEach span type binding items body :: rest)
        (.forEach span type binding items body' :: rest)

/-- A property that lists of statements hand down to what stands behind their first statement, and
to the blocks inside of it. -/
structure Hereditary (H : List Stmt → Prop) : Prop where
  later : ∀ {s rest}, H (s :: rest) → H rest
  block : ∀ {span body rest}, H (.block span body :: rest) → H body
  yes : ∀ {span cond yes no rest}, H (.ifElse span cond yes no :: rest) → H [yes]
  no : ∀ {span cond yes no rest}, H (.ifElse span cond yes (some no) :: rest) → H [no]
  whileLoop : ∀ {span cond body rest}, H (.whileLoop span cond body :: rest) → H [body]
  forEach : ∀ {span type binding items body rest},
    H (.forEach span type binding items body :: rest) → H [body]

namespace Exchanged

theorem imp (hPQ : ∀ s s' behind, P s s' behind → Q s s' behind) (h : Exchanged P beyond ss ss') :
    Exchanged Q beyond ss ss' := by
  induction h with
  | here h => exact .here (hPQ _ _ _ h)
  | later _ ih => exact .later ih
  | block _ ih => exact .block ih
  | yes _ ih => exact .yes ih
  | no _ ih => exact .no ih
  | whileLoop _ ih => exact .whileLoop ih
  | forEach _ ih => exact .forEach ih

/-- What is handed down comes to the place of the exchange. -/
theorem keeping {H : List Stmt → Prop} (hH : Hereditary H) (h : Exchanged P beyond ss ss')
    (hss : H (ss ++ beyond)) :
    Exchanged (fun s s' behind ↦ P s s' behind ∧ H (s :: behind)) beyond ss ss' := by
  induction h with
  | here h => exact .here ⟨h, hss⟩
  | later _ ih => exact .later (ih (hH.later hss))
  | block _ ih =>
    rw [List.append_nil] at ih
    exact .block (ih (hH.block hss))
  | yes _ ih => exact .yes (ih (hH.yes hss))
  | no _ ih => exact .no (ih (hH.no hss))
  | whileLoop _ ih => exact .whileLoop (ih (hH.whileLoop hss))
  | forEach _ ih => exact .forEach (ih (hH.forEach hss))

end Exchanged

/-! ### Declarations that are all reported -/

theorem toNat_and_le (b c : Bool) : (b && c).toNat ≤ b.toNat := by
  cases b <;> cases c <;> decide

/-- Every declaration in scope counts if all do. -/
theorem ownLocals_le (x : Ident) (counts : List Stmt → Bool) (ss : List Stmt) :
    ownLocals x counts ss ≤ ownLocals x (fun _ ↦ true) ss := by
  induction ss with
  | nil => exact Nat.le_refl 0
  | cons s rest ih =>
    have hs := toNat_and_le (s.declares x) (counts rest)
    rw [ownLocals, ownLocals, Bool.and_true]
    omega

mutual

theorem innerLocals_le (x : Ident) (counts : List Stmt → Bool) : ∀ s : Stmt,
    s.innerLocals x counts ≤ s.innerLocals x (fun _ ↦ true)
  | .block _ body => Nat.add_le_add (innerLocalsOf_le x counts body) (ownLocals_le x counts body)
  | .ifElse _ _ yes none => Nat.add_le_add (innerLocals_le x counts yes) (ownLocals_le x counts _)
  | .ifElse _ _ yes (some no) =>
    Nat.add_le_add (Nat.add_le_add (innerLocals_le x counts yes) (ownLocals_le x counts _))
      (Nat.add_le_add (innerLocals_le x counts no) (ownLocals_le x counts _))
  | .whileLoop _ _ body => Nat.add_le_add (innerLocals_le x counts body) (ownLocals_le x counts _)
  | .forEach _ _ _ _ body =>
    Nat.add_le_add (innerLocals_le x counts body) (ownLocals_le x counts _)
  | .declare .. | .assign .. | .expression .. | .returnWith .. | .throwWith .. | .breakLoop _
  | .continueLoop _ | .empty _ => Nat.le_refl 0

theorem innerLocalsOf_le (x : Ident) (counts : List Stmt → Bool) : ∀ ss : List Stmt,
    innerLocalsOf x counts ss ≤ innerLocalsOf x (fun _ ↦ true) ss
  | [] => Nat.le_refl 0
  | s :: rest => Nat.add_le_add (innerLocals_le x counts s) (innerLocalsOf_le x counts rest)

end

theorem localsOf_le (x : Ident) (counts : List Stmt → Bool) (ss : List Stmt) :
    localsOf x counts ss ≤ localsOf x (fun _ ↦ true) ss :=
  Nat.add_le_add (innerLocalsOf_le x counts ss) (ownLocals_le x counts ss)

/-- No declaration of a variable in these statements is read behind it. -/
def AllUnread (x : Ident) (ss : List Stmt) : Prop :=
  localsOf x (fun _ ↦ true) ss ≤ localsOf x (unread x) ss

theorem localsOf_cons (x : Ident) (counts : List Stmt → Bool) (s : Stmt) (rest : List Stmt) :
    localsOf x counts (s :: rest) =
      s.innerLocals x counts + (s.declares x && counts rest).toNat + localsOf x counts rest := by
  rw [localsOf, localsOf, innerLocalsOf, ownLocals]
  omega

theorem localsOf_singleton (x : Ident) (counts : List Stmt → Bool) (s : Stmt) :
    localsOf x counts [s] = s.innerLocals x counts + ownLocals x counts [s] :=
  rfl

/-- Of a sum of bounds that is reached each one is reached. -/
theorem AllUnread.cons {s : Stmt} {rest : List Stmt} (h : AllUnread x (s :: rest)) :
    s.innerLocals x (fun _ ↦ true) ≤ s.innerLocals x (unread x) ∧
      (s.declares x = true → stmtsMention x.name rest = false) ∧ AllUnread x rest := by
  have hinner := innerLocals_le x (unread x) s
  have hown := toNat_and_le (s.declares x) (unread x rest)
  have hrest := localsOf_le x (unread x) rest
  rw [AllUnread, localsOf_cons, localsOf_cons, Bool.and_true] at h
  refine ⟨by omega, fun hs ↦ ?_, by rw [AllUnread]; omega⟩
  rw [hs, Bool.true_and, Bool.toNat_true] at h hown
  have hcount : 1 ≤ (unread x rest).toNat := by omega
  rw [unread] at hcount
  cases hread : stmtsMention x.name rest with
  | true =>
    rw [hread] at hcount
    exact absurd hcount (by decide)
  | false => rfl

theorem hereditary_allUnread (x : Ident) : Hereditary (AllUnread x) where
  later h := h.cons.2.2
  block h := h.cons.1
  yes {span cond yes no rest} h := by
    have hinner := h.cons.1
    have hyes := localsOf_le x (unread x) [yes]
    cases no with
    | none => exact hinner
    | some no =>
      have hno := localsOf_le x (unread x) [no]
      rw [Stmt.innerLocals, Stmt.innerLocals, ← localsOf_singleton, ← localsOf_singleton,
        ← localsOf_singleton, ← localsOf_singleton] at hinner
      rw [AllUnread]
      omega
  no {span cond yes no rest} h := by
    have hinner := h.cons.1
    have hyes := localsOf_le x (unread x) [yes]
    rw [Stmt.innerLocals, Stmt.innerLocals, ← localsOf_singleton, ← localsOf_singleton,
      ← localsOf_singleton, ← localsOf_singleton] at hinner
    rw [AllUnread]
    omega
  whileLoop h := h.cons.1
  forEach h := h.cons.1

/-! ### Declarations without a complaint -/

/-- The checks find nothing but warnings in these statements, wherever they stand. -/
def Checks (ss : List Stmt) : Prop :=
  ∃ inLoop r s, (checkStmts inLoop r ss s).2.Clean

theorem Checks.cons {s : Stmt} {rest : List Stmt} (h : Checks (s :: rest)) :
    (∃ inLoop survey, (checkStmt inLoop s survey).Clean) ∧ Checks rest := by
  obtain ⟨inLoop, r, survey, hclean⟩ := h
  exact ⟨⟨inLoop, _, (admits_checkStmts inLoop _ rest _).clean hclean⟩, inLoop, _, _, hclean⟩

/-- A statement that stands alone is checked as a list. -/
theorem Checks.alone {inLoop : Bool} {stmt : Stmt} {s : Survey}
    (h : (checkStmt inLoop stmt s).leave.Clean) : Checks [stmt] := by
  refine ⟨inLoop, .reached, s, ?_⟩
  rw [checkStmts_cons, Reach.meet_reached]
  exact clean_of_leave h

theorem hereditary_checks : Hereditary Checks where
  later h := h.cons.2
  block h := by
    obtain ⟨⟨inLoop, s, hclean⟩, -⟩ := h.cons
    exact ⟨inLoop, .reached, s.enter, clean_of_leave hclean⟩
  yes {span cond yes no rest} h := by
    obtain ⟨⟨inLoop, s, hclean⟩, -⟩ := h.cons
    cases no with
    | none => exact .alone hclean
    | some no => exact .alone ((admits_checkStmt inLoop no _).block.clean hclean)
  no h := by
    obtain ⟨⟨inLoop, s, hclean⟩, -⟩ := h.cons
    exact .alone hclean
  whileLoop h := by
    obtain ⟨⟨inLoop, s, hclean⟩, -⟩ := h.cons
    exact .alone hclean
  forEach h := by
    obtain ⟨⟨inLoop, s, hclean⟩, -⟩ := h.cons
    exact .alone (clean_of_leave hclean)

/-- Whether a variable of a type can take a literal. -/
def DeclType.takes (type : DeclType) (value : Literal) : Bool :=
  (literalType? (.literal default value)).any type.accepts

/-- A literal with which a variable is declared without a complaint is one that its type takes. -/
theorem Checks.takes {span literalSpan : Span} {type : DeclType} {name : Ident} {value : Literal}
    {rest : List Stmt}
    (h : Checks (.declare span type name (some (.literal literalSpan value)) :: rest)) :
    type.takes value = true := by
  obtain ⟨⟨inLoop, s, hclean⟩, -⟩ := h.cons
  obtain ⟨found, hfound⟩ : ∃ found, ∀ span, literalType? (.literal span value) = some found := by
    cases value <;> exact ⟨_, fun _ ↦ rfl⟩
  have hassignable : (checkAssignable type (.literal literalSpan value) s).Clean :=
    (Admits.declare type name true _).clean hclean
  rw [DeclType.takes, hfound, Option.any_some]
  rw [checkAssignable, hfound] at hassignable
  dsimp only at hassignable
  split at hassignable
  · assumption
  · split at hassignable
    · exact absurd rfl (clean_complain.1 hassignable).1
    · exact absurd rfl (clean_complain.1 hassignable).1

/-! ### Literals that nothing reads -/

/-- A variable is declared with another literal that its type takes. -/
inductive NewLiteral (x : Ident) : Stmt → Stmt → List Stmt → Prop
  | mk {span type literalSpan literalSpan' value value' behind} (h : type.takes value' = true) :
      NewLiteral x (.declare span type x (some (.literal literalSpan value)))
        (.declare span type x (some (.literal literalSpan' value'))) behind

/-- The same where the type takes both literals, and nothing behind reads the variable. -/
inductive Unnoticed (x : Ident) : Stmt → Stmt → List Stmt → Prop
  | mk {span type literalSpan literalSpan' value value' behind} (h : type.takes value = true)
      (h' : type.takes value' = true) (hread : stmtsMention x.name behind = false) :
      Unnoticed x (.declare span type x (some (.literal literalSpan value)))
        (.declare span type x (some (.literal literalSpan' value'))) behind

theorem Exchanged.unnoticed (h : Exchanged (NewLiteral x) beyond ss ss')
    (hchecks : Checks (ss ++ beyond)) (hunread : AllUnread x (ss ++ beyond)) :
    Exchanged (Unnoticed x) beyond ss ss' := by
  have hboth := (h.keeping hereditary_checks hchecks).keeping (hereditary_allUnread x) hunread
  refine hboth.imp fun s s' behind ⟨⟨hnew, hchecks⟩, hunread⟩ ↦ ?_
  cases hnew with
  | mk h' => exact .mk hchecks.takes h' (hunread.cons.2.1 (decide_eq_true rfl))

/-- A script gets another literal with which a variable is declared. -/
structure Program.Variant (x : Ident) (program program' : Program) : Prop where
  statements : Exchanged (NewLiteral x) program.last program.statements program'.statements
  tail : program'.tail = program.tail

/-- In a script that only gets warnings, with a report on every declaration of a variable, no
literal with which the variable is declared is noticed. -/
theorem Program.Variant.unnoticed {program program' : Program}
    (h : program.Variant x program') (hchecked : ∀ c ∈ check program, c.isError = false)
    (hreported : program.Reports x) :
    Exchanged (Unnoticed x) program.last program.statements program'.statements := by
  refine h.statements.unnoticed ⟨false, .reached, ⟨[[]], []⟩, clean_of_leave fun c hc ↦ ?_⟩
    (Nat.le_trans hreported (count_unusedLocal_le x program))
  rw [check_eq] at hchecked
  exact hchecked c (List.mem_reverse.2 hc)

end Snippet.Script
