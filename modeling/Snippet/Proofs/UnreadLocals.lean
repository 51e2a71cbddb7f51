import Snippet.Proofs.Reports

/-!
# Reports on variables that are never read

When a block ends, the checks report its variables that have not been read. A name cannot be
declared again while a variable of that name is in scope, so what stands behind the declaration in
the block tells whether there is a report: there is one only if nothing there reads the name.

A report names a variable by its name and its place. It does not follow from the shape of a tree
that different variables have different places, so reports are counted: for each name and place
there are at most as many as there are declarations of which the name is not read behind them
(`count_unusedLocal_le`).
-/

namespace Snippet.Script

variable {x : Ident} {s s' s'' : Survey}

/-! ### Counting declarations -/

/-- Whether a statement declares a variable. -/
def Stmt.declares (x : Ident) : Stmt → Bool
  | .declare _ _ name _ => decide (name = x)
  | _ => false

/-- The number of statements of a list that declare a variable, with something behind them that
counts. -/
def ownLocals (x : Ident) (counts : List Stmt → Bool) : List Stmt → Nat
  | [] => 0
  | s :: rest => (s.declares x && counts rest).toNat + ownLocals x counts rest

mutual

/-- The same for the blocks inside of a statement. A statement that stands alone is a block. -/
def Stmt.innerLocals (x : Ident) (counts : List Stmt → Bool) : Stmt → Nat
  | .block _ body => innerLocalsOf x counts body + ownLocals x counts body
  | .ifElse _ _ yes none => yes.innerLocals x counts + ownLocals x counts [yes]
  | .ifElse _ _ yes (some no) =>
    yes.innerLocals x counts + ownLocals x counts [yes] +
      (no.innerLocals x counts + ownLocals x counts [no])
  | .whileLoop _ _ body | .forEach _ _ _ _ body =>
    body.innerLocals x counts + ownLocals x counts [body]
  | _ => 0

/-- The same for the blocks inside of some statements. -/
def innerLocalsOf (x : Ident) (counts : List Stmt → Bool) : List Stmt → Nat
  | [] => 0
  | s :: rest => s.innerLocals x counts + innerLocalsOf x counts rest

end

/-- The number of declarations of a variable in a list of statements and inside of them, with
something behind them in their block that counts. -/
def localsOf (x : Ident) (counts : List Stmt → Bool) (ss : List Stmt) : Nat :=
  innerLocalsOf x counts ss + ownLocals x counts ss

/-- Whether some statements do not read a variable. -/
def unread (x : Ident) (ss : List Stmt) : Bool :=
  !stmtsMention x.name ss

/-! ### Counting reports -/

/-- The report that a variable is never read. -/
abbrev unusedReport (x : Ident) : Complaint :=
  ⟨.unusedLocal x.name, x.span⟩

namespace Survey

/-- The number of reports that a variable is never read. -/
def blamed (x : Ident) (s : Survey) : Nat :=
  s.complaints.count (unusedReport x)

/-- The number of reports on a variable that are made when the `i`th block around ends, unless the
variable is still read. -/
def pending (x : Ident) (i : Nat) (s : Survey) : Nat :=
  (s.scopes.getD i []).countP fun l ↦ decide (unused? l = some (unusedReport x))

theorem unused?_eq_some_iff {l : Local} :
    unused? l = some (unusedReport x) ↔
      l.watched = true ∧ l.used = false ∧ l.name = x.name ∧ l.span = x.span := by
  rw [unused?]
  cases l.watched <;> cases l.used <;> simp

theorem unused?_marked_iff {read : String → Bool} {l : Local} :
    unused? (if read l.name then { l with used := true } else l) = some (unusedReport x) ↔
      read x.name = false ∧ unused? l = some (unusedReport x) := by
  rw [unused?_eq_some_iff, unused?_eq_some_iff]
  cases h : read l.name with
  | true =>
    refine iff_of_false (fun hl ↦ Bool.noConfusion hl.2.1) fun hl ↦ ?_
    rw [← hl.2.2.2.1, h] at hl
    exact Bool.noConfusion hl.1
  | false => exact ⟨fun hl ↦ ⟨hl.2.2.1 ▸ h, hl⟩, And.right⟩

/-- A block that ends turns what is pending into reports. -/
theorem blamed_leave (x : Ident) (s : Survey) :
    s.leave.blamed x = s.blamed x + s.pending x 0 := by
  rw [blamed, blamed, pending, leave]
  split
  · next h => rw [h]; rfl
  · next scope _ h =>
    rw [h, List.count_append, Nat.add_comm]
    congr 1
    rw [List.count, List.countP_filterMap]
    refine List.countP_congr fun l _ ↦ ?_
    cases unused? l <;> simp

theorem pending_leave (x : Ident) (i : Nat) (s : Survey) :
    s.leave.pending x i = s.pending x (i + 1) := by
  rw [pending, pending, leave]
  split
  · next h => rw [h]; rfl
  · next h => rw [h]; rfl

/-- How a check changes the reports on a variable: by reports on its declarations in inner blocks
that have ended, by new declarations in the innermost block that still may be reported, and by the
name being read, after which no declaration so far is reported any more. -/
structure Tallies (x : Ident) (inner own : Nat) (read : Bool) (s s' : Survey) : Prop where
  blamed : s'.blamed x ≤ s.blamed x + inner
  pending : ∀ i, s'.pending x i ≤
    (if read then 0 else s.pending x i) + if i = 0 then own else 0

namespace Tallies

variable {inner inner' own own' : Nat} {read read' : Bool}

theorem trans (h : Tallies x inner own read s s') (h' : Tallies x inner' own' read' s' s'') :
    Tallies x (inner + inner') ((if read' then 0 else own) + own') (read || read') s s'' where
  blamed := by
    have := h.blamed
    have := h'.blamed
    omega
  pending i := by
    have hi := h.pending i
    have hi' := h'.pending i
    cases read' with
    | true =>
      rw [Bool.or_true]
      simpa using hi'
    | false =>
      have hsum : (if i = 0 then own else 0) + (if i = 0 then own' else 0) =
          if i = 0 then own + own' else 0 := by
        split <;> rfl
      rw [Bool.or_false]
      simp only [Bool.false_eq_true, if_false] at hi' ⊢
      omega

/-- Something in front that declares nothing in its block. -/
theorem inFront (h : Tallies x inner 0 read s s') (h' : Tallies x inner' own' read' s' s'') :
    Tallies x (inner + inner') own' (read || read') s s'' := by
  have htrans := h.trans h'
  rwa [ite_self, Nat.zero_add] at htrans

theorem mono (h : Tallies x inner own read s s') (hinner : inner ≤ inner') (hown : own ≤ own') :
    Tallies x inner' own' read s s' where
  blamed := Nat.le_trans h.blamed (Nat.add_le_add_left hinner _)
  pending i := by
    refine Nat.le_trans (h.pending i) (Nat.add_le_add_left ?_ _)
    split
    · exact hown
    · exact Nat.le_refl 0

theorem complain {problem : Problem} (hproblem : problem ≠ .unusedLocal x.name) (span : Span)
    (s : Survey) : Tallies x 0 0 false s (s.complain problem span) where
  blamed := by
    show List.count _ (_ :: _) ≤ _
    rw [List.count_cons_of_ne fun heq ↦ hproblem (congrArg Complaint.problem heq)]
    exact Nat.le_refl _
  pending i := Nat.le_add_right (s.pending x i) _

theorem refl (s : Survey) : Tallies x 0 0 false s s :=
  ⟨Nat.le_refl _, fun i ↦ Nat.le_add_right (s.pending x i) _⟩

/-- The checks of expressions report nothing, and mark what they read. -/
theorem of_marks {read : String → Bool} (h : Marks Problem.notReport read s s') :
    Tallies x 0 0 (read x.name) s s' where
  blamed := Nat.le_of_eq (h.count_eq rfl)
  pending i := by
    have hscope : s'.scopes.getD i [] = (s.scopes.getD i []).map fun l ↦
        if read l.name then { l with used := true } else l := by
      rw [h.scopes, markAll, List.getD_eq_getElem?_getD, List.getD_eq_getElem?_getD,
        List.getElem?_map]
      cases s.scopes[i]? <;> rfl
    rw [Survey.pending, Survey.pending, hscope, List.countP_map]
    cases hread : read x.name with
    | true =>
      rw [List.countP_eq_zero.2 fun l _ hl ↦ ?_]
      · exact Nat.zero_le _
      · have hl := unused?_marked_iff.1 (of_decide_eq_true hl)
        rw [hread] at hl
        exact Bool.noConfusion hl.1
    | false =>
      refine Nat.le_trans (List.countP_mono_left fun l _ hl ↦ ?_) (Nat.le_add_right _ _)
      exact decide_eq_true (unused?_marked_iff.1 (of_decide_eq_true hl)).2

/-- The checks of expressions in front. -/
theorem behind {read : String → Bool} (h : Marks Problem.notReport read s s')
    (h' : Tallies x inner' own' read' s' s'') :
    Tallies x inner' own' (read x.name || read') s s'' :=
  Nat.zero_add inner' ▸ (of_marks h).inFront h'

/-- Leaving a block reports what has been declared there and not been read. -/
theorem block (h : Tallies x inner own read s.enter s') :
    Tallies x (inner + own) 0 read s s'.leave where
  blamed := by
    have hblamed : s'.blamed x ≤ s.blamed x + inner := h.blamed
    have hpending : s'.pending x 0 ≤ (if read then 0 else 0) + own := h.pending 0
    rw [ite_self] at hpending
    rw [blamed_leave]
    omega
  pending i := by
    rw [pending_leave, ite_self]
    exact h.pending (i + 1)

/-- A statement that stands alone is a block. -/
theorem alone {stmt : Stmt} (h : Tallies x inner (stmt.declares x).toNat read s.enter s') :
    Tallies x (inner + ownLocals x (unread x) [stmt]) 0 read s s'.leave := by
  have hown : ownLocals x (unread x) [stmt] = (stmt.declares x).toNat := by
    rw [ownLocals, ownLocals, unread, stmtsMention, Bool.not_false, Bool.and_true, Nat.add_zero]
  rw [hown]
  exact h.block

theorem added (type : DeclType) (name : Ident) (watched : Bool) {scope : List Local}
    {scopes : List (List Local)} (hscopes : s.scopes = scope :: scopes) :
    Tallies x 0 (watched && decide (name = x)).toNat false s
      ⟨(⟨name.name, type, name.span, false, watched⟩ :: scope) :: scopes, s.complaints⟩ := by
  refine ⟨Nat.le_refl _, fun i ↦ ?_⟩
  rw [Survey.pending, Survey.pending, hscopes, if_neg Bool.false_ne_true]
  cases i with
  | zero =>
    rw [List.getD_cons_zero, List.getD_cons_zero, List.countP_cons, if_pos rfl]
    refine Nat.add_le_add_left ?_ _
    split
    · next hnew =>
      obtain ⟨hwatched, -, hname, hspan⟩ := unused?_eq_some_iff.1 (of_decide_eq_true hnew)
      have heq : name = x := by
        cases name
        cases x
        exact congr (congrArg _ hname) hspan
      rw [show watched = true from hwatched, heq, decide_eq_true rfl]
      exact Nat.le_refl 1
    · exact Nat.zero_le _
  | succ i => exact Nat.le_refl _

/-- A declaration may be reported, unless the variable is not watched. -/
theorem declare (type : DeclType) (name : Ident) (watched : Bool) (s : Survey) :
    Tallies x 0 (watched && decide (name = x)).toNat false s (s.declare type name watched) := by
  have hcomplain {problem : Problem} (hproblem : problem ≠ .unusedLocal x.name) (s : Survey) :
      Tallies x 0 (watched && decide (name = x)).toNat false s (s.complain problem name.span) :=
    (Tallies.complain hproblem name.span s).mono (Nat.le_refl 0) (Nat.zero_le _)
  rw [Survey.declare]
  split
  · exact (refl s).mono (Nat.le_refl 0) (Nat.zero_le _)
  · next scope scopes hscopes =>
    split
    · exact hcomplain (by simp) s
    · split
      · exact hcomplain (by simp) s
      · have hadded := added (x := x) type name watched hscopes
        dsimp only
        split
        · refine (hadded.trans (.complain (by simp) name.span _)).mono (Nat.le_refl 0) ?_
          exact Nat.le_refl _
        · exact hadded

theorem meet (r : Reach) (stmt : Stmt) (s : Survey) :
    Tallies x 0 0 false s (r.meet stmt s).2 := by
  rw [Reach.meet]
  split
  · exact refl s
  · cases r with
    | lost => exact .complain (by simp) stmt.span s
    | _ => exact refl s

end Tallies

end Survey

open Survey

mutual

/-- The checks of a statement report no more of its declarations than those that nothing behind
them reads. -/
theorem tallies_checkStmt (x : Ident) : ∀ (inLoop : Bool) (stmt : Stmt) (s : Survey),
    Tallies x (stmt.innerLocals x (unread x)) (stmt.declares x).toNat (stmt.mentions x.name) s
      (checkStmt inLoop stmt s)
  | _, .declare _ type name none, s => .declare type name true s
  | _, .declare _ type name (some value), s => by
    have hvalue := (marks_checkExpr value s).trans (marks_checkAssignable type value _)
    have hdeclare := Tallies.declare (x := x) type name true
      (checkAssignable type value (checkExpr value s))
    have hboth := Tallies.behind hvalue hdeclare
    rwa [Bool.or_false, Bool.or_false] at hboth
  | _, .assign _ root path op value, s => .of_marks (marks_checkAssignment root path op value s)
  | _, .expression _ value, s => .of_marks (marks_checkExpr value s)
  | inLoop, .block _ body, s => (tallies_checkStmts x inLoop .reached body s.enter).block
  | inLoop, .ifElse _ cond yes none, s => by
    have hyes := (tallies_checkStmt x inLoop yes (checkExpr cond s).enter).alone
    exact Tallies.behind (marks_checkExpr cond s) hyes
  | inLoop, .ifElse _ cond yes (some no), s => by
    have hyes := (tallies_checkStmt x inLoop yes (checkExpr cond s).enter).alone
    have hno := (tallies_checkStmt x inLoop no
      (checkStmt inLoop yes (checkExpr cond s).enter).leave.enter).alone
    exact (Tallies.behind (marks_checkExpr cond s) hyes).inFront hno
  | _, .whileLoop _ cond body, s => by
    have hbody := (tallies_checkStmt x true body (checkExpr cond s).enter).alone
    exact Tallies.behind (marks_checkExpr cond s) hbody
  | _, .forEach _ type binding items body, s => by
    have hbinding := Tallies.declare (x := x) type binding false (checkExpr items s).enter
    have hbody := (tallies_checkStmt x true body
      ((checkExpr items s).enter.declare type binding false).enter).alone
    have hround := (hbinding.inFront hbody).block
    rw [Nat.zero_add, Nat.add_zero, Bool.false_or] at hround
    exact Tallies.behind (marks_checkExpr items s) hround
  | _, .returnWith _ none, s => .refl s
  | _, .returnWith _ (some value), s => .of_marks (marks_checkExpr value s)
  | _, .throwWith _ value, s => .of_marks (marks_checkExpr value s)
  | true, .breakLoop _, s | true, .continueLoop _, s => .refl s
  | false, .breakLoop span, s | false, .continueLoop span, s => .complain (by simp) span s
  | _, .empty _, s => .refl s

/-- So do the checks of statements one after the other. -/
theorem tallies_checkStmts (x : Ident) : ∀ (inLoop : Bool) (r : Reach) (ss : List Stmt)
    (s : Survey),
    Tallies x (innerLocalsOf x (unread x) ss) (ownLocals x (unread x) ss)
      (stmtsMention x.name ss) s (checkStmts inLoop r ss s).2
  | _, _, [], s => .refl s
  | inLoop, r, stmt :: rest, s => by
    have hmeet := Tallies.meet (x := x) r stmt s
    have hstmt := tallies_checkStmt x inLoop stmt (r.meet stmt s).2
    have hrest := tallies_checkStmts x inLoop ((r.meet stmt s).1.behind stmt.diverges) rest
      (checkStmt inLoop stmt (r.meet stmt s).2)
    have hall := (hmeet.inFront hstmt).trans hrest
    rw [Nat.zero_add, Bool.false_or] at hall
    have hown : (if stmtsMention x.name rest then 0 else (stmt.declares x).toNat) =
        (stmt.declares x && unread x rest).toNat := by
      rw [unread]
      cases stmtsMention x.name rest <;> cases stmt.declares x <;> rfl
    rw [hown] at hall
    exact hall

end

/-! ### Counting reports on a script -/

/-- The expression at the end of a script, as a statement. -/
def Program.last (program : Program) : List Stmt :=
  program.tail.toList.map fun e ↦ .expression e.span e

/-- The statements of a script and, as one more of them, the expression at its end. -/
def Program.whole (program : Program) : List Stmt :=
  program.statements ++ program.last

theorem checkStmts_append (inLoop : Bool) (r : Reach) (ss ss' : List Stmt) (s : Survey) :
    checkStmts inLoop r (ss ++ ss') s =
      checkStmts inLoop (checkStmts inLoop r ss s).1 ss' (checkStmts inLoop r ss s).2 := by
  induction ss generalizing r s with
  | nil => rfl
  | cons stmt rest ih => rw [List.cons_append, checkStmts_cons, checkStmts_cons, ih]

/-- The expression at the end of a script is checked like one more statement. -/
theorem check_eq (program : Program) :
    check program =
      (checkStmts false .reached program.whole ⟨[[]], []⟩).2.leave.complaints.reverse := by
  rw [check, Program.whole, checkStmts_append, Program.last]
  generalize checkStmts false .reached program.statements ⟨[[]], []⟩ = last
  obtain ⟨r, s⟩ := last
  cases program.tail with
  | none => rfl
  | some e => rfl

/-- The number of declarations of a variable in a script, inner blocks included. -/
def Program.declarations (x : Ident) (program : Program) : Nat :=
  localsOf x (fun _ ↦ true) program.whole

/-- Every declaration of a variable is reported: there are as many reports as declarations. -/
def Program.Reports (x : Ident) (program : Program) : Prop :=
  program.declarations x ≤ (check program).count (unusedReport x)

/-- Where a variable is declared once, this is to say that there is a report. -/
theorem Program.reports_of_mem {program : Program} (honce : program.declarations x = 1)
    (h : unusedReport x ∈ check program) : program.Reports x := by
  rw [Reports, honce]
  exact List.count_pos_iff.2 h

/-- A variable is reported at most as often as it is declared without being read behind that. -/
theorem count_unusedLocal_le (x : Ident) (program : Program) :
    (check program).count (unusedReport x) ≤ localsOf x (unread x) program.whole := by
  have hall := tallies_checkStmts x false .reached program.whole ⟨[[]], []⟩
  have hended : Tallies x (localsOf x (unread x) program.whole) 0
      (stmtsMention x.name program.whole) ⟨[], []⟩
      (checkStmts false .reached program.whole ⟨[[]], []⟩).2.leave :=
    Tallies.block (s := ⟨[], []⟩) hall
  rw [check_eq, List.count_reverse]
  exact Nat.le_trans hended.blamed (Nat.le_of_eq (Nat.zero_add _))

end Snippet.Script
