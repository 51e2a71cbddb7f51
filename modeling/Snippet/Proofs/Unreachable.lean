import Snippet.Proofs.Divergence
import Snippet.Proofs.Reports

/-!
# Reports on code that is not reached

The checks report the first statement behind one that diverges, once for each list of statements,
and in the same way the expression behind the statements of a script. What is so reported is never
executed (`reported_never_executed`).

A report names a place. It does not follow from the shape of a tree that different statements stand
at different places, so reports are counted: at each place there are at most as many as there are
statements that a diverging one keeps from being reached (`count_unreachable_add_le`).
-/

namespace Snippet.Script

variable {place : Span} {s s' : Survey}

/-! ### Counting reports -/

namespace Survey

/-- The number of reports that the code at a place is not reached. -/
def told (place : Span) (s : Survey) : Nat :=
  s.complaints.count ⟨.unreachable, place⟩

@[simp]
theorem told_enter (place : Span) (s : Survey) : s.enter.told place = s.told place :=
  rfl

/-- Checks that report nothing do not report this either. -/
theorem Marks.told_eq {read : String → Bool} (h : Marks Problem.notReport read s s')
    (place : Span) :
    s'.told place = s.told place :=
  h.count_eq rfl

/-- What is said at the end of a block is about variables. -/
@[simp]
theorem told_leave (place : Span) (s : Survey) : s.leave.told place = s.told place := by
  rw [leave]
  split
  · rfl
  · refine count_append_of_notMem (fun hmem ↦ ?_) _
    obtain ⟨l, -, hl⟩ := List.mem_filterMap.1 hmem
    rw [unused?] at hl
    split at hl <;> cases hl

@[simp]
theorem told_declare (place : Span) (type : DeclType) (name : Ident) (watched : Bool)
    (s : Survey) : (s.declare type name watched).told place = s.told place := by
  rw [declare]
  split
  · rfl
  · split
    · exact (Marks.complain rfl name.span s).told_eq place
    · split
      · exact (Marks.complain rfl name.span s).told_eq place
      · dsimp only
        split
        · exact (Marks.complain rfl name.span _).told_eq place
        · rfl

end Survey

/-- One report is made at most, and only at this place. -/
theorem Reach.told_tell_le (place span : Span) (r : Reach) (s : Survey) :
    (r.tell span s).2.told place ≤ s.told place + if span = place then 1 else 0 := by
  cases r with
  | reached => exact Nat.le_add_right _ _
  | told => exact Nat.le_add_right _ _
  | lost =>
    show List.count _ (_ :: _) ≤ _
    rw [List.count_cons]
    refine Nat.add_le_add_left ?_ _
    by_cases h : span = place
    · rw [if_pos h]
      split <;> decide
    · rw [if_neg fun heq ↦ h (congrArg Complaint.span (eq_of_beq heq))]
      exact Nat.zero_le _

/-- Where a list is not reached, it stays so. -/
theorem Reach.meet_of_ne (place : Span) {r : Reach} (hr : r ≠ .reached) (stmt : Stmt)
    (s : Survey) :
    (r.meet stmt s).1 ≠ .reached ∧
      (r.meet stmt s).2.told place ≤ s.told place + if stmt.span = place then 1 else 0 := by
  rw [meet]
  split
  · exact ⟨hr, Nat.le_add_right _ _⟩
  · refine ⟨?_, told_tell_le place stmt.span r s⟩
    cases r with
    | reached => exact absurd rfl hr
    | _ => exact Reach.noConfusion

theorem Reach.behind_ne {r : Reach} (hr : r ≠ .reached) (diverges : Bool) :
    r.behind diverges ≠ .reached := by
  cases r with
  | reached => exact absurd rfl hr
  | _ => exact Reach.noConfusion

/-- The number of these statements that stand at a place. -/
def standing (place : Span) (ss : List Stmt) : Nat :=
  ss.countP (·.span = place)

theorem standing_cons (place : Span) (s : Stmt) (ss : List Stmt) :
    standing place (s :: ss) = standing place ss + if s.span = place then 1 else 0 := by
  rw [standing, List.countP_cons]
  simp [standing]

theorem standing_append (place : Span) (ss ss' : List Stmt) :
    standing place (ss ++ ss') = standing place ss + standing place ss' :=
  List.countP_append

theorem standing_withinAll_cons (place : Span) (past : Bool) (s : Stmt) (rest : List Stmt) :
    standing place (withinAll past (s :: rest)) =
      standing place (s.inside past) + (if s.span = place then 1 else 0) +
        if s.diverges && !past then 0 else standing place (withinAll past rest) := by
  rw [withinAll, standing_append, standing_cons, apply_ite (standing place)]
  rfl

open Survey

mutual

/-- At each place the checks of a statement make at most as many reports as there are statements
inside of it that are not reached. -/
theorem told_checkStmt (place : Span) : ∀ (inLoop : Bool) (stmt : Stmt) (s : Survey),
    (checkStmt inLoop stmt s).told place + standing place (stmt.inside false) ≤
      s.told place + standing place (stmt.inside true)
  | _, .declare _ type name none, s => Nat.le_of_eq (told_declare place type name true s)
  | _, .declare _ type name (some value), s => by
    have hvalue := (marks_checkExpr value s).trans (marks_checkAssignable type value _)
    exact Nat.le_of_eq ((told_declare place type name true _).trans (hvalue.told_eq place))
  | _, .assign _ root path op value, s =>
    Nat.le_of_eq ((marks_checkAssignment root path op value s).told_eq place)
  | _, .expression _ value, s => Nat.le_of_eq ((marks_checkExpr value s).told_eq place)
  | inLoop, .block _ body, s => by
    have hbody := told_checkStmts place inLoop .reached body s.enter
    rw [if_pos rfl, told_enter] at hbody
    rw [checkStmt, told_leave]
    exact hbody
  | inLoop, .ifElse _ cond yes none, s => by
    have hcond := (marks_checkExpr cond s).told_eq place
    have hyes := told_checkStmt place inLoop yes (checkExpr cond s).enter
    rw [checkStmt, told_leave, Stmt.inside, Stmt.inside, standing_cons, standing_cons]
    rw [told_enter, hcond] at hyes
    omega
  | inLoop, .ifElse _ cond yes (some no), s => by
    have hcond := (marks_checkExpr cond s).told_eq place
    have hyes := told_checkStmt place inLoop yes (checkExpr cond s).enter
    have hno := told_checkStmt place inLoop no
      (checkStmt inLoop yes (checkExpr cond s).enter).leave.enter
    rw [checkStmt, told_leave, Stmt.inside, Stmt.inside, standing_append, standing_append,
      standing_cons, standing_cons, standing_cons, standing_cons]
    rw [told_enter, hcond] at hyes
    rw [told_enter, told_leave] at hno
    omega
  | _, .whileLoop _ cond body, s => by
    have hcond := (marks_checkExpr cond s).told_eq place
    have hbody := told_checkStmt place true body (checkExpr cond s).enter
    rw [checkStmt, told_leave, Stmt.inside, Stmt.inside, standing_cons, standing_cons]
    rw [told_enter, hcond] at hbody
    omega
  | _, .forEach _ type binding items body, s => by
    have hitems := (marks_checkExpr items s).told_eq place
    have hbody := told_checkStmt place true body
      ((checkExpr items s).enter.declare type binding false).enter
    rw [checkStmt, told_leave, told_leave, Stmt.inside, Stmt.inside, standing_cons, standing_cons]
    rw [told_enter, told_declare, told_enter, hitems] at hbody
    omega
  | _, .returnWith _ none, s => Nat.le_refl _
  | _, .returnWith _ (some value), s => Nat.le_of_eq ((marks_checkExpr value s).told_eq place)
  | _, .throwWith _ value, s => Nat.le_of_eq ((marks_checkExpr value s).told_eq place)
  | true, .breakLoop _, s | true, .continueLoop _, s => Nat.le_refl _
  | false, .breakLoop span, s | false, .continueLoop span, s => by
    have hcomplain : Marks Problem.notReport (fun _ ↦ false) s (s.complain .noEnclosingLoop span) :=
      .complain rfl span s
    exact Nat.le_of_eq (hcomplain.told_eq place)
  | _, .empty _, s => Nat.le_refl _

/-- So do the checks of a list. Where the list is not reached, none of its statements is. -/
theorem told_checkStmts (place : Span) : ∀ (inLoop : Bool) (r : Reach) (ss : List Stmt)
    (s : Survey),
    (checkStmts inLoop r ss s).2.told place +
        (if r = .reached then standing place (withinAll false ss) else 0) ≤
      s.told place + standing place (withinAll true ss)
  | _, r, [], s => by
    show s.told place + (if r = .reached then 0 else 0) ≤ s.told place + 0
    exact Nat.le_of_eq (congrArg _ (ite_self 0))
  | inLoop, r, stmt :: rest, s => by
    have hstmt := told_checkStmt place inLoop stmt (r.meet stmt s).2
    have hrest := told_checkStmts place inLoop ((r.meet stmt s).1.behind stmt.diverges) rest
      (checkStmt inLoop stmt (r.meet stmt s).2)
    rw [checkStmts_cons, standing_withinAll_cons, standing_withinAll_cons, Bool.not_true,
      Bool.and_false, if_neg Bool.false_ne_true]
    by_cases hr : r = .reached
    · subst hr
      rw [Reach.meet_reached] at hstmt hrest ⊢
      dsimp only at hstmt hrest ⊢
      simp only [Bool.not_false, Bool.and_true, if_true]
      cases hdiverges : stmt.diverges with
      | true =>
        have hbehind : Reach.behind true .reached = .lost := rfl
        rw [hdiverges, hbehind, if_neg Reach.noConfusion] at hrest
        rw [hbehind, if_pos rfl]
        omega
      | false =>
        have hbehind : Reach.behind false .reached = .reached := rfl
        rw [hdiverges, hbehind, if_pos rfl] at hrest
        rw [hbehind, if_neg Bool.false_ne_true]
        omega
    · obtain ⟨hne, htold⟩ := Reach.meet_of_ne place hr stmt s
      rw [if_neg hr]
      rw [if_neg (Reach.behind_ne hne _)] at hrest
      omega

end

/-- The end of a list without a diverging statement is reached. -/
theorem reached_checkStmts (inLoop : Bool) {ss : List Stmt} (h : anyDiverges ss = false)
    (s : Survey) : (checkStmts inLoop .reached ss s).1 = .reached := by
  induction ss generalizing s with
  | nil => rfl
  | cons stmt rest ih =>
    obtain ⟨hstmt, hrest⟩ := Bool.or_eq_false_iff.1 h
    rw [checkStmts_cons, Reach.meet_reached, hstmt]
    exact ih hrest _

/-! ### Counting reports on a script -/

namespace Program

/-- Whether a script ends in an expression at a place. -/
def endsAt (place : Span) (program : Program) : Bool :=
  program.tail.any (·.span = place)

/-- How many statements of a script stand at a place, and expressions at its end. -/
def standingAt (place : Span) (program : Program) : Nat :=
  standing place (withinAll true program.statements) + (program.endsAt place).toNat

/-- How many of these stand behind no diverging statement. -/
def reachedAt (place : Span) (program : Program) : Nat :=
  standing place (withinAll false program.statements) +
    if anyDiverges program.statements then 0 else (program.endsAt place).toNat

end Program

/-- At each place at most those statements are reported that a diverging one keeps from being
reached. -/
theorem count_unreachable_add_le (place : Span) (program : Program) :
    (check program).count ⟨.unreachable, place⟩ + program.reachedAt place ≤
      program.standingAt place := by
  have hlist := told_checkStmts place false .reached program.statements ⟨[[]], []⟩
  have hend (h : anyDiverges program.statements = false) :
      (checkStmts false .reached program.statements ⟨[[]], []⟩).1 = .reached :=
    reached_checkStmts false h _
  rw [if_pos rfl] at hlist
  rw [check, Program.reachedAt, Program.standingAt, List.count_reverse]
  have hstart : Survey.told place ⟨[[]], []⟩ = 0 := rfl
  rw [hstart, Nat.zero_add] at hlist
  generalize checkStmts false .reached program.statements ⟨[[]], []⟩ = last at hlist hend ⊢
  obtain ⟨r, s⟩ := last
  dsimp only at hlist hend ⊢
  show Survey.told place (Survey.leave _) + _ ≤ _
  rw [told_leave]
  rcases htail : program.tail with - | e
  · have hnone : program.endsAt place = false := by rw [Program.endsAt, htail]; rfl
    rw [hnone, Bool.toNat_false, ite_self]
    exact hlist
  · have hends : (program.endsAt place).toNat = if e.span = place then 1 else 0 := by
      rw [Program.endsAt, htail, Option.any_some]
      by_cases h : e.span = place <;> simp [h]
    have hexpr := (marks_checkExpr e (r.tell e.span s).2).told_eq place
    have htell := Reach.told_tell_le place e.span r s
    dsimp only
    rw [hexpr, hends]
    cases hdiverges : anyDiverges program.statements with
    | true =>
      rw [if_pos rfl]
      omega
    | false =>
      obtain rfl := hend hdiverges
      rw [if_neg Bool.false_ne_true]
      show s.told place + _ ≤ _
      omega

end Snippet.Script

namespace Snippet.Run

open Script (Expr Program Stmt standing withinAll)

/-- A run takes up a statement at this place, or comes to the expression at its end, which stands
there. -/
inductive Executes (setting : Setting) (program : Program) (outbox : Outbox) : Span → Prop
  | statement {trace r e s} (h : RunsOf setting program outbox trace r) (he : e ∈ trace)
      (hs : e.task = .stmt s) : Executes setting program outbox s.span
  | tail {e m} (htail : program.tail = some e)
      (h : execAll setting program.statements (.start outbox) = .ok none m) :
      Executes setting program outbox e.span

/-- What is executed stands behind no diverging statement. -/
theorem reachedAt_pos_of_executes {setting : Setting} {program : Program} {outbox : Outbox}
    {place : Span} (hp : program.WellScoped) (h : Executes setting program outbox place) :
    0 < program.reachedAt place := by
  cases h with
  | statement h he hs =>
    rename_i s
    have hmem := h.staysIn_top hp.statements (.start outbox) _ he s hs
    have hpos : 0 < standing s.span (withinAll false program.statements) :=
      List.countP_pos_iff.2 ⟨s, hmem, decide_eq_true rfl⟩
    rw [Program.reachedAt]
    omega
  | tail htail h =>
    rename_i e _
    have hends : program.endsAt e.span = true := by
      rw [Program.endsAt, htail]
      exact decide_eq_true rfl
    rw [Program.reachedAt, anyDiverges_of_execAll hp h, if_neg Bool.false_ne_true, hends]
    exact Nat.lt_add_left _ Nat.one_pos

/-- **Unreachable code is not executed.** A list of statements, executed as a block, does the same
without those behind one that diverges. In a script of which the checks only give warnings this
holds at the top level too, where the expression at the end is dropped with them. Where all that
stands at a place is reported not to be reached, nothing there is ever executed. -/
theorem unreachable_not_executed :
    (∀ {ss : List Stmt} {i : Nat} {s : Stmt}, ss[i]? = some s → s.diverges = true →
      ∀ (setting : Setting) (m : Machine),
        execBlock setting ss m = execBlock setting (ss.take (i + 1)) m) ∧
    ∀ {program : Program}, (∀ c ∈ Script.check program, c.isError = false) →
      (∀ {i : Nat} {s : Stmt}, program.statements[i]? = some s → s.diverges = true →
        ∀ (setting : Setting) (outbox : Outbox),
          run setting ⟨program.statements.take (i + 1), none⟩ outbox =
            run setting program outbox) ∧
      ∀ {place : Span},
        program.standingAt place ≤ (Script.check program).count ⟨.unreachable, place⟩ →
        ∀ (setting : Setting) (outbox : Outbox), ¬ Executes setting program outbox place := by
  refine ⟨fun hs h setting m ↦ congrFun (execBlock_take hs h) m, fun {program} hchecked ↦ ?_⟩
  have hp := Script.check_sound hchecked
  refine ⟨fun hs h ↦ run_take hp hs h, fun {place} hall setting outbox hexecuted ↦ ?_⟩
  have hcount := Script.count_unreachable_add_le place program
  have hpos := reachedAt_pos_of_executes hp hexecuted
  omega

/-- The statements of the block `{ return 1; emitReply("lost"); }`. -/
def afterReturn : List Stmt :=
  [.returnWith ⟨2, 11⟩ (some (.literal ⟨9, 10⟩ (.int 1))),
    .expression ⟨12, 30⟩
      (.call ⟨12, 29⟩ (.name ⟨12, 21⟩ "emitReply") [.literal ⟨22, 28⟩ (.string "lost")])]

/-- The script `{ return 1; emitReply("lost"); } emitReply("also"); 2`. -/
def leavingEarly : Program where
  statements :=
    [.block ⟨0, 32⟩ afterReturn,
      .expression ⟨33, 51⟩
        (.call ⟨33, 50⟩ (.name ⟨33, 42⟩ "emitReply") [.literal ⟨43, 49⟩ (.string "also")])]
  tail := some (.literal ⟨52, 53⟩ (.int 2))

/-- Both replies are reported, the one inside of the block and the one behind it. -/
theorem unreachable_not_executed_leavingEarly :
    (∀ c ∈ Script.check leavingEarly, c.isError = false) ∧
      (∀ setting m, execBlock setting afterReturn m = execBlock setting (afterReturn.take 1) m) ∧
      (∀ setting outbox, run setting ⟨leavingEarly.statements.take 1, none⟩ outbox =
        run setting leavingEarly outbox) ∧
      ∀ place ∈ [⟨12, 30⟩, ⟨33, 51⟩], ∀ setting outbox,
        ¬ Executes setting leavingEarly outbox place := by
  have hchecked : ∀ c ∈ Script.check leavingEarly, c.isError = false := by decide +kernel
  have hall : ∀ place ∈ ([⟨12, 30⟩, ⟨33, 51⟩] : List Span), leavingEarly.standingAt place ≤
      (Script.check leavingEarly).count ⟨.unreachable, place⟩ := by decide +kernel
  have hreturn :
      (afterReturn[0]?) = some (.returnWith ⟨2, 11⟩ (some (.literal ⟨9, 10⟩ (.int 1)))) := rfl
  have hblock : leavingEarly.statements[0]? = some (.block ⟨0, 32⟩ afterReturn) := rfl
  obtain ⟨hlist, hscript⟩ := unreachable_not_executed
  obtain ⟨hrun, hexecuted⟩ := hscript hchecked
  exact ⟨hchecked, hlist hreturn rfl, hrun hblock rfl, fun place hplace ↦
    hexecuted (hall place hplace)⟩

end Snippet.Run
