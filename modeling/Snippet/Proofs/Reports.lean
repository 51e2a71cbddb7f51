import Snippet.Proofs.WellScoped

/-!
# What the checks of an expression leave behind

Two of the complaints are reports on the script as a whole: code that is never reached, and
variables that are never read. Expressions add neither (`Problem.isReport`): what is said about
them is that a name or a call is used wrongly (`Problem.isUse`). All that they do to the variables
in scope is to mark those they mention as read. This module says so, once, as an equation for the
scopes (`Marks`), so that nothing about complaints of other kinds has to look at expressions again.

* `uses_checkExpr`: the checks of an expression mark exactly the names that it mentions, and find
  fault with uses only.
-/

namespace Snippet.Script

/-! ### The names that are read -/

mutual

/-- Whether a name is read in an expression. The name of what is called counts as read. -/
def Expr.mentions (x : String) : Expr → Bool
  | .literal _ _ => false
  | .name _ name => name == x
  | .list _ items => anyMentions x items
  | .map _ entries => entriesMention x entries
  | .unary _ _ operand => operand.mentions x
  | .binary _ _ lhs rhs => lhs.mentions x || rhs.mentions x
  | .ternary _ cond yes no => cond.mentions x || yes.mentions x || no.mentions x
  | .call _ callee args => anyMentions x args || callee.mentions x
  | .index _ target index => target.mentions x || index.mentions x
  | .member _ target _ => target.mentions x

/-- Whether a name is read in one of some expressions. -/
def anyMentions (x : String) : List Expr → Bool
  | [] => false
  | e :: rest => e.mentions x || anyMentions x rest

/-- Whether a name is read in an entry of a map. -/
def entriesMention (x : String) : List (Expr × Expr) → Bool
  | [] => false
  | (k, v) :: rest => k.mentions x || v.mentions x || entriesMention x rest

end

/-- Whether a name is read in an index of a path. -/
def pathMentions (x : String) : List Accessor → Bool
  | [] => false
  | .index e :: rest => e.mentions x || pathMentions x rest
  | .member _ :: rest => pathMentions x rest

/-- Whether an assignment only sets a variable, and so does not read it. -/
def AssignOp.overwrites (op : AssignOp) (path : List Accessor) : Bool :=
  decide (op = .set ∧ path.isEmpty)

/-- Whether a name is read in an assignment. -/
def assignmentMentions (x : String) (root : Ident) (path : List Accessor) (op : AssignOp)
    (value : Expr) : Bool :=
  value.mentions x || pathMentions x path || !op.overwrites path && root.name == x

mutual

/-- Whether a name is read in a statement or inside of it. -/
def Stmt.mentions (x : String) : Stmt → Bool
  | .declare _ _ _ (some e) | .expression _ e | .returnWith _ (some e) | .throwWith _ e =>
    e.mentions x
  | .assign _ root path op value => assignmentMentions x root path op value
  | .block _ body => stmtsMention x body
  | .ifElse _ cond yes none => cond.mentions x || yes.mentions x
  | .ifElse _ cond yes (some no) => cond.mentions x || yes.mentions x || no.mentions x
  | .whileLoop _ cond body => cond.mentions x || body.mentions x
  | .forEach _ _ _ items body => items.mentions x || body.mentions x
  | _ => false

/-- Whether a name is read in one of some statements or inside of it. -/
def stmtsMention (x : String) : List Stmt → Bool
  | [] => false
  | s :: rest => s.mentions x || stmtsMention x rest

end

theorem stmtsMention_append (x : String) (ss ss' : List Stmt) :
    stmtsMention x (ss ++ ss') = (stmtsMention x ss || stmtsMention x ss') := by
  induction ss with
  | nil => rfl
  | cons s rest ih => rw [List.cons_append, stmtsMention, stmtsMention, ih, Bool.or_assoc]

/-! ### Marks -/

/-- Whether this is a report on code that is not reached, or on a variable that is not read. -/
def Problem.isReport : Problem → Bool
  | .unreachable | .unusedLocal _ => true
  | _ => false

/-- Whether this is no such report. -/
def Problem.notReport (problem : Problem) : Bool :=
  !problem.isReport

/-- Whether this finds fault with the use of a name or a call. -/
def Problem.isUse : Problem → Bool
  | .unknownName _ | .helperAsValue _ | .variableInvoked _ => true
  | .wrongArity _ _ | .noSuchMethod _ | .notInvocable => true
  | _ => false

theorem Problem.notReport_of_isUse {problem : Problem} (h : problem.isUse = true) :
    problem.notReport = true := by
  cases problem <;> first | rfl | cases h

namespace Survey

variable {made : Problem → Bool} {s s' s'' : Survey} {read read' : String → Bool}
  {problem : Problem} {span : Span}

/-- Notes that the variables of some names are read. -/
def markAll (read : String → Bool) (scopes : List (List Local)) : List (List Local) :=
  scopes.map (·.map fun l ↦ if read l.name then { l with used := true } else l)

/-- A check marks the names that are read, and makes complaints of some kinds only. -/
structure Marks (made : Problem → Bool) (read : String → Bool) (s s' : Survey) : Prop where
  scopes : s'.scopes = markAll read s.scopes
  complaints : ∃ new, s'.complaints = new ++ s.complaints ∧ ∀ c ∈ new, made c.problem = true

theorem markAll_markAll (scopes : List (List Local)) :
    markAll read' (markAll read scopes) = markAll (fun x ↦ read x || read' x) scopes := by
  rw [markAll, markAll, markAll, List.map_map]
  refine List.map_congr_left fun scope _ ↦ ?_
  show (scope.map _).map _ = _
  rw [List.map_map]
  refine List.map_congr_left fun l _ ↦ ?_
  show (if read' (if read l.name then { l with used := true } else l).name then _ else _) = _
  cases h : read l.name <;> cases h' : read' l.name <;> simp [h, h']

theorem markAll_of_forall {scopes : List (List Local)}
    (h : ∀ scope ∈ scopes, ∀ l ∈ scope, read l.name = false) : markAll read scopes = scopes := by
  rw [markAll, List.map_congr_left (g := id) fun scope hscope ↦ ?_, List.map_id]
  rw [List.map_congr_left (g := id) fun l hl ↦ ?_, List.map_id]
  · rfl
  · rw [h scope hscope l hl]
    rfl

theorem count_append_of_notMem {c : Complaint} {new : List Complaint} (h : c ∉ new)
    (old : List Complaint) : (new ++ old).count c = old.count c := by
  rw [List.count_append, List.count_eq_zero.2 h, Nat.zero_add]

namespace Marks

theorem refl (s : Survey) : Marks made (fun _ ↦ false) s s where
  scopes := (markAll_of_forall fun _ _ _ _ ↦ rfl).symm
  complaints := ⟨[], rfl, nofun⟩

theorem trans (h : Marks made read s s') (h' : Marks made read' s' s'') :
    Marks made (fun x ↦ read x || read' x) s s'' where
  scopes := by rw [h'.scopes, h.scopes, markAll_markAll]
  complaints := by
    obtain ⟨new, heq, hnew⟩ := h.complaints
    obtain ⟨new', heq', hnew'⟩ := h'.complaints
    refine ⟨new' ++ new, by rw [heq', heq, List.append_assoc], ?_⟩
    exact List.forall_mem_append.2 ⟨hnew', hnew⟩

theorem mono {made' : Problem → Bool} (hmade : ∀ {problem}, made problem = true →
    made' problem = true) (h : Marks made read s s') : Marks made' read s s' where
  scopes := h.scopes
  complaints := by
    obtain ⟨new, heq, hnew⟩ := h.complaints
    exact ⟨new, heq, fun c hc ↦ hmade (hnew c hc)⟩

theorem congr (h : Marks made read s s') (hread : ∀ x, read' x = read x) :
    Marks made read' s s' := by
  obtain rfl : read' = read := funext hread
  exact h

theorem complain (hproblem : made problem = true) (span : Span) (s : Survey) :
    Marks made (fun _ ↦ false) s (s.complain problem span) where
  scopes := (markAll_of_forall fun _ _ _ _ ↦ rfl).symm
  complaints := ⟨[⟨problem, span⟩], rfl, List.forall_mem_singleton.2 hproblem⟩

theorem use (name : String) (s : Survey) : Marks made (name == ·) s (s.use name) where
  scopes := by
    rw [Survey.use, markAll]
    refine List.map_congr_left fun scope _ ↦ List.map_congr_left fun l _ ↦ ?_
    by_cases h : l.name = name
    · simp [h]
    · simp [h, Ne.symm h]
  complaints := ⟨[], rfl, nofun⟩

/-- A name that is in no scope has nothing to mark. -/
theorem unknown {name : String} (hname : (s.find? name).isSome = false)
    (h : Marks made (fun _ ↦ false) s s') : Marks made (name == ·) s s' where
  scopes := by
    rw [h.scopes, markAll_of_forall fun _ _ _ _ ↦ rfl, markAll_of_forall]
    intro scope hscope l hl
    rw [beq_eq_false_iff_ne]
    rintro rfl
    have hnone : ∀ scope ∈ s.scopes, scope.find? (·.name == l.name) = none := by
      rw [← List.findSome?_eq_none_iff, ← Option.isNone_iff_eq_none, ← Option.isSome_eq_false_iff]
      exact hname
    exact List.find?_eq_none.1 (hnone scope hscope) l hl (beq_self_eq_true _)
  complaints := h.complaints

/-- So the number of reports of a kind at a place stays the same. -/
theorem count_eq {c : Complaint} (h : Marks Problem.notReport read s s')
    (hc : c.problem.isReport = true) :
    s'.complaints.count c = s.complaints.count c := by
  obtain ⟨new, heq, hnew⟩ := h.complaints
  rw [heq]
  refine count_append_of_notMem (fun hmem ↦ ?_) _
  have hother := hnew c hmem
  rw [Problem.notReport, hc] at hother
  exact Bool.false_ne_true hother

end Marks

end Survey

open Survey

theorem marks_checkAssignable (type : DeclType) (value : Expr) (s : Survey) :
    Marks Problem.notReport (fun _ ↦ false) s (checkAssignable type value s) := by
  rw [checkAssignable]
  split
  · exact .refl s
  · split
    · exact .refl s
    · split
      · exact .complain rfl _ s
      · exact .complain rfl _ s

theorem uses_checkArity (b : Builtin) (count : Nat) (span : Span) (s : Survey) :
    Marks Problem.isUse (fun _ ↦ false) s (checkArity b count span s) := by
  rw [checkArity]
  split
  · exact .refl s
  · exact .complain rfl span s

theorem uses_checkName (name : String) (span : Span) (s : Survey) :
    Marks Problem.isUse (name == ·) s (checkName name span s) := by
  rw [checkName]
  split
  · exact .use name s
  · next h =>
    refine .unknown (Bool.eq_false_iff.2 h) ?_
    split
    · exact .complain rfl span s
    · exact .complain rfl span s

theorem uses_checkCalled (name : String) (nameSpan : Span) (count : Nat) (span : Span)
    (s : Survey) : Marks Problem.isUse (name == ·) s (checkCalled name nameSpan count span s) := by
  rw [checkCalled]
  split
  · exact ((Marks.use name s).trans (.complain rfl nameSpan _)).congr fun x ↦
      (Bool.or_false _).symm
  · next h =>
    refine .unknown (Bool.eq_false_iff.2 h) ?_
    split
    · exact uses_checkArity _ count span s
    · exact .complain rfl nameSpan s

theorem uses_checkMethod (field : Ident) (count : Nat) (span : Span) (s : Survey) :
    Marks Problem.isUse (fun _ ↦ false) s (checkMethod field count span s) := by
  rw [checkMethod]
  split
  · split
    · exact uses_checkArity _ count span s
    · exact .complain rfl field.span s
  · exact .complain rfl field.span s

mutual

/-- The checks of an expression mark exactly the names that it mentions, and find fault with uses
only. -/
theorem uses_checkExpr : ∀ (e : Expr) (s : Survey),
    Marks Problem.isUse (e.mentions ·) s (checkExpr e s)
  | .literal _ _, s => .refl s
  | .name span name, s => uses_checkName name span s
  | .list _ items, s => uses_checkExprs items s
  | .map _ entries, s => uses_checkEntries entries s
  | .unary _ _ operand, s => uses_checkExpr operand s
  | .binary _ _ lhs rhs, s => (uses_checkExpr lhs s).trans (uses_checkExpr rhs _)
  | .ternary _ cond yes no, s =>
    ((uses_checkExpr cond s).trans (uses_checkExpr yes _)).trans (uses_checkExpr no _)
  | .call span callee args, s => by
    have hargs := uses_checkExprs args s
    have hcallee := uses_checkExpr callee (checkExprs args s)
    rw [checkExpr.eq_def]
    dsimp only
    split
    · exact hargs.trans (uses_checkCalled _ _ args.length span _)
    · rename_i target field
      have htarget := uses_checkExpr target (checkExprs args s)
      refine (hargs.trans (htarget.trans (uses_checkMethod field _ span _))).congr fun x ↦ ?_
      rw [Bool.or_false]
      rfl
    · refine (hargs.trans (hcallee.trans (.complain rfl callee.span _))).congr fun x ↦ ?_
      rw [Bool.or_false]
      rfl
  | .index _ target index, s => (uses_checkExpr target s).trans (uses_checkExpr index _)
  | .member _ target _, s => uses_checkExpr target s

/-- So do the checks of expressions one after the other. -/
theorem uses_checkExprs : ∀ (es : List Expr) (s : Survey),
    Marks Problem.isUse (anyMentions · es) s (checkExprs es s)
  | [], s => .refl s
  | e :: rest, s => (uses_checkExpr e s).trans (uses_checkExprs rest _)

/-- And those of the entries of a map. -/
theorem uses_checkEntries : ∀ (es : List (Expr × Expr)) (s : Survey),
    Marks Problem.isUse (entriesMention · es) s (checkEntries es s)
  | [], s => .refl s
  | (k, v) :: rest, s =>
    ((uses_checkExpr k s).trans (uses_checkExpr v _)).trans (uses_checkEntries rest _)

end

theorem uses_checkPath : ∀ (path : List Accessor) (s : Survey),
    Marks Problem.isUse (pathMentions · path) s (checkPath path s)
  | [], s => .refl s
  | .index e :: rest, s => (uses_checkExpr e s).trans (uses_checkPath rest _)
  | .member _ :: rest, s => uses_checkPath rest s

/-- So they report nothing. -/
theorem marks_checkExpr (e : Expr) (s : Survey) :
    Marks Problem.notReport (e.mentions ·) s (checkExpr e s) :=
  (uses_checkExpr e s).mono Problem.notReport_of_isUse

theorem marks_checkAssignment (root : Ident) (path : List Accessor) (op : AssignOp)
    (value : Expr) (s : Survey) :
    Marks Problem.notReport (assignmentMentions · root path op value) s
      (checkAssignment root path op value s) := by
  have hparts := (marks_checkExpr value s).trans
    ((uses_checkPath path _).mono Problem.notReport_of_isUse)
  suffices hroot : Marks Problem.notReport (fun x ↦ !op.overwrites path && root.name == x)
      (checkPath path (checkExpr value s)) (checkAssignment root path op value s) from
    hparts.trans hroot
  rw [checkAssignment, AssignOp.overwrites]
  split
  · split
    · next h =>
      refine (marks_checkAssignable _ value _).congr fun x ↦ ?_
      rw [decide_eq_true h]
      rfl
    · next h =>
      refine (Marks.use root.name _).congr fun x ↦ ?_
      rw [decide_eq_false h]
      rfl
  · next hnone =>
    have hcomplain (s : Survey) : Marks Problem.notReport (fun _ ↦ false) s
        (if (Builtin.ofName? root.name).isSome then
          s.complain (.assignToHelper root.name) root.span
        else s.complain (.unknownName root.name) root.span) := by
      split
      · exact .complain rfl root.span s
      · exact .complain rfl root.span s
    cases decide (op = .set ∧ path.isEmpty) with
    | true => exact hcomplain _
    | false => exact .unknown (by rw [hnone]; rfl) (hcomplain _)

/-! ### Lists of statements -/

/-- What the checks do in front of a statement: there is one report in each list, at the first
statement that is not reached and is not empty. -/
def Reach.meet (r : Reach) (stmt : Stmt) (s : Survey) : Reach × Survey :=
  if stmt.isEmpty then (r, s) else r.tell stmt.span s

theorem checkStmts_cons (inLoop : Bool) (r : Reach) (stmt : Stmt) (rest : List Stmt) (s : Survey) :
    checkStmts inLoop r (stmt :: rest) s =
      checkStmts inLoop ((r.meet stmt s).1.behind stmt.diverges) rest
        (checkStmt inLoop stmt (r.meet stmt s).2) :=
  rfl

@[simp]
theorem Reach.meet_reached (stmt : Stmt) (s : Survey) :
    Reach.meet .reached stmt s = (.reached, s) := by
  rw [meet]
  split <;> rfl

end Snippet.Script
