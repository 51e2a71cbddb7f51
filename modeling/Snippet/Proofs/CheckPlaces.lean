import Snippet.Proofs.Reports
import Snippet.Proofs.SourcePlaces
import Snippet.Script.Checked

/-!
# Where diagnostics stand

Every complaint of the checks is about a piece of the script: it has the span of one of its
statements, expressions or names (`hasAt_of_mem_check`). Every variable that the checks remember
stands at a name of the script as well, because the complaint that it is never read comes only when
its block ends.

Since the pieces of a script stand in the text that was parsed, and so does what keeps a text from
being parsed, every diagnostic points at characters of the text and shows exactly these. The text is
cut at bytes for it, but never inside a character (`places_of_source`).
-/

namespace Snippet.Script

open Grammar

/-! ### Surveys -/

/-- A program has a piece that stands at a span. -/
def Program.HasAt (p : Program) (span : Span) : Prop :=
  ∃ piece, p.Has piece ∧ piece.span = span

namespace Survey

/-- All that is noted in a survey is about pieces of a program. -/
structure About (p : Program) (s : Survey) : Prop where
  complaints : ∀ c ∈ s.complaints, p.HasAt c.span
  locals : ∀ scope ∈ s.scopes, ∀ l ∈ scope, p.HasAt l.span

namespace About

variable {p : Program} {s : Survey}

theorem complain {span : Span} (h : s.About p) (problem : Problem) (hspan : p.HasAt span) :
    (s.complain problem span).About p :=
  ⟨List.forall_mem_cons.2 ⟨hspan, h.complaints⟩, h.locals⟩

theorem enter (h : s.About p) : s.enter.About p :=
  ⟨h.complaints, List.forall_mem_cons.2 ⟨List.forall_mem_nil _, h.locals⟩⟩

/-- The variables of a block are complained about where they are declared. -/
theorem leave (h : s.About p) : s.leave.About p := by
  rw [Survey.leave]
  split
  · exact h
  · next scope scopes hscopes =>
    obtain ⟨hscope, hlocals⟩ := List.forall_mem_cons.1 (hscopes ▸ h.locals)
    refine ⟨List.forall_mem_append.2 ⟨fun c hc ↦ ?_, h.complaints⟩, hlocals⟩
    obtain ⟨l, hl, hunused⟩ := List.mem_filterMap.1 hc
    rw [unused?] at hunused
    split at hunused
    · cases hunused
      exact hscope l hl
    · cases hunused

theorem use (h : s.About p) (name : String) : (s.use name).About p := by
  refine ⟨h.complaints, fun _ hscope' _ hl' ↦ ?_⟩
  obtain ⟨scope, hscope, rfl⟩ := List.mem_map.1 hscope'
  obtain ⟨l, hl, rfl⟩ := List.mem_map.1 hl'
  split
  · exact h.locals scope hscope l hl
  · exact h.locals scope hscope l hl

theorem declare (h : s.About p) (type : DeclType) {name : Ident} (watched : Bool)
    (hname : p.HasAt name.span) : (s.declare type name watched).About p := by
  rw [Survey.declare.eq_def]
  split
  · exact h
  · next scope scopes hscopes =>
    obtain ⟨hscope, hlocals⟩ := List.forall_mem_cons.1 (hscopes ▸ h.locals)
    have hdeclared : (⟨(⟨name.name, type, name.span, false, watched⟩ :: scope) :: scopes,
        s.complaints⟩ : Survey).About p :=
      ⟨h.complaints, List.forall_mem_cons.2 ⟨List.forall_mem_cons.2 ⟨hname, hscope⟩, hlocals⟩⟩
    split
    · exact h.complain _ hname
    · split
      · exact h.complain _ hname
      · dsimp only
        split
        · exact hdeclared.complain _ hname
        · exact hdeclared

end About

end Survey

/-! ### Checking expressions -/

section Check

variable {p : Program} {s : Survey}

theorem hasAt_expr {e : Expr} (h : p.Has (.expr e)) : p.HasAt e.span :=
  ⟨_, h, rfl⟩

theorem hasAt_ident {i : Ident} (h : p.Has (.ident i)) : p.HasAt i.span :=
  ⟨_, h, rfl⟩

theorem about_checkAssignable (type : DeclType) {value : Expr} (hvalue : p.HasAt value.span)
    (h : s.About p) : (checkAssignable type value s).About p := by
  rw [checkAssignable]
  split
  · exact h
  · split
    · exact h
    · split
      · exact h.complain _ hvalue
      · exact h.complain _ hvalue

theorem about_checkArity (b : Builtin) (count : Nat) {span : Span} (hspan : p.HasAt span)
    (h : s.About p) : (checkArity b count span s).About p := by
  rw [checkArity]
  split
  · exact h
  · exact h.complain _ hspan

theorem about_checkName (name : String) {span : Span} (hspan : p.HasAt span) (h : s.About p) :
    (checkName name span s).About p := by
  rw [checkName]
  split
  · exact h.use name
  · split
    · exact h.complain _ hspan
    · exact h.complain _ hspan

theorem about_checkCalled (name : String) {nameSpan span : Span} (count : Nat)
    (hname : p.HasAt nameSpan) (hspan : p.HasAt span) (h : s.About p) :
    (checkCalled name nameSpan count span s).About p := by
  rw [checkCalled]
  split
  · exact (h.use name).complain _ hname
  · split
    · exact about_checkArity _ count hspan h
    · exact h.complain _ hname

theorem about_checkMethod {field : Ident} (count : Nat) {span : Span} (hfield : p.HasAt field.span)
    (hspan : p.HasAt span) (h : s.About p) : (checkMethod field count span s).About p := by
  rw [checkMethod]
  split
  · split
    · exact about_checkArity _ count hspan h
    · exact h.complain _ hfield
  · exact h.complain _ hfield

/-- What stands directly inside an expression is a piece as well. -/
theorem has_operand {e e' : Expr} (h : p.Has (.expr e))
    (he : e' ∈ e.leftOperand?.toList ++ e.others) : p.Has (.expr e') :=
  h.child (List.mem_append_left _ (List.mem_map_of_mem he))

mutual

/-- The checks of an expression complain about pieces of it. -/
theorem about_checkExpr : ∀ (e : Expr) (s : Survey), p.Has (.expr e) → s.About p →
    (checkExpr e s).About p
  | .literal _ _, _, _, h => h
  | .name span name, s, he, h => about_checkName name (hasAt_expr he) h
  | .list _ items, s, he, h => about_checkExprs items s (fun e hmem ↦ has_operand he hmem) h
  | .map _ entries, s, he, h =>
    about_checkEntries entries s (fun entry hmem ↦
      ⟨has_operand he (List.mem_flatMap.2 ⟨entry, hmem, List.mem_cons_self ..⟩),
        has_operand he (List.mem_flatMap.2 ⟨entry, hmem, List.mem_cons_of_mem _
          (List.mem_cons_self ..)⟩)⟩) h
  | .unary _ _ operand, s, he, h =>
    about_checkExpr operand s (has_operand he (List.mem_cons_self ..)) h
  | .binary _ _ lhs rhs, s, he, h =>
    about_checkExpr rhs _ (has_operand he (by simp [Expr.others]))
      (about_checkExpr lhs s (has_operand he (by simp [Expr.leftOperand?])) h)
  | .ternary _ cond yes no, s, he, h =>
    about_checkExpr no _ (has_operand he (by simp [Expr.others]))
      (about_checkExpr yes _ (has_operand he (by simp [Expr.others]))
        (about_checkExpr cond s (has_operand he (by simp [Expr.others])) h))
  | .call span callee args, s, he, h => by
    have hcallee : p.Has (.expr callee) := has_operand he (by simp [Expr.leftOperand?])
    have hargs := about_checkExprs args s (fun e hmem ↦
      has_operand he (by simp [Expr.others, hmem])) h
    have hwhole := about_checkExpr callee _ hcallee hargs
    rw [checkExpr.eq_def]
    dsimp only
    split
    · exact about_checkCalled _ _ (hasAt_expr hcallee) (hasAt_expr he) hargs
    · next target field =>
      have hfield : p.Has (.ident field) := hcallee.child (by simp [Piece.children, Expr.idents])
      exact about_checkMethod _ (hasAt_ident hfield) (hasAt_expr he)
        (about_checkExpr target _ (has_operand hcallee (by simp [Expr.leftOperand?])) hargs)
    · exact hwhole.complain _ (hasAt_expr hcallee)
  | .index _ target index, s, he, h =>
    about_checkExpr index _ (has_operand he (by simp [Expr.others]))
      (about_checkExpr target s (has_operand he (by simp [Expr.leftOperand?])) h)
  | .member _ target _, s, he, h =>
    about_checkExpr target s (has_operand he (by simp [Expr.leftOperand?])) h

theorem about_checkExprs : ∀ (es : List Expr) (s : Survey), (∀ e ∈ es, p.Has (.expr e)) →
    s.About p → (checkExprs es s).About p
  | [], _, _, h => h
  | e :: rest, s, hes, h =>
    about_checkExprs rest _ (List.forall_mem_cons.1 hes).2
      (about_checkExpr e s (List.forall_mem_cons.1 hes).1 h)

theorem about_checkEntries : ∀ (es : List (Expr × Expr)) (s : Survey),
    (∀ entry ∈ es, p.Has (.expr entry.1) ∧ p.Has (.expr entry.2)) →
    s.About p → (checkEntries es s).About p
  | [], _, _, h => h
  | (k, v) :: rest, s, hes, h =>
    about_checkEntries rest _ (List.forall_mem_cons.1 hes).2
      (about_checkExpr v _ (List.forall_mem_cons.1 hes).1.2
        (about_checkExpr k s (List.forall_mem_cons.1 hes).1.1 h))

end

/-! ### Checking statements -/

theorem about_checkPath : ∀ (path : List Accessor) (s : Survey),
    (∀ e ∈ path.flatMap Accessor.exprs, p.Has (.expr e)) → s.About p → (checkPath path s).About p
  | [], _, _, h => h
  | .index e :: rest, s, hpath, h =>
    about_checkPath rest _ (fun e he ↦ hpath e (List.mem_cons_of_mem _ he))
      (about_checkExpr e s (hpath e (List.mem_cons_self ..)) h)
  | .member _ :: rest, s, hpath, h => about_checkPath rest s hpath h

theorem about_checkAssignment {root : Ident} {path : List Accessor} (op : AssignOp) {value : Expr}
    (hroot : p.HasAt root.span) (hpath : ∀ e ∈ path.flatMap Accessor.exprs, p.Has (.expr e))
    (hvalue : p.Has (.expr value)) (h : s.About p) :
    (checkAssignment root path op value s).About p := by
  have hparts := about_checkPath path _ hpath (about_checkExpr value s hvalue h)
  rw [checkAssignment]
  split
  · split
    · exact about_checkAssignable _ (hasAt_expr hvalue) hparts
    · exact hparts.use _
  · split
    · exact hparts.complain _ hroot
    · exact hparts.complain _ hroot

theorem about_tell {span : Span} (r : Reach) (hspan : p.HasAt span) (h : s.About p) :
    (r.tell span s).2.About p := by
  cases r with
  | lost => exact h.complain _ hspan
  | reached | told => exact h

theorem has_ident {stmt : Stmt} {i : Ident} (h : p.Has (.stmt stmt)) (hi : i ∈ stmt.idents) :
    p.HasAt i.span :=
  hasAt_ident (h.child (by simp [Piece.children, hi]))

theorem has_expr {stmt : Stmt} {e : Expr} (h : p.Has (.stmt stmt)) (he : e ∈ stmt.exprs) :
    p.Has (.expr e) :=
  h.child (by simp [Piece.children, he])

theorem has_part {stmt part : Stmt} (h : p.Has (.stmt stmt)) (hpart : part ∈ stmt.parts) :
    p.Has (.stmt part) :=
  h.child (by simp [Piece.children, hpart])

mutual

/-- The checks of a statement complain about pieces of it. -/
theorem about_checkStmt (inLoop : Bool) : ∀ (stmt : Stmt) (s : Survey), p.Has (.stmt stmt) →
    s.About p → (checkStmt inLoop stmt s).About p
  | .declare _ type name none, s, hs, h =>
    h.declare type true (has_ident hs (List.mem_singleton.2 rfl))
  | .declare _ type name (some value), s, hs, h => by
    have hvalue : p.Has (.expr value) := has_expr hs (List.mem_singleton.2 rfl)
    have hchecked := about_checkExpr value s hvalue h
    exact (about_checkAssignable type (hasAt_expr hvalue) hchecked).declare type true
      (has_ident hs (List.mem_singleton.2 rfl))
  | .assign _ root path op value, s, hs, h =>
    about_checkAssignment op (has_ident hs (List.mem_cons_self ..))
      (fun e he ↦ has_expr hs (List.mem_append_left _ he))
      (has_expr hs (List.mem_append_right _ (List.mem_singleton.2 rfl))) h
  | .expression _ value, s, hs, h =>
    about_checkExpr value s (has_expr hs (List.mem_singleton.2 rfl)) h
  | .block _ body, s, hs, h =>
    (about_checkStmts inLoop .reached body s.enter (fun _ hstmt ↦ has_part hs hstmt) h.enter).leave
  | .ifElse _ cond yes none, s, hs, h =>
    (about_checkStmt inLoop yes _ (has_part hs (List.mem_singleton.2 rfl))
      (about_checkExpr cond s (has_expr hs (List.mem_singleton.2 rfl)) h).enter).leave
  | .ifElse _ cond yes (some no), s, hs, h => by
    have hcond := about_checkExpr cond s (has_expr hs (List.mem_singleton.2 rfl)) h
    have hyes := about_checkStmt inLoop yes _ (has_part hs (by simp [Stmt.parts])) hcond.enter
    exact (about_checkStmt inLoop no _ (has_part hs (by simp [Stmt.parts])) hyes.leave.enter).leave
  | .whileLoop _ cond body, s, hs, h =>
    (about_checkStmt true body _ (has_part hs (List.mem_singleton.2 rfl))
      (about_checkExpr cond s (has_expr hs (List.mem_singleton.2 rfl)) h).enter).leave
  | .forEach _ type binding items body, s, hs, h =>
    (about_checkStmt true body _ (has_part hs (List.mem_singleton.2 rfl))
      ((about_checkExpr items s (has_expr hs (List.mem_singleton.2 rfl)) h).enter.declare type false
        (has_ident hs (List.mem_singleton.2 rfl))).enter).leave.leave
  | .returnWith _ none, _, _, h => h
  | .returnWith _ (some value), s, hs, h =>
    about_checkExpr value s (has_expr hs (List.mem_singleton.2 rfl)) h
  | .throwWith _ value, s, hs, h =>
    about_checkExpr value s (has_expr hs (List.mem_singleton.2 rfl)) h
  | .breakLoop span, s, hs, h => by
    rw [checkStmt]
    split
    · exact h
    · exact h.complain _ ⟨_, hs, rfl⟩
  | .continueLoop span, s, hs, h => by
    rw [checkStmt]
    split
    · exact h
    · exact h.complain _ ⟨_, hs, rfl⟩
  | .empty _, _, _, h => h

theorem about_checkStmts (inLoop : Bool) (r : Reach) : ∀ (stmts : List Stmt) (s : Survey),
    (∀ stmt ∈ stmts, p.Has (.stmt stmt)) → s.About p → (checkStmts inLoop r stmts s).2.About p
  | [], _, _, h => h
  | stmt :: rest, s, hstmts, h => by
    obtain ⟨hstmt, hrest⟩ := List.forall_mem_cons.1 hstmts
    have hmet : (r.meet stmt s).2.About p := by
      rw [Reach.meet]
      split
      · exact h
      · exact about_tell r ⟨_, hstmt, rfl⟩ h
    rw [checkStmts_cons]
    exact about_checkStmts inLoop _ rest _ hrest (about_checkStmt inLoop stmt _ hstmt hmet)

end

/-- Every complaint of the checks is about a piece of the program. -/
theorem hasAt_of_mem_check {c : Complaint} (h : c ∈ check p) : p.HasAt c.span := by
  have hstart : (⟨[[]], []⟩ : Survey).About p :=
    ⟨List.forall_mem_nil _, List.forall_mem_singleton.2 (List.forall_mem_nil _)⟩
  have hbody := about_checkStmts false .reached p.statements _ (fun _ hs ↦ .statement hs) hstart
  rw [check, List.mem_reverse] at h
  refine (Survey.About.leave ?_).complaints c h
  split
  · next e he =>
    exact about_checkExpr e _ (.tail he) (about_tell _ (hasAt_expr (.tail he)) hbody)
  · exact hbody

end Check

/-! ### Diagnostics -/

/-- What compiling a text says about it, whether or not the text can be run. -/
def compileDiagnostics (source : String) : List Diagnostic :=
  match Checked.ofSource source with
  | .error complaints => complaints.map (·.diagnostic)
  | .ok script => script.warnings.map (·.diagnostic)

/-- A diagnostic comes from a complaint of the parser or of the checks. -/
theorem complaint_of_mem_compileDiagnostics {source : String} {d : Diagnostic}
    (h : d ∈ compileDiagnostics source) :
    ∃ c : Complaint, d = c.diagnostic ∧
      (parse source = .error c ∨ ∃ program, parse source = .ok program ∧ c ∈ check program) := by
  rw [compileDiagnostics, Checked.ofSource] at h
  cases hparse : parse source with
  | error c =>
    rw [hparse] at h
    exact ⟨c, List.mem_singleton.1 h, .inl rfl⟩
  | ok program =>
    rw [hparse] at h
    have hmem : d ∈ (check program).map (·.diagnostic) := by
      dsimp only at h
      split at h
      · next heq =>
        split at heq
        · cases heq
          exact h
        · cases heq
      · next heq =>
        split at heq
        · cases heq
        · cases heq
          exact h
    obtain ⟨c, hc, rfl⟩ := List.mem_map.1 hmem
    exact ⟨c, rfl, .inr ⟨program, rfl, hc⟩⟩

/-- A diagnostic stands where the parser has stopped or where a piece of the script stands. -/
theorem inside_of_mem_compileDiagnostics {source : String} {d : Diagnostic}
    (h : d ∈ compileDiagnostics source) :
    ∃ span : Span, d.location = span.location ∧ span.Inside (sourceSpan source) := by
  obtain ⟨c, rfl, hc⟩ := complaint_of_mem_compileDiagnostics h
  have hlands := lands_parse source
  refine ⟨c.span, rfl, ?_⟩
  rcases hc with hparse | ⟨program, hparse, hcheck⟩
  · rw [hparse] at hlands
    exact hlands
  · rw [hparse] at hlands
    obtain ⟨piece, hpiece, hspan⟩ := hasAt_of_mem_check hcheck
    exact hspan ▸ (Program.Built.placed hlands hpiece).inSource

/-- Every piece of a parsed program stands in the text, with its parts inside it and with its name
exactly there, if it has one. Every diagnostic of a text points at a range of it and shows the
characters of this range, or nothing where the range is empty. The bytes at which the text is cut,
to show them or to say what was found where it fails to match, are never inside a character. -/
theorem places_of_source (source : String) :
    (∀ program, parse source = .ok program → ∀ piece, program.Has piece → piece.Placed source) ∧
      (∀ d ∈ compileDiagnostics source, d.location.Shown source) ∧
      ∀ tried, language.report .program source.toList = .error tried →
        (cutAt? (min tried.place (byteLength source.toList)) source.toList).isSome = true := by
  have hlands := lands_parse source
  refine ⟨fun program hparse piece hpiece ↦ ?_, fun d hd ↦ ?_, fun tried ↦ cutAt?_of_report⟩
  · rw [hparse] at hlands
    exact Program.Built.placed hlands hpiece
  · obtain ⟨span, hlocation, hinside⟩ := inside_of_mem_compileDiagnostics hd
    rw [hlocation]
    exact shown_location hinside

/-- A name behind a character that is more than one byte long. It is not known, which is said where
it stands. -/
theorem places_of_source_unknownName :
    let text := "\"é\" + x "
    ∃ span span' span'',
      let program : Program :=
        ⟨[], some (.binary span .add (.literal span' (.string "é")) (.name span'' "x"))⟩
      let complaint : Complaint := ⟨.unknownName "x", span''⟩
      parse text = .ok program ∧ (∀ piece, program.Has piece → piece.Placed text) ∧
        complaint.diagnostic ∈ compileDiagnostics text ∧
        complaint.diagnostic.location.Shown text := by
  intro text
  let e : Expr := .binary noSpan .add (.literal noSpan (.string "é")) (.name noSpan "x")
  have he : e.Printable := by
    simp only [e, Expr.Printable, Literal.Printable]
    decide
  have htext : Spaced e.tokens text.toList := by
    have h : text.toList = e.tokens.flatMap (· ++ [' ']) := by decide +kernel
    rw [h]
    exact spaced_flatMap _
  have hguard : checkNesting text.toList = .ok () := checkNesting_eq_ok_iff.2 (by decide +kernel)
  obtain ⟨tree, hparse, hbare⟩ := exists_parse_printed he htext hguard (by decide +kernel)
  obtain ⟨span, lhs, rhs, rfl, hlhs, hrhs⟩ := Expr.exists_binary_of_bare hbare
  obtain ⟨span', rfl⟩ := Expr.exists_literal_of_bare hlhs
  obtain ⟨span'', rfl⟩ := Expr.exists_name_of_bare hrhs
  obtain ⟨hpieces, hdiagnostics, -⟩ := places_of_source text
  have hmem : (Complaint.mk (.unknownName "x") span'').diagnostic ∈ compileDiagnostics text := by
    rw [compileDiagnostics, Checked.ofSource, hparse]
    exact List.mem_singleton.2 rfl
  exact ⟨span, span', span'', hparse, hpieces _ hparse, hmem, hdiagnostics _ hmem⟩

end Snippet.Script
