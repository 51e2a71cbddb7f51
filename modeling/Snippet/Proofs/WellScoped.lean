import Snippet.Script.Check

/-!
# Well-scoped scripts

What the checks make sure of, as relations on trees that do not mention the checks: every name
that is read or assigned has been declared, every call is one of a builtin that takes so many
arguments, and loops are left from inside only.

* `check_sound`: a script of which the checks only give warnings is well-scoped.

The relations look at the names in scope as one list. The checks know them block by block, so the
link between the two also says how a statement changes the names of its block (`Stmt.declared`)
and that the blocks around it stay as they are.
-/

namespace Snippet.Script

/-! ### The relations -/

/-- Every name that an expression reads is known, and its calls are calls of builtins. -/
inductive Expr.WellScoped (known : List String) : Expr → Prop
  | literal {span value} : WellScoped known (.literal span value)
  | name {span name} (h : name ∈ known) : WellScoped known (.name span name)
  | list {span items} (h : ∀ e ∈ items, WellScoped known e) : WellScoped known (.list span items)
  | map {span entries} (hkeys : ∀ entry ∈ entries, WellScoped known entry.1)
      (hvalues : ∀ entry ∈ entries, WellScoped known entry.2) :
      WellScoped known (.map span entries)
  | unary {span op operand} (h : WellScoped known operand) :
      WellScoped known (.unary span op operand)
  | binary {span op lhs rhs} (hlhs : WellScoped known lhs) (hrhs : WellScoped known rhs) :
      WellScoped known (.binary span op lhs rhs)
  | ternary {span cond yes no} (hcond : WellScoped known cond) (hyes : WellScoped known yes)
      (hno : WellScoped known no) : WellScoped known (.ternary span cond yes no)
  | call {span nameSpan name args b} (hname : Builtin.ofName? name = some b)
      (haccepts : b.accepts args.length = true) (hargs : ∀ e ∈ args, WellScoped known e) :
      WellScoped known (.call span (.name nameSpan name) args)
  | method {span memberSpan target field args b} (hname : Builtin.ofName? field.name = some b)
      (haccepts : b.accepts (args.length + 1) = true) (htarget : WellScoped known target)
      (hargs : ∀ e ∈ args, WellScoped known e) :
      WellScoped known (.call span (.member memberSpan target field) args)
  | index {span target index} (htarget : WellScoped known target)
      (hindex : WellScoped known index) : WellScoped known (.index span target index)
  | member {span target field} (h : WellScoped known target) :
      WellScoped known (.member span target field)

/-- The names that a statement adds to its block. -/
def Stmt.declared : Stmt → List String
  | .declare _ _ name _ => [name.name]
  | _ => []

mutual

/-- A statement uses the known names only, and leaves a loop only inside of one. -/
inductive Stmt.WellScoped : Bool → List String → Stmt → Prop
  | declare {inLoop known span type name init} (h : ∀ e, init = some e → e.WellScoped known) :
      WellScoped inLoop known (.declare span type name init)
  | assign {inLoop known span root path op value} (hroot : root.name ∈ known)
      (hpath : ∀ e, .index e ∈ path → e.WellScoped known) (hvalue : value.WellScoped known) :
      WellScoped inLoop known (.assign span root path op value)
  | expression {inLoop known span e} (h : e.WellScoped known) :
      WellScoped inLoop known (.expression span e)
  | block {inLoop known span body} (h : ListWellScoped inLoop known body) :
      WellScoped inLoop known (.block span body)
  | ifElse {inLoop known span cond yes no} (hcond : cond.WellScoped known)
      (hyes : WellScoped inLoop known yes) (hno : ∀ s, no = some s → WellScoped inLoop known s) :
      WellScoped inLoop known (.ifElse span cond yes no)
  | whileLoop {inLoop known span cond body} (hcond : cond.WellScoped known)
      (hbody : WellScoped true known body) : WellScoped inLoop known (.whileLoop span cond body)
  | forEach {inLoop known span type binding items body} (hitems : items.WellScoped known)
      (hbody : WellScoped true (binding.name :: known) body) :
      WellScoped inLoop known (.forEach span type binding items body)
  | returnWith {inLoop known span value} (h : ∀ e, value = some e → e.WellScoped known) :
      WellScoped inLoop known (.returnWith span value)
  | throwWith {inLoop known span e} (h : e.WellScoped known) :
      WellScoped inLoop known (.throwWith span e)
  | breakLoop {known span} : WellScoped true known (.breakLoop span)
  | continueLoop {known span} : WellScoped true known (.continueLoop span)
  | empty {inLoop known span} : WellScoped inLoop known (.empty span)

/-- So does a list of statements, where each one knows the names declared before it. -/
inductive Stmt.ListWellScoped : Bool → List String → List Stmt → Prop
  | nil {inLoop known} : ListWellScoped inLoop known []
  | cons {inLoop known s rest} (h : Stmt.WellScoped inLoop known s)
      (hrest : ListWellScoped inLoop (s.declared ++ known) rest) :
      ListWellScoped inLoop known (s :: rest)

end

/-- The names that a list of statements adds to its block. -/
def declaredAll : List Stmt → List String
  | [] => []
  | s :: rest => declaredAll rest ++ s.declared

/-- A whole script uses no name that it has not declared, and no loop control outside of a loop. -/
structure Program.WellScoped (program : Program) : Prop where
  statements : Stmt.ListWellScoped false [] program.statements
  tail : ∀ e, program.tail = some e → e.WellScoped (declaredAll program.statements)

/-! ### What the checks of an expression find -/

namespace Survey

variable {P Q : Prop} {s s' s'' : Survey} {problem : Problem} {span : Span}

/-- Nothing found so far keeps the script from running. -/
def Clean (s : Survey) : Prop :=
  ∀ c ∈ s.complaints, c.isError = false

/-- The names in scope, by blocks from the innermost outwards. -/
def names (s : Survey) : List (List String) :=
  s.scopes.map (·.map Local.name)

/-- A check leaves the names in scope as they are, and complains unless `P` holds. -/
structure Finds (P : Prop) (s s' : Survey) : Prop where
  names : s'.names = s.names
  clean : s'.Clean → s.Clean ∧ P

theorem clean_complain :
    (s.complain problem span).Clean ↔ problem.severity ≠ .error ∧ s.Clean := by
  have hproblem : Complaint.isError ⟨problem, span⟩ = false ↔ problem.severity ≠ .error := by
    rw [Complaint.isError, beq_eq_false_iff_ne]
  rw [← hproblem]
  exact List.forall_mem_cons

@[simp]
theorem names_use (name : String) (s : Survey) : (s.use name).names = s.names := by
  rw [names, names, use, List.map_map]
  refine List.map_congr_left fun scope _ ↦ ?_
  show List.map Local.name (List.map _ scope) = _
  rw [List.map_map]
  refine List.map_congr_left fun l _ ↦ ?_
  show (if l.name = name then { l with used := true } else l).name = l.name
  split <;> rfl

/-- A variable that is found is among the names in scope. -/
theorem mem_names_of_find? {name : String} (h : (s.find? name).isSome = true) :
    name ∈ s.names.flatten := by
  obtain ⟨l, hl⟩ := Option.isSome_iff_exists.1 h
  obtain ⟨scope, hscope, hfind⟩ := List.exists_of_findSome?_eq_some hl
  have hname : l.name = name := by simpa using List.find?_some hfind
  rw [List.mem_flatten]
  refine ⟨scope.map Local.name, List.mem_map_of_mem hscope, ?_⟩
  exact hname ▸ List.mem_map_of_mem (List.mem_of_find?_eq_some hfind)

namespace Finds

theorem refl (h : P) (s : Survey) : Finds P s s :=
  ⟨rfl, fun hs ↦ ⟨hs, h⟩⟩

theorem imp (hPQ : P → Q) (h : Finds P s s') : Finds Q s s' :=
  ⟨h.names, fun hs ↦ (h.clean hs).imp_right hPQ⟩

theorem trans (h : Finds P s s') (h' : Finds Q s' s'') : Finds (P ∧ Q) s s'' := by
  refine ⟨h'.names.trans h.names, fun hs ↦ ?_⟩
  obtain ⟨hs', hQ⟩ := h'.clean hs
  obtain ⟨hs, hP⟩ := h.clean hs'
  exact ⟨hs, hP, hQ⟩

theorem use (h : P) (name : String) (s : Survey) : Finds P s (s.use name) :=
  ⟨names_use name s, fun hs ↦ ⟨hs, h⟩⟩

/-- A warning finds nothing. -/
theorem warning (problem : Problem) (span : Span) (s : Survey) :
    Finds True s (s.complain problem span) :=
  ⟨rfl, fun hs ↦ ⟨(clean_complain.1 hs).2, trivial⟩⟩

/-- Behind an error anything may be said. -/
theorem error (hproblem : problem.severity = .error) (span : Span) (s : Survey) :
    Finds P s (s.complain problem span) :=
  ⟨rfl, fun hs ↦ absurd hproblem (clean_complain.1 hs).1⟩

end Finds

end Survey

open Survey

variable {s : Survey}

theorem finds_checkAssignable (type : DeclType) (value : Expr) (s : Survey) :
    Finds True s (checkAssignable type value s) := by
  rw [checkAssignable]
  split
  · exact .refl trivial s
  · split
    · exact .refl trivial s
    · split
      · exact .error rfl _ s
      · exact .error rfl _ s

theorem finds_checkArity (b : Builtin) (count : Nat) (span : Span) (s : Survey) :
    Finds (b.accepts count = true) s (checkArity b count span s) := by
  rw [checkArity]
  split
  · exact .refl ‹_› s
  · exact .error rfl span s

theorem finds_checkName (name : String) (span : Span) (s : Survey) :
    Finds (name ∈ s.names.flatten) s (checkName name span s) := by
  rw [checkName]
  split
  · exact .use (mem_names_of_find? ‹_›) name s
  · split
    · exact .error rfl span s
    · exact .error rfl span s

theorem finds_checkCalled (name : String) (nameSpan : Span) (count : Nat) (span : Span)
    (s : Survey) :
    Finds (∃ b, Builtin.ofName? name = some b ∧ b.accepts count = true) s
      (checkCalled name nameSpan count span s) := by
  rw [checkCalled]
  split
  · exact (Finds.use trivial name s).trans (.error rfl nameSpan _) |>.imp And.right
  · split
    · rename_i b hb
      exact (finds_checkArity b count span s).imp fun haccepts ↦ ⟨b, hb, haccepts⟩
    · exact .error rfl nameSpan s

theorem finds_checkMethod (field : Ident) (count : Nat) (span : Span) (s : Survey) :
    Finds (∃ b, Builtin.ofName? field.name = some b ∧ b.accepts count = true) s
      (checkMethod field count span s) := by
  rw [checkMethod]
  split
  · rename_i b hb
    split
    · exact (finds_checkArity b count span s).imp fun haccepts ↦ ⟨b, hb, haccepts⟩
    · exact .error rfl field.span s
  · exact .error rfl field.span s

mutual

/-- The checks of an expression make sure that it is well-scoped. -/
theorem finds_checkExpr : ∀ (e : Expr) (s : Survey),
    Finds (e.WellScoped s.names.flatten) s (checkExpr e s)
  | .literal _ _, s => .refl .literal s
  | .name span name, s => (finds_checkName name span s).imp .name
  | .list _ items, s => (finds_checkExprs items s).imp .list
  | .map _ entries, s => (finds_checkEntries entries s).imp fun h ↦ .map h.1 h.2
  | .unary _ _ operand, s => (finds_checkExpr operand s).imp .unary
  | .binary _ _ lhs rhs, s => by
    have hlhs := finds_checkExpr lhs s
    have hrhs := finds_checkExpr rhs (checkExpr lhs s)
    rw [hlhs.names] at hrhs
    exact (hlhs.trans hrhs).imp fun h ↦ .binary h.1 h.2
  | .ternary _ cond yes no, s => by
    have hcond := finds_checkExpr cond s
    have hyes := finds_checkExpr yes (checkExpr cond s)
    have hno := finds_checkExpr no (checkExpr yes (checkExpr cond s))
    rw [hyes.names, hcond.names] at hno
    rw [hcond.names] at hyes
    exact (hcond.trans (hyes.trans hno)).imp fun h ↦ .ternary h.1 h.2.1 h.2.2
  | .call span callee args, s => by
    have hargs := finds_checkExprs args s
    rw [checkExpr.eq_def]
    dsimp only
    split
    · rename_i nameSpan name
      have hcalled := finds_checkCalled name nameSpan args.length span (checkExprs args s)
      refine (hargs.trans hcalled).imp fun h ↦ ?_
      obtain ⟨hargs, b, hb, haccepts⟩ := h
      exact .call hb haccepts hargs
    · rename_i target field
      have htarget := finds_checkExpr target (checkExprs args s)
      have hmethod :=
        finds_checkMethod field (args.length + 1) span (checkExpr target (checkExprs args s))
      rw [hargs.names] at htarget
      refine (hargs.trans (htarget.trans hmethod)).imp fun h ↦ ?_
      obtain ⟨hargs, htarget, b, hb, haccepts⟩ := h
      exact .method hb haccepts htarget hargs
    · have hcallee := finds_checkExpr callee (checkExprs args s)
      exact ((hargs.trans hcallee).trans (.error rfl callee.span _)).imp And.right
  | .index _ target index, s => by
    have htarget := finds_checkExpr target s
    have hindex := finds_checkExpr index (checkExpr target s)
    rw [htarget.names] at hindex
    exact (htarget.trans hindex).imp fun h ↦ .index h.1 h.2
  | .member _ target _, s => (finds_checkExpr target s).imp .member

/-- So do the checks of expressions one after the other. -/
theorem finds_checkExprs : ∀ (es : List Expr) (s : Survey),
    Finds (∀ e ∈ es, e.WellScoped s.names.flatten) s (checkExprs es s)
  | [], s => .refl nofun s
  | e :: rest, s => by
    have he := finds_checkExpr e s
    have hrest := finds_checkExprs rest (checkExpr e s)
    rw [he.names] at hrest
    exact (he.trans hrest).imp List.forall_mem_cons.2

/-- And those of the entries of a map. -/
theorem finds_checkEntries : ∀ (es : List (Expr × Expr)) (s : Survey),
    Finds ((∀ entry ∈ es, entry.1.WellScoped s.names.flatten) ∧
      ∀ entry ∈ es, entry.2.WellScoped s.names.flatten) s (checkEntries es s)
  | [], s => .refl ⟨nofun, nofun⟩ s
  | (k, v) :: rest, s => by
    have hk := finds_checkExpr k s
    have hv := finds_checkExpr v (checkExpr k s)
    have hrest := finds_checkEntries rest (checkExpr v (checkExpr k s))
    rw [hv.names, hk.names] at hrest
    rw [hk.names] at hv
    refine (hk.trans (hv.trans hrest)).imp fun h ↦ ?_
    exact ⟨List.forall_mem_cons.2 ⟨h.1, h.2.2.1⟩, List.forall_mem_cons.2 ⟨h.2.1, h.2.2.2⟩⟩

end

theorem finds_checkPath : ∀ (path : List Accessor) (s : Survey),
    Finds (∀ e, .index e ∈ path → e.WellScoped s.names.flatten) s (checkPath path s)
  | [], s => .refl nofun s
  | .index index :: rest, s => by
    have hindex := finds_checkExpr index s
    have hrest := finds_checkPath rest (checkExpr index s)
    rw [hindex.names] at hrest
    refine (hindex.trans hrest).imp fun h e he ↦ ?_
    obtain heq | he := List.mem_cons.1 he
    · cases heq
      exact h.1
    · exact h.2 e he
  | .member _ :: rest, s => by
    refine (finds_checkPath rest s).imp fun h e he ↦ ?_
    obtain heq | he := List.mem_cons.1 he
    · cases heq
    · exact h e he

theorem finds_checkAssignment (root : Ident) (path : List Accessor) (op : AssignOp)
    (value : Expr) (s : Survey) :
    Finds (root.name ∈ s.names.flatten ∧ (∀ e, .index e ∈ path → e.WellScoped s.names.flatten) ∧
      value.WellScoped s.names.flatten) s (checkAssignment root path op value s) := by
  have hvalue := finds_checkExpr value s
  have hpath := finds_checkPath path (checkExpr value s)
  rw [hvalue.names] at hpath
  have hparts := hvalue.trans hpath
  have hroot : Finds (root.name ∈ s.names.flatten) (checkPath path (checkExpr value s))
      (checkAssignment root path op value s) := by
    rw [checkAssignment]
    split
    · rename_i l hl
      have hmem : root.name ∈ s.names.flatten := by
        rw [← hparts.names]
        exact mem_names_of_find? (by rw [hl, Option.isSome_some])
      split
      · exact (finds_checkAssignable l.type value _).imp fun _ ↦ hmem
      · exact .use hmem root.name _
    · split
      · exact .error rfl root.span _
      · exact .error rfl root.span _
  exact (hparts.trans hroot).imp fun h ↦ ⟨h.2, h.1.2, h.1.1⟩

/-! ### What the checks of a statement find -/

namespace Survey

variable {P Q : List String → Prop} {s s' s'' : Survey} {declared declared' : List String}

/-- A check adds names to the innermost block, and complains unless the names known before are as
`P` says. -/
structure Admits (declared : List String) (P : List String → Prop) (s s' : Survey) : Prop where
  clean : s'.Clean → s.Clean
  found : s'.Clean → ∀ scope scopes, s.names = scope :: scopes →
    s'.names = (declared ++ scope) :: scopes ∧ P (scope ++ scopes.flatten)

theorem Finds.admits (h : Finds (P s.names.flatten) s s') : Admits [] P s s' where
  clean hclean := (h.clean hclean).1
  found hclean scope scopes hs := by
    have hP := (h.clean hclean).2
    rw [hs, List.flatten_cons] at hP
    exact ⟨h.names.trans hs, hP⟩

/-- Leaving a block forgets its names. -/
theorem names_leave {scope : List String} {scopes : List (List String)}
    (hs : s.names = scope :: scopes) : s.leave.names = scopes := by
  rcases s with ⟨_ | ⟨first, rest⟩, complaints⟩
  · cases hs
  · exact List.tail_eq_of_cons_eq hs

/-- What is said about the variables of a block when it ends are warnings. -/
theorem clean_of_leave (h : s.leave.Clean) : s.Clean := by
  rcases s with ⟨_ | ⟨first, rest⟩, complaints⟩
  · exact h
  · exact fun c hc ↦ h c (List.mem_append_right _ hc)

namespace Admits

theorem refl (h : ∀ known, P known) (s : Survey) : Admits [] P s s :=
  ⟨id, fun _ _ _ hs ↦ ⟨hs, h _⟩⟩

theorem imp (hPQ : ∀ known, P known → Q known) (h : Admits declared P s s') :
    Admits declared Q s s' :=
  ⟨h.clean, fun hclean scope scopes hs ↦ (h.found hclean scope scopes hs).imp_right (hPQ _)⟩

theorem trans (h : Admits declared P s s') (h' : Admits declared' Q s' s'') :
    Admits (declared' ++ declared) (fun known ↦ P known ∧ Q (declared ++ known)) s s'' where
  clean hclean := h.clean (h'.clean hclean)
  found hclean scope scopes hs := by
    obtain ⟨hs', hP⟩ := h.found (h'.clean hclean) scope scopes hs
    obtain ⟨hs'', hQ⟩ := h'.found hclean _ _ hs'
    rw [← List.append_assoc] at hs''
    rw [List.append_assoc] at hQ
    exact ⟨hs'', hP, hQ⟩

/-- The check of an expression may stand before. -/
theorem behind (h : Finds (P s.names.flatten) s s') (h' : Admits declared Q s' s'') :
    Admits declared (fun known ↦ P known ∧ Q known) s s'' := by
  have hwhole := h.admits.trans h'
  rw [List.append_nil] at hwhole
  exact hwhole

theorem error {problem : Problem} (hproblem : problem.severity = .error) (span : Span)
    (s : Survey) : Admits declared P s (s.complain problem span) where
  clean hclean := (clean_complain.1 hclean).2
  found hclean := absurd hproblem (clean_complain.1 hclean).1

/-- The names of a block are gone behind it. -/
theorem block (h : Admits declared P s.enter s') : Admits [] P s s'.leave where
  clean hclean := h.clean (clean_of_leave hclean)
  found hclean scope scopes hs := by
    have henter : s.enter.names = [] :: scope :: scopes := congrArg _ hs
    obtain ⟨hs', hP⟩ := h.found (clean_of_leave hclean) _ _ henter
    exact ⟨names_leave hs', hP⟩

/-- A declaration adds its name to the innermost block, or it is an error. -/
theorem declare (type : DeclType) (name : Ident) (watched : Bool) (s : Survey) :
    Admits [name.name] (fun _ ↦ True) s (s.declare type name watched) := by
  rcases s with ⟨_ | ⟨first, rest⟩, complaints⟩
  · exact ⟨id, fun _ _ _ hs ↦ nomatch hs⟩
  · rw [Survey.declare]
    dsimp only
    split
    · exact .error rfl name.span _
    · split
      · exact .error rfl name.span _
      · have hadded : Admits [name.name] (fun _ ↦ True) ⟨first :: rest, complaints⟩
            ⟨(⟨name.name, type, name.span, false, watched⟩ :: first) :: rest, complaints⟩ := by
          refine ⟨id, fun _ scope scopes hs ↦ ⟨?_, trivial⟩⟩
          rw [names, List.map_cons, List.cons.injEq] at hs
          rw [names, List.map_cons, List.map_cons, hs.1, hs.2]
          rfl
        split
        · refine (hadded.trans (Finds.admits (P := fun _ ↦ True) ?_)).imp fun _ _ ↦ trivial
          exact .warning _ name.span _
        · exact hadded

end Admits

end Survey

theorem finds_tell (r : Reach) (span : Span) (s : Survey) :
    Finds True s (r.tell span s).2 := by
  cases r with
  | lost => exact .warning .unreachable span s
  | _ => exact .refl trivial s

mutual

/-- The checks of a statement make sure that it is well-scoped. -/
theorem admits_checkStmt (inLoop : Bool) : ∀ (stmt : Stmt) (s : Survey),
    Admits stmt.declared (Stmt.WellScoped inLoop · stmt) s (checkStmt inLoop stmt s)
  | .declare _ type name none, s => (Admits.declare type name true s).imp fun _ _ ↦ .declare nofun
  | .declare _ type name (some value), s => by
    have hvalue := ((finds_checkExpr value s).trans
      (finds_checkAssignable type value (checkExpr value s))).imp And.left
    refine (Admits.behind (P := (value.WellScoped ·)) hvalue
      (.declare type name true _)).imp fun _ h ↦ .declare fun e he ↦ ?_
    cases he
    exact h.1
  | .assign _ root path op value, s =>
    Finds.admits <| (finds_checkAssignment root path op value s).imp fun h ↦
      .assign h.1 h.2.1 h.2.2
  | .expression _ value, s => Finds.admits <| (finds_checkExpr value s).imp .expression
  | .block _ body, s =>
    (admits_checkStmts inLoop .reached body s.enter).block.imp fun _ ↦ .block
  | .ifElse _ cond yes no, s => by
    have hyes := (admits_checkStmt inLoop yes (checkExpr cond s).enter).block
    have hyes := Admits.behind (P := (cond.WellScoped ·)) (finds_checkExpr cond s) hyes
    cases no with
    | none => exact hyes.imp fun _ h ↦ .ifElse h.1 h.2 nofun
    | some no =>
      have hno := (admits_checkStmt inLoop no
        (checkStmt inLoop yes (checkExpr cond s).enter).leave.enter).block
      refine (hyes.trans hno).imp fun _ h ↦ .ifElse h.1.1 h.1.2 fun _ hs ↦ ?_
      cases hs
      exact h.2
  | .whileLoop _ cond body, s => by
    have hbody := (admits_checkStmt true body (checkExpr cond s).enter).block
    exact (Admits.behind (P := (cond.WellScoped ·)) (finds_checkExpr cond s) hbody).imp
      fun _ h ↦ .whileLoop h.1 h.2
  | .forEach _ type binding items body, s => by
    have hbinding := Admits.declare type binding false (checkExpr items s).enter
    -- the name of the loop variable stands in a block of its own
    have hbody := (hbinding.trans (admits_checkStmt true body
      ((checkExpr items s).enter.declare type binding false).enter).block).block
    exact (Admits.behind (P := (items.WellScoped ·)) (finds_checkExpr items s) hbody).imp
      fun _ h ↦ .forEach h.1 h.2.2
  | .returnWith _ none, s => .refl (fun _ ↦ .returnWith nofun) s
  | .returnWith _ (some value), s => by
    refine Finds.admits <| (finds_checkExpr value s).imp fun h ↦ .returnWith fun e he ↦ ?_
    cases he
    exact h
  | .throwWith _ value, s => Finds.admits <| (finds_checkExpr value s).imp .throwWith
  | .breakLoop span, s => by
    rw [checkStmt.eq_def]
    dsimp only
    split
    · rename_i hloop
      exact .refl (fun _ ↦ hloop ▸ .breakLoop) s
    · exact .error rfl span s
  | .continueLoop span, s => by
    rw [checkStmt.eq_def]
    dsimp only
    split
    · rename_i hloop
      exact .refl (fun _ ↦ hloop ▸ .continueLoop) s
    · exact .error rfl span s
  | .empty _, s => .refl (fun _ ↦ .empty) s

/-- So do the checks of statements one after the other. -/
theorem admits_checkStmts (inLoop : Bool) (r : Reach) : ∀ (ss : List Stmt) (s : Survey),
    Admits (declaredAll ss) (Stmt.ListWellScoped inLoop · ss) s (checkStmts inLoop r ss s).2
  | [], s => .refl (fun _ ↦ .nil) s
  | stmt :: rest, s => by
    rw [checkStmts.eq_def]
    dsimp only
    have htold : Finds True s (if stmt.isEmpty then (r, s) else r.tell stmt.span s).2 := by
      split
      · exact .refl trivial s
      · exact finds_tell r stmt.span s
    have hstmt := Admits.behind (P := fun _ ↦ True) htold (admits_checkStmt inLoop stmt _)
    exact (hstmt.trans (admits_checkStmts inLoop _ rest _)).imp fun _ h ↦ .cons h.1.2 h.2

end

/-- A script of which the checks only give warnings is well-scoped. -/
theorem check_sound {program : Program} (h : ∀ c ∈ check program, c.isError = false) :
    program.WellScoped := by
  have hstatements := admits_checkStmts false .reached program.statements ⟨[[]], []⟩
  rcases hrs : checkStmts false .reached program.statements ⟨[[]], []⟩ with ⟨r, s⟩
  rw [hrs] at hstatements
  have hclean {s : Survey} (hs : ∀ c ∈ s.leave.complaints.reverse, c.isError = false) : s.Clean :=
    clean_of_leave fun c hc ↦ hs c (List.mem_reverse.2 hc)
  rw [check.eq_def, hrs] at h
  dsimp only at h
  rcases htail : program.tail with - | e
  · rw [htail] at h
    have hfound := (hstatements.found (hclean h) [] [] rfl).2
    exact ⟨hfound, fun e he ↦ by rw [htail] at he; cases he⟩
  · rw [htail] at h
    have he := Admits.behind (P := fun _ ↦ True) (finds_tell r e.span s)
      (Finds.admits (P := (e.WellScoped ·)) (finds_checkExpr e _))
    obtain ⟨hfound, -, he⟩ := ((hstatements.trans he).found (hclean h) [] [] rfl).2
    refine ⟨hfound, fun e' he' ↦ ?_⟩
    rw [htail] at he'
    cases he'
    rw [List.flatten_nil, List.append_nil, List.append_nil] at he
    exact he

end Snippet.Script
