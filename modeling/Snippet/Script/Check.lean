import Snippet.Script.Builtin
import Snippet.Script.Tree

/-!
# Static checks

The checks look at a tree without running it: which names are in scope, how many arguments a
builtin takes, which literals a variable can hold, where loops are left, what is never reached and
which variables are never read. Complaints are kept in the order in which they are found; those
about variables that are never read come when their block ends.

* A name may not be declared again in its block or in a block inside it.
* What is never reached is said once for each list of statements.
* `literalType?` is the type of an expression where it can be seen from the expression alone.
-/

namespace Snippet.Script

/-- A local variable, as the checks see it. -/
structure Local where
  name : String
  type : DeclType
  span : Span
  /-- Whether it has been read. -/
  used : Bool
  /-- Whether to say so if it is never read. Loop variables are not watched. -/
  watched : Bool
  deriving DecidableEq, Repr, Inhabited

/-- What the checks know at a place of the script. -/
structure Survey where
  /-- The variables in scope, by blocks from the innermost outwards, newest first in each. -/
  scopes : List (List Local)
  /-- The complaints so far, newest first. -/
  complaints : List Complaint
  deriving Repr, Inhabited

namespace Survey

/-- Adds a complaint. -/
def complain (problem : Problem) (span : Span) (s : Survey) : Survey :=
  { s with complaints := ⟨problem, span⟩ :: s.complaints }

/-- Enters a block. -/
def enter (s : Survey) : Survey :=
  { s with scopes := [] :: s.scopes }

/-- The complaint about a variable that was never read. -/
def unused? (l : Local) : Option Complaint :=
  if l.watched && !l.used then some ⟨.unusedLocal l.name, l.span⟩ else none

/-- Leaves a block. -/
def leave (s : Survey) : Survey :=
  match s.scopes with
  | [] => s
  | scope :: scopes => ⟨scopes, scope.filterMap unused? ++ s.complaints⟩

/-- The variable of a name. -/
def find? (name : String) (s : Survey) : Option Local :=
  s.scopes.findSome? fun scope ↦ scope.find? (·.name == name)

/-- Notes that the variable of a name is read. -/
def use (name : String) (s : Survey) : Survey :=
  let mark (l : Local) : Local := if l.name = name then { l with used := true } else l
  { s with scopes := s.scopes.map (·.map mark) }

/-- Declares a variable, unless its name is taken. -/
def declare (type : DeclType) (name : Ident) (watched : Bool) (s : Survey) : Survey :=
  match s.scopes with
  | [] => s
  | scope :: scopes =>
    if scope.any (·.name == name.name) then s.complain (.duplicateLocal name.name) name.span
    else if (s.find? name.name).isSome then s.complain (.nameUsedOutside name.name) name.span
    else
      let s : Survey := ⟨(⟨name.name, type, name.span, false, watched⟩ :: scope) :: scopes,
        s.complaints⟩
      match Builtin.ofName? name.name with
      | some builtin => s.complain (.hidesBuiltin name.name builtin.origin) name.span
      | none => s

end Survey

/-- The type of an expression where it can be seen without running it. -/
def literalType? : Expr → Option String
  | .literal _ .null => some "null"
  | .literal _ (.bool _) => some "bool"
  | .literal _ (.int _) => some "int"
  | .literal _ (.float _) => some "double"
  | .literal _ (.string _) => some "string"
  | .list _ _ => some "list"
  | .map _ _ => some "map"
  | .unary _ .neg operand =>
    match literalType? operand with
    | some "int" => some "int"
    | some "double" => some "double"
    | _ => none
  | .unary _ .not _ => some "bool"
  | .binary _ op _ _ =>
    match op with
    | .add | .sub | .mul | .div | .rem => none
    | _ => some "bool"
  | _ => none

/-- Whether a variable of a type can take a value of the type with this name. -/
def DeclType.accepts (target : DeclType) (found : String) : Bool :=
  match target with
  | .var | .let | .object => true
  | .int | .long => found == "int"
  | .double => found == "int" || found == "double"
  | .string => found == "string" || found == "null"
  | .bool => found == "bool"
  | .list => found == "list" || found == "null"
  | .map => found == "map" || found == "null"

/-- Looks at the value that a variable is to take. -/
def checkAssignable (type : DeclType) (value : Expr) (s : Survey) : Survey :=
  match literalType? value with
  | none => s
  | some found =>
    if type.accepts found then s
    else if found = "null" then s.complain (.nullToValueType type) value.span
    else s.complain (.typeMismatch found type) value.span

/-- Looks at the number of arguments of a builtin. -/
def checkArity (b : Builtin) (count : Nat) (span : Span) (s : Survey) : Survey :=
  if b.accepts count then s else s.complain (.wrongArity b.name count) span

/-- Looks at a name that is read. -/
def checkName (name : String) (span : Span) (s : Survey) : Survey :=
  if (s.find? name).isSome then s.use name
  else if (Builtin.ofName? name).isSome then s.complain (.helperAsValue name) span
  else s.complain (.unknownName name) span

/-- Looks at a name that is called. -/
def checkCalled (name : String) (nameSpan : Span) (count : Nat) (span : Span) (s : Survey) :
    Survey :=
  if (s.find? name).isSome then (s.use name).complain (.variableInvoked name) nameSpan
  else
    match Builtin.ofName? name with
    | some b => checkArity b count span s
    | none => s.complain (.unknownName name) nameSpan

/-- Looks at a helper that is called as a method. -/
def checkMethod (field : Ident) (count : Nat) (span : Span) (s : Survey) : Survey :=
  match Builtin.ofName? field.name with
  | some b =>
    if b.origin = .helper then checkArity b count span s
    else s.complain (.noSuchMethod field.name) field.span
  | none => s.complain (.noSuchMethod field.name) field.span

mutual

/-- Checks an expression. -/
def checkExpr : Expr → Survey → Survey
  | .literal _ _, s => s
  | .name span name, s => checkName name span s
  | .list _ items, s => checkExprs items s
  | .map _ entries, s => checkEntries entries s
  | .unary _ _ operand, s => checkExpr operand s
  | .binary _ _ lhs rhs, s => checkExpr rhs (checkExpr lhs s)
  | .ternary _ cond yes no, s => checkExpr no (checkExpr yes (checkExpr cond s))
  | .call span callee args, s =>
    let s := checkExprs args s
    -- a callee that is not a name or a method is checked like any expression
    let whole : Survey → Survey := fun s ↦ checkExpr callee s
    match callee with
    | .name nameSpan name => checkCalled name nameSpan args.length span s
    | .member _ target field => checkMethod field (args.length + 1) span (checkExpr target s)
    | _ => (whole s).complain .notInvocable callee.span
  | .index _ target index, s => checkExpr index (checkExpr target s)
  | .member _ target _, s => checkExpr target s

/-- Checks expressions from left to right. -/
def checkExprs : List Expr → Survey → Survey
  | [], s => s
  | e :: rest, s => checkExprs rest (checkExpr e s)

/-- Checks the entries of a map literal. -/
def checkEntries : List (Expr × Expr) → Survey → Survey
  | [], s => s
  | (k, v) :: rest, s => checkEntries rest (checkExpr v (checkExpr k s))

end

/-- Checks the indices of a path. -/
def checkPath : List Accessor → Survey → Survey
  | [], s => s
  | .index e :: rest, s => checkPath rest (checkExpr e s)
  | .member _ :: rest, s => checkPath rest s

/-- Checks an assignment. Unless it only sets a variable, the variable is read. -/
def checkAssignment (root : Ident) (path : List Accessor) (op : AssignOp) (value : Expr)
    (s : Survey) : Survey :=
  let s := checkPath path (checkExpr value s)
  match s.find? root.name with
  | some l =>
    if op = .set ∧ path.isEmpty then checkAssignable l.type value s else s.use root.name
  | none =>
    if (Builtin.ofName? root.name).isSome then s.complain (.assignToHelper root.name) root.span
    else s.complain (.unknownName root.name) root.span

mutual

/-- Whether what stands behind a statement is never reached. -/
def Stmt.diverges : Stmt → Bool
  | .returnWith _ _ | .throwWith _ _ | .breakLoop _ | .continueLoop _ => true
  | .block _ body => anyDiverges body
  | .ifElse _ _ yes (some no) => yes.diverges && no.diverges
  | _ => false

/-- Whether the end of a list of statements is never reached. -/
def anyDiverges : List Stmt → Bool
  | [] => false
  | s :: rest => s.diverges || anyDiverges rest

end

/-- Whether a place in a list of statements is reached. -/
inductive Reach where
  | reached
  | lost
  /-- The place is not reached, and a complaint has been made. -/
  | told
  deriving DecidableEq, Repr, Inhabited

/-- Complains at the first thing that is not reached. -/
def Reach.tell (span : Span) (r : Reach) (s : Survey) : Reach × Survey :=
  match r with
  | .lost => (.told, s.complain .unreachable span)
  | r => (r, s)

/-- How the place behind a statement is reached. -/
def Reach.behind (diverges : Bool) : Reach → Reach
  | .reached => if diverges then .lost else .reached
  | r => r

mutual

/-- Checks a statement, inside of a loop or not. -/
def checkStmt (inLoop : Bool) : Stmt → Survey → Survey
  | .declare _ type name init, s =>
    let s := match init with
      | some value => checkAssignable type value (checkExpr value s)
      | none => s
    s.declare type name true
  | .assign _ root path op value, s => checkAssignment root path op value s
  | .expression _ value, s => checkExpr value s
  | .block _ body, s => (checkStmts inLoop .reached body s.enter).2.leave
  | .ifElse _ cond yes no, s =>
    let s := (checkStmt inLoop yes (checkExpr cond s).enter).leave
    match no with
    | some no => (checkStmt inLoop no s.enter).leave
    | none => s
  | .whileLoop _ cond body, s => (checkStmt true body (checkExpr cond s).enter).leave
  | .forEach _ type binding items body, s =>
    let s := (checkExpr items s).enter.declare type binding false
    -- the loop variable stands in a block around that of the body
    (checkStmt true body s.enter).leave.leave
  | .returnWith _ value, s =>
    match value with
    | some value => checkExpr value s
    | none => s
  | .throwWith _ value, s => checkExpr value s
  | .breakLoop span, s | .continueLoop span, s =>
    if inLoop then s else s.complain .noEnclosingLoop span
  | .empty _, s => s

/-- Checks a list of statements. The answer says how its end is reached. -/
def checkStmts (inLoop : Bool) (r : Reach) : List Stmt → Survey → Reach × Survey
  | [], s => (r, s)
  | stmt :: rest, s =>
    let (r, s) := if stmt.isEmpty then (r, s) else r.tell stmt.span s
    checkStmts inLoop (r.behind stmt.diverges) rest (checkStmt inLoop stmt s)

end

/-- The complaints about a script, in the order in which they are found. -/
def check (program : Program) : List Complaint :=
  let (r, s) := checkStmts false .reached program.statements ⟨[[]], []⟩
  let s := match program.tail with
    | some e => checkExpr e (r.tell e.span s).2
    | none => s
  s.leave.complaints.reverse

end Snippet.Script
