import Snippet.Proofs.UnreadLocals

/-!
# Where the checks come

The checks come to every statement once, and know something about the variables in scope when they
do (`Visit`). This module says what they do in between, as far as it concerns the types of
variables.

* `Advances` says of two surveys which values have been refused between them, and which variables
  have been added. A variable is added wherever it is declared, unless its name is taken, which is
  said (`Survey.Trusts`).
* `advances_checkStmt`: the checks of a statement refuse what its visits refuse, and add what it
  declares.
* `mem_check_of_mem_visits`: the checks do come to the visits, and complain as they are said to.
* `refusals_check`: the complaints about a whole script that refuse a value are those of its
  visits.

That a name is not taken twice need not hold of all names. What is said about a name asks for it
only of this one.
-/

namespace Snippet.Script

/-! ### Visits -/

/-- A statement to which the checks come, with what they know then. -/
structure Visit where
  stmt : Stmt
  survey : Survey

mutual

/-- The visits of a statement and of those inside of it, in the order of the checks. -/
def Stmt.visits (inLoop : Bool) : Stmt → Survey → List Visit
  | .block span body, s =>
    ⟨.block span body, s⟩ :: visitsOf inLoop .reached body s.enter
  | .ifElse span cond yes none, s =>
    ⟨.ifElse span cond yes none, s⟩ :: yes.visits inLoop (checkExpr cond s).enter
  | .ifElse span cond yes (some no), s =>
    ⟨.ifElse span cond yes (some no), s⟩ ::
      (yes.visits inLoop (checkExpr cond s).enter ++
        no.visits inLoop (checkStmt inLoop yes (checkExpr cond s).enter).leave.enter)
  | .whileLoop span cond body, s =>
    ⟨.whileLoop span cond body, s⟩ :: body.visits true (checkExpr cond s).enter
  | .forEach span type binding items body, s =>
    ⟨.forEach span type binding items body, s⟩ ::
      body.visits true ((checkExpr items s).enter.declare type binding false).enter
  | stmt, s => [⟨stmt, s⟩]

/-- The visits of a list of statements. -/
def visitsOf (inLoop : Bool) (r : Reach) : List Stmt → Survey → List Visit
  | [], _ => []
  | stmt :: rest, s =>
    let (r, s) := r.meet stmt s
    stmt.visits inLoop s ++
      visitsOf inLoop (r.behind stmt.diverges) rest (checkStmt inLoop stmt s)

end

/-- The visits of a script. The expression at its end is visited like a statement. -/
def Program.visits (program : Program) : List Visit :=
  visitsOf false .reached program.whole ⟨[[]], []⟩

theorem mem_visits (inLoop : Bool) (stmt : Stmt) (s : Survey) :
    ⟨stmt, s⟩ ∈ stmt.visits inLoop s := by
  fun_cases Stmt.visits inLoop stmt s <;> exact .head _

theorem visitsOf_cons (inLoop : Bool) (r : Reach) (stmt : Stmt) (rest : List Stmt) (s : Survey) :
    visitsOf inLoop r (stmt :: rest) s =
      stmt.visits inLoop (r.meet stmt s).2 ++
        visitsOf inLoop ((r.meet stmt s).1.behind stmt.diverges) rest
          (checkStmt inLoop stmt (r.meet stmt s).2) :=
  rfl

theorem visitsOf_append (inLoop : Bool) (r : Reach) (ss ss' : List Stmt) (s : Survey) :
    visitsOf inLoop r (ss ++ ss') s =
      visitsOf inLoop r ss s ++
        visitsOf inLoop (checkStmts inLoop r ss s).1 ss' (checkStmts inLoop r ss s).2 := by
  induction ss generalizing r s with
  | nil => rfl
  | cons stmt rest ih =>
    rw [List.cons_append, visitsOf_cons, visitsOf_cons, checkStmts_cons, ih, List.append_assoc]

/-! ### Values that are refused -/

/-- The complaint about a value that a variable of a type cannot take. -/
def refusal? (type : DeclType) (value : Expr) : Option Complaint :=
  match literalType? value with
  | none => none
  | some found =>
    if type.accepts found then none
    else if found = "null" then some ⟨.nullToValueType type, value.span⟩
    else some ⟨.typeMismatch found type, value.span⟩

/-- Whether this refuses a value. -/
def Problem.isRefusal (problem : Problem) : Bool :=
  problem.id == "SC0029" || problem.id == "SC0037"

theorem Problem.isRefusal_of_isUse {problem : Problem} (h : problem.isUse = true) :
    problem.isRefusal = false := by
  cases problem <;> first | rfl | cases h

theorem refusal?_eq_some {type : DeclType} {value : Expr} {c : Complaint}
    (h : refusal? type value = some c) :
    c.problem.isRefusal = true ∧ ∃ found, literalType? value = some found ∧
      type.accepts found = false := by
  rw [refusal?] at h
  split at h
  · cases h
  · next found hfound =>
    split at h
    · cases h
    · next haccepts =>
      refine ⟨?_, found, hfound, Bool.eq_false_iff.2 haccepts⟩
      split at h <;> cases h <;> rfl

/-- The checks of a value complain by this, and by nothing else. -/
theorem checkAssignable_eq (type : DeclType) (value : Expr) (s : Survey) :
    checkAssignable type value s =
      { s with complaints := (refusal? type value).toList ++ s.complaints } := by
  rw [checkAssignable, refusal?]
  cases literalType? value with
  | none => rfl
  | some found =>
    dsimp only
    by_cases haccepts : type.accepts found
    · rw [if_pos haccepts, if_pos haccepts]
      rfl
    · rw [if_neg haccepts, if_neg haccepts]
      by_cases hnull : found = "null"
      · rw [if_pos hnull, if_pos hnull]
        rfl
      · rw [if_neg hnull, if_neg hnull]
        rfl

/-- The type of the variable that a visited statement sets to a value, as the checks know it, and
the expression of that value. Only declarations and plain assignments are looked at. -/
def Visit.target? : Visit → Option (DeclType × Expr)
  | ⟨.declare _ type _ (some value), _⟩ => some (type, value)
  | ⟨.assign _ root [] .set value, s⟩ => (s.find? root.name).map fun l ↦ (l.type, value)
  | _ => none

theorem Visit.target?_assign (span : Span) (root : Ident) (path : List Accessor) (op : AssignOp)
    (value : Expr) (s : Survey) :
    (⟨.assign span root path op value, s⟩ : Visit).target? =
      if op = .set ∧ path.isEmpty then (s.find? root.name).map fun l ↦ (l.type, value)
      else none := by
  cases path <;> cases op <;> rfl

/-- The complaint of a visit about the value. -/
def Visit.refusal? (visit : Visit) : Option Complaint :=
  visit.target?.bind fun target ↦ Script.refusal? target.1 target.2

/-! ### Names and types -/

/-- The name and the type of a variable. -/
abbrev Signature := String × DeclType

/-- The signatures of those names that can be trusted. -/
def trustedOf (trusted : String → Bool) (signatures : List Signature) : List Signature :=
  signatures.filter fun signature ↦ trusted signature.1

theorem trustedOf_append (trusted : String → Bool) (signatures signatures' : List Signature) :
    trustedOf trusted (signatures ++ signatures') =
      trustedOf trusted signatures ++ trustedOf trusted signatures' :=
  List.filter_append ..

/-- What is kept of variables, newest first, if a name that is taken is not declared again. -/
def oldest : List Signature → List Signature
  | [] => []
  | signature :: rest =>
    if rest.any (·.1 == signature.1) then oldest rest else signature :: oldest rest

/-- Every name is kept. -/
theorem any_oldest (x : String) (signatures : List Signature) :
    (oldest signatures).any (·.1 == x) = signatures.any (·.1 == x) := by
  induction signatures with
  | nil => rfl
  | cons signature rest ih =>
    rw [oldest]
    split
    · next htaken =>
      rw [ih, List.any_cons]
      by_cases hname : signature.1 = x
      · rw [← hname, htaken, Bool.or_true]
      · rw [beq_eq_false_iff_ne.2 hname, Bool.false_or]
    · rw [List.any_cons, List.any_cons, ih]

/-- A name that has been declared once denotes the same. -/
theorem find?_oldest {x : String} {signatures : List Signature}
    (h : (signatures.map Prod.fst).count x ≤ 1) :
    (oldest signatures).find? (·.1 == x) = signatures.find? (·.1 == x) := by
  induction signatures with
  | nil => rfl
  | cons signature rest ih =>
    rw [List.map_cons, List.count_cons] at h
    have hrest := ih (Nat.le_trans (Nat.le_add_right ..) h)
    rw [oldest]
    split
    · next htaken =>
      have hname : signature.1 ≠ x := by
        rintro rfl
        rw [if_pos (beq_self_eq_true _)] at h
        obtain ⟨later, hmem, hlater⟩ := List.any_eq_true.1 htaken
        have hpos : 0 < (rest.map Prod.fst).count signature.1 := by
          rw [List.count_pos_iff]
          exact beq_iff_eq.1 hlater ▸ List.mem_map_of_mem hmem
        omega
      rw [hrest, List.find?_cons_of_neg (by simpa using hname)]
    · rw [List.find?_cons, List.find?_cons, hrest]

/-- The first variable of a name has the first signature of that name. -/
theorem map_findSome? {β : Type} (signature : β → Signature) (x : String)
    (scopes : List (List β)) :
    (scopes.findSome? fun scope ↦ scope.find? fun b ↦ (signature b).1 == x).map signature =
      (scopes.map (·.map signature)).flatten.find? (·.1 == x) := by
  induction scopes with
  | nil => rfl
  | cons scope rest ih =>
    rw [List.findSome?_cons, List.map_cons, List.flatten_cons, List.find?_append, ← ih,
      List.find?_map]
    show _ = ((scope.find? fun b ↦ (signature b).1 == x).map signature).or _
    cases scope.find? fun b ↦ (signature b).1 == x <;> rfl

/-- The name and the type of a variable, as the checks see it. -/
def Local.signature (l : Local) : Signature :=
  (l.name, l.type)

/-- The name that a declaration finds taken. -/
def Problem.takenName? : Problem → Option String
  | .duplicateLocal name | .nameUsedOutside name => some name
  | _ => none

theorem Complaint.isError_of_takenName? {c : Complaint} {name : String}
    (h : c.problem.takenName? = some name) : c.isError = true := by
  obtain ⟨problem, span⟩ := c
  cases problem <;> first | rfl | cases h

namespace Survey

/-- The signatures of the variables in scope, by blocks from the innermost outwards. -/
def signatures (s : Survey) : List (List Signature) :=
  s.scopes.map (·.map Local.signature)

/-- No trusted name has been found taken. -/
def Trusts (trusted : String → Bool) (s : Survey) : Prop :=
  ∀ c ∈ s.complaints, ∀ name, c.problem.takenName? = some name → trusted name = false

/-- The variables in scope have different names. -/
def Distinct (s : Survey) : Prop :=
  (s.signatures.flatten.map Prod.fst).Nodup

variable {s s' s'' : Survey} {refused refused' : List Complaint}
  {declared declared' : List Signature}

theorem map_find? (x : String) (s : Survey) :
    (s.find? x).map Local.signature = s.signatures.flatten.find? (·.1 == x) :=
  map_findSome? Local.signature x s.scopes

theorem isSome_find? (x : String) (s : Survey) :
    (s.find? x).isSome = s.signatures.flatten.any (·.1 == x) := by
  rw [← Option.isSome_map (f := Local.signature), map_find?, List.isSome_find?]

@[simp]
theorem signatures_enter (s : Survey) : s.enter.signatures = [] :: s.signatures :=
  rfl

theorem signatures_leave (s : Survey) : s.leave.signatures = s.signatures.tail := by
  rcases s with ⟨_ | ⟨scope, scopes⟩, complaints⟩ <;> rfl

/-- Marks are not seen in signatures. -/
theorem signatures_of_marks {made : Problem → Bool} {read : String → Bool}
    (h : Marks made read s s') : s'.signatures = s.signatures := by
  rw [signatures, h.scopes, markAll, List.map_map]
  refine List.map_congr_left fun scope _ ↦ ?_
  show (scope.map _).map _ = _
  rw [List.map_map]
  refine List.map_congr_left fun l _ ↦ ?_
  show Local.signature (if read l.name then { l with used := true } else l) = l.signature
  split <;> rfl

/-- The complaints about the variables of a block that ends are warnings, and no others. -/
theorem complaints_leave (s : Survey) :
    ∃ new, s.leave.complaints = new ++ s.complaints ∧
      ∀ c ∈ new, ∃ name, c.problem = .unusedLocal name := by
  rcases s with ⟨_ | ⟨scope, scopes⟩, complaints⟩
  · exact ⟨[], rfl, nofun⟩
  · refine ⟨_, rfl, fun c hc ↦ ?_⟩
    obtain ⟨l, -, hl⟩ := List.mem_filterMap.1 hc
    rw [unused?] at hl
    split at hl
    · cases hl
      exact ⟨l.name, rfl⟩
    · cases hl

/-! ### What the checks do from one survey to the next -/

/-- How the checks come from one survey to another: they refuse some values, and add variables to
the innermost block. These are the declared ones, as far as their names can be trusted. -/
structure Advances (refused : List Complaint) (declared : List Signature) (s s' : Survey) :
    Prop where
  complaints : ∃ new, s'.complaints = new ++ s.complaints ∧
    new.filter (·.problem.isRefusal) = refused.reverse
  added : ∃ added, (∀ scope scopes, s.signatures = scope :: scopes →
      s'.signatures = (added ++ scope) :: scopes) ∧
    ∀ trusted, s'.Trusts trusted → trustedOf trusted added = trustedOf trusted declared
  /-- Whatever the names, those are added that have not been taken. -/
  oldest : s.signatures ≠ [] → ∀ known, Script.oldest known = s.signatures.flatten →
    Script.oldest (declared ++ known) = s'.signatures.flatten
  distinct : s.Distinct → s'.Distinct

namespace Advances

theorem trusts {trusted : String → Bool} (h : Advances refused declared s s')
    (hs : s'.Trusts trusted) : s.Trusts trusted := by
  obtain ⟨new, heq, -⟩ := h.complaints
  exact fun c hc ↦ hs c (heq ▸ List.mem_append_right new hc)

/-- What adds no variables. -/
theorem of_signatures (hsignatures : s'.signatures = s.signatures)
    (hcomplaints : ∃ new, s'.complaints = new ++ s.complaints ∧
      new.filter (·.problem.isRefusal) = refused.reverse) : Advances refused [] s s' where
  complaints := hcomplaints
  added := ⟨[], fun _ _ hs ↦ hsignatures.trans hs, fun _ _ ↦ rfl⟩
  oldest _ _ hknown := hknown.trans (by rw [hsignatures])
  distinct hs := by
    rw [Distinct, hsignatures]
    exact hs

theorem refl (s : Survey) : Advances [] [] s s :=
  of_signatures rfl ⟨[], rfl, rfl⟩

theorem trans (h : Advances refused declared s s') (h' : Advances refused' declared' s' s'') :
    Advances (refused ++ refused') (declared' ++ declared) s s'' where
  complaints := by
    obtain ⟨new, heq, hnew⟩ := h.complaints
    obtain ⟨new', heq', hnew'⟩ := h'.complaints
    refine ⟨new' ++ new, by rw [heq', heq, List.append_assoc], ?_⟩
    rw [List.filter_append, hnew, hnew', List.reverse_append]
  added := by
    obtain ⟨added, hadded, htrusted⟩ := h.added
    obtain ⟨added', hadded', htrusted'⟩ := h'.added
    refine ⟨added' ++ added, fun scope scopes hs ↦ ?_, fun trusted hs ↦ ?_⟩
    · rw [hadded' _ _ (hadded scope scopes hs), List.append_assoc]
    · rw [trustedOf_append, trustedOf_append, htrusted' trusted hs,
        htrusted trusted (h'.trusts hs)]
  oldest hs known hknown := by
    obtain ⟨added, hadded, -⟩ := h.added
    obtain ⟨scope, scopes, hscopes⟩ := List.exists_cons_of_ne_nil hs
    have hs' : s'.signatures ≠ [] := hadded scope scopes hscopes ▸ List.cons_ne_nil _ _
    rw [List.append_assoc]
    exact h'.oldest hs' _ (h.oldest hs known hknown)
  distinct hs := h'.distinct (h.distinct hs)

/-- A complaint that refuses nothing. -/
theorem complain {problem : Problem} (hproblem : problem.isRefusal = false) (span : Span)
    (s : Survey) : Advances [] [] s (s.complain problem span) := by
  refine of_signatures rfl ⟨[⟨problem, span⟩], rfl, ?_⟩
  rw [List.filter_cons_of_neg (by simp [hproblem])]
  rfl

/-- The checks of expressions find fault with uses, and a use is no value that is refused. -/
theorem of_marks {read : String → Bool} (h : Marks Problem.isUse read s s') :
    Advances [] [] s s' := by
  obtain ⟨new, heq, hnew⟩ := h.complaints
  refine of_signatures (signatures_of_marks h) ⟨new, heq, ?_⟩
  rw [List.reverse_nil, List.filter_eq_nil_iff]
  intro c hc
  rw [Problem.isRefusal_of_isUse (hnew c hc)]
  exact Bool.false_ne_true

/-- The checks of a value refuse it, or say nothing. -/
theorem checkAssignable (type : DeclType) (value : Expr) (s : Survey) :
    Advances (refusal? type value).toList [] s (checkAssignable type value s) := by
  rw [checkAssignable_eq]
  refine of_signatures rfl ⟨_, rfl, ?_⟩
  rcases hrefusal : refusal? type value with - | c
  · rfl
  · exact List.filter_cons_of_pos (refusal?_eq_some hrefusal).1

theorem meet (r : Reach) (stmt : Stmt) (s : Survey) : Advances [] [] s (r.meet stmt s).2 := by
  rw [Reach.meet]
  split
  · exact refl s
  · cases r with
    | lost => exact complain rfl stmt.span s
    | _ => exact refl s

/-- A declaration adds its variable, unless its name is taken. -/
theorem declare (type : DeclType) (name : Ident) (watched : Bool) (s : Survey) :
    Advances [] [(name.name, type)] s (s.declare type name watched) := by
  -- a name that is found taken is not to be trusted
  have htaken {problem : Problem} (hrefusal : problem.isRefusal = false)
      (hname : problem.takenName? = some name.name) (hfound : (s.find? name.name).isSome = true) :
      Advances [] [(name.name, type)] s (s.complain problem name.span) := by
    have hcomplain := complain hrefusal name.span s
    refine ⟨hcomplain.complaints, ⟨[], fun _ _ hs ↦ hs, fun trusted htrusts ↦ ?_⟩,
      fun _ known hknown ↦ ?_, hcomplain.distinct⟩
    · have huntrusted := htrusts _ (.head _) _ hname
      exact (List.filter_cons_of_neg (by rw [huntrusted]; exact Bool.false_ne_true)).symm
    · rw [isSome_find?, ← hknown, any_oldest] at hfound
      rw [List.singleton_append, Script.oldest, if_pos hfound]
      exact hknown
  rcases s with ⟨_ | ⟨scope, scopes⟩, complaints⟩
  · exact ⟨⟨[], rfl, rfl⟩, ⟨_, nofun, fun _ _ ↦ rfl⟩, fun hs ↦ absurd rfl hs, id⟩
  · rw [Survey.declare]
    dsimp only
    split
    · next hscope =>
      refine htaken rfl rfl ?_
      rw [Survey.find?, List.findSome?_cons]
      obtain ⟨l, hl⟩ := Option.isSome_iff_exists.1 ((List.isSome_find? ..).trans hscope)
      rw [hl]
      rfl
    · split
      · next hfound => exact htaken rfl rfl hfound
      · next hfree =>
        rw [isSome_find?, Bool.not_eq_true] at hfree
        have hadded : Advances [] [(name.name, type)] ⟨scope :: scopes, complaints⟩
            ⟨(⟨name.name, type, name.span, false, watched⟩ :: scope) :: scopes, complaints⟩ := by
          refine ⟨⟨[], rfl, rfl⟩, ⟨[(name.name, type)], ?_, fun _ _ ↦ rfl⟩, fun _ known hknown ↦ ?_,
            fun hs ↦ ?_⟩
          · rintro _ _ ⟨⟩
            rfl
          · rw [← hknown, any_oldest] at hfree
            rw [List.singleton_append, Script.oldest, if_neg (Bool.eq_false_iff.1 hfree), hknown]
            rfl
          · refine List.nodup_cons.2 ⟨fun hmem ↦ ?_, hs⟩
            obtain ⟨signature, hsignature, hname⟩ := List.mem_map.1 hmem
            exact List.any_eq_false.1 hfree signature hsignature (beq_iff_eq.2 hname)
        split
        · exact hadded.trans (complain rfl name.span _)
        · exact hadded

/-- Leaving a block forgets its variables. -/
theorem block (h : Advances refused declared s.enter s') : Advances refused [] s s'.leave := by
  obtain ⟨new, heq, hnew⟩ := h.complaints
  obtain ⟨added, hadded, -⟩ := h.added
  obtain ⟨unused, hleave, hunused⟩ := complaints_leave s'
  have hsignatures : s'.leave.signatures = s.signatures := by
    rw [signatures_leave, hadded _ _ (signatures_enter s)]
    rfl
  refine of_signatures hsignatures ⟨unused ++ new, by rw [hleave, heq, List.append_assoc]; rfl, ?_⟩
  have hnone : unused.filter (·.problem.isRefusal) = [] := by
    rw [List.filter_eq_nil_iff]
    intro c hc
    obtain ⟨name, hname⟩ := hunused c hc
    rw [hname]
    exact Bool.false_ne_true
  rw [List.filter_append, hnone, hnew, List.nil_append]

end Advances

end Survey

open Survey

/-- The signatures that a statement adds to its block. -/
def Stmt.signatures : Stmt → List Signature
  | .declare _ type name _ => [(name.name, type)]
  | _ => []

/-- The signatures that a list of statements adds to its block. -/
def signaturesOf : List Stmt → List Signature
  | [] => []
  | s :: rest => signaturesOf rest ++ s.signatures

/-- What the visits of some statements refuse. -/
abbrev refusals (visits : List Visit) : List Complaint :=
  visits.filterMap Visit.refusal?

theorem refusals_singleton (visit : Visit) : refusals [visit] = visit.refusal?.toList := by
  rw [refusals, List.filterMap_cons]
  cases visit.refusal? <;> rfl

/-- The type of a variable is known before its new value has been checked, and not changed by
that. -/
theorem map_type_find?_of_marks {made : Problem → Bool} {read : String → Bool} {s s' : Survey}
    (h : Marks made read s s') (x : String) :
    (s'.find? x).map Local.type = (s.find? x).map Local.type := by
  have hsignature : (s'.find? x).map Local.signature = (s.find? x).map Local.signature := by
    rw [map_find?, map_find?, signatures_of_marks h]
  have htypes := congrArg (Option.map Prod.snd) hsignature
  rwa [Option.map_map, Option.map_map] at htypes

/-- Only a plain assignment to a variable that is known can be refused. -/
theorem advances_checkAssignment (span : Span) (root : Ident) (path : List Accessor) (op : AssignOp)
    (value : Expr) (s : Survey) :
    Advances (refusals [⟨.assign span root path op value, s⟩]) [] s
      (checkAssignment root path op value s) := by
  have hparts := (uses_checkExpr value s).trans (uses_checkPath path _)
  have htype := map_type_find?_of_marks hparts root.name
  have hadvances := Advances.of_marks hparts
  rw [refusals_singleton, checkAssignment]
  generalize checkPath path (checkExpr value s) = s' at htype hadvances
  rcases hfound : s'.find? root.name with - | l
  · have hnone : s.find? root.name = none := by
      rw [hfound] at htype
      exact Option.map_eq_none_iff.1 htype.symm
    have hrefusal : (⟨.assign span root path op value, s⟩ : Visit).refusal? = none := by
      rw [Visit.refusal?, Visit.target?_assign, hnone]
      split <;> rfl
    rw [hrefusal]
    dsimp only
    split
    · exact hadvances.trans (.complain rfl root.span s')
    · exact hadvances.trans (.complain rfl root.span s')
  · obtain ⟨known, hknown, htype⟩ : ∃ known, s.find? root.name = some known ∧
        known.type = l.type := by
      rw [hfound] at htype
      exact Option.map_eq_some_iff.1 htype.symm
    rw [Visit.refusal?, Visit.target?_assign, hknown]
    dsimp only
    by_cases hplain : op = .set ∧ path.isEmpty
    · rw [if_pos hplain, if_pos hplain, ← htype]
      exact hadvances.trans (.checkAssignable known.type value s')
    · rw [if_neg hplain, if_neg hplain]
      exact hadvances.trans (.of_marks (.use root.name s'))

mutual

/-- The checks of a statement refuse what its visits refuse, and add what it declares. -/
theorem advances_checkStmt : ∀ (inLoop : Bool) (stmt : Stmt) (s : Survey),
    Advances (refusals (stmt.visits inLoop s)) stmt.signatures s (checkStmt inLoop stmt s)
  | _, .declare _ type name none, s => .declare type name true s
  | _, .declare _ type name (some value), s => by
    have hvalue := (Advances.of_marks (uses_checkExpr value s)).trans
      (.checkAssignable type value _)
    have hall := hvalue.trans (.declare type name true _)
    rw [List.append_nil] at hall
    exact refusals_singleton _ ▸ hall
  | _, .assign span root path op value, s => advances_checkAssignment span root path op value s
  | _, .expression _ value, s => .of_marks (uses_checkExpr value s)
  | inLoop, .block _ body, s => (advances_checkStmts inLoop .reached body s.enter).block
  | inLoop, .ifElse _ cond yes none, s => by
    have hyes := (advances_checkStmt inLoop yes (checkExpr cond s).enter).block
    exact (Advances.of_marks (uses_checkExpr cond s)).trans hyes
  | inLoop, .ifElse _ cond yes (some no), s => by
    have hyes := (advances_checkStmt inLoop yes (checkExpr cond s).enter).block
    have hno := (advances_checkStmt inLoop no
      (checkStmt inLoop yes (checkExpr cond s).enter).leave.enter).block
    have hall := ((Advances.of_marks (uses_checkExpr cond s)).trans hyes).trans hno
    rw [List.nil_append, ← List.filterMap_append] at hall
    exact hall
  | _, .whileLoop _ cond body, s => by
    have hbody := (advances_checkStmt true body (checkExpr cond s).enter).block
    exact (Advances.of_marks (uses_checkExpr cond s)).trans hbody
  | _, .forEach _ type binding items body, s => by
    have hbinding := Advances.declare type binding false (checkExpr items s).enter
    have hbody := (advances_checkStmt true body
      ((checkExpr items s).enter.declare type binding false).enter).block
    exact (Advances.of_marks (uses_checkExpr items s)).trans (hbinding.trans hbody).block
  | _, .returnWith _ none, s => .refl s
  | _, .returnWith _ (some value), s => .of_marks (uses_checkExpr value s)
  | _, .throwWith _ value, s => .of_marks (uses_checkExpr value s)
  | true, .breakLoop _, s | true, .continueLoop _, s => .refl s
  | false, .breakLoop span, s | false, .continueLoop span, s => .complain rfl span s
  | _, .empty _, s => .refl s

/-- So do the checks of statements one after the other. -/
theorem advances_checkStmts : ∀ (inLoop : Bool) (r : Reach) (ss : List Stmt) (s : Survey),
    Advances (refusals (visitsOf inLoop r ss s)) (signaturesOf ss) s (checkStmts inLoop r ss s).2
  | _, _, [], s => .refl s
  | inLoop, r, stmt :: rest, s => by
    have hstmt := (Advances.meet r stmt s).trans (advances_checkStmt inLoop stmt (r.meet stmt s).2)
    have hrest := advances_checkStmts inLoop ((r.meet stmt s).1.behind stmt.diverges) rest
      (checkStmt inLoop stmt (r.meet stmt s).2)
    have hall := hstmt.trans hrest
    rw [List.nil_append, List.append_nil, ← List.filterMap_append] at hall
    exact hall

end

/-! ### Visits are where the checks come -/

/-- The checks of one survey come before those of another: what they complain about stays. -/
def Survey.Precedes (s s' : Survey) : Prop :=
  s.complaints <:+ s'.complaints

namespace Survey.Precedes

variable {s s' s'' : Survey} {refused : List Complaint} {declared : List Signature}

theorem refl (s : Survey) : Precedes s s :=
  List.suffix_rfl

theorem trans (h : Precedes s s') (h' : Precedes s' s'') : Precedes s s'' :=
  List.IsSuffix.trans h h'

theorem of_advances (h : Advances refused declared s s') : Precedes s s' := by
  obtain ⟨new, heq, -⟩ := h.complaints
  exact ⟨new, heq.symm⟩

theorem leave (h : Precedes s s') : Precedes s s'.leave := by
  obtain ⟨new, heq, -⟩ := complaints_leave s'
  exact h.trans ⟨new, heq.symm⟩

end Survey.Precedes

/-- The checks have come to a visit before they come to this survey. -/
def Visit.CheckedBefore (visit : Visit) (s : Survey) : Prop :=
  ∃ inLoop, (checkStmt inLoop visit.stmt visit.survey).Precedes s

namespace Visit.CheckedBefore

variable {visit : Visit} {s s' : Survey}

theorem mono (h : visit.CheckedBefore s) (hs : s.Precedes s') : visit.CheckedBefore s' :=
  h.imp fun _ h ↦ h.trans hs

theorem self (inLoop : Bool) (stmt : Stmt) (s : Survey) :
    (⟨stmt, s⟩ : Visit).CheckedBefore (checkStmt inLoop stmt s) :=
  ⟨inLoop, .refl _⟩

end Visit.CheckedBefore

mutual

/-- The visits of a statement are where its checks come. -/
theorem checked_of_mem_visits : ∀ (inLoop : Bool) (stmt : Stmt) (s : Survey),
    ∀ visit ∈ stmt.visits inLoop s, visit.CheckedBefore (checkStmt inLoop stmt s)
  | inLoop, .block _ body, s => by
    refine List.forall_mem_cons.2 ⟨.self .., fun visit hvisit ↦ ?_⟩
    exact (checked_of_mem_visitsOf inLoop .reached body s.enter visit hvisit).mono
      (.leave (.refl _))
  | inLoop, .ifElse _ cond yes none, s => by
    refine List.forall_mem_cons.2 ⟨.self .., fun visit hvisit ↦ ?_⟩
    exact (checked_of_mem_visits inLoop yes (checkExpr cond s).enter visit hvisit).mono
      (.leave (.refl _))
  | inLoop, .ifElse _ cond yes (some no), s => by
    refine List.forall_mem_cons.2 ⟨.self .., List.forall_mem_append.2 ⟨fun visit hvisit ↦ ?_,
      fun visit hvisit ↦ ?_⟩⟩
    · have hno := (advances_checkStmt inLoop no
        (checkStmt inLoop yes (checkExpr cond s).enter).leave.enter).block
      exact (checked_of_mem_visits inLoop yes (checkExpr cond s).enter visit hvisit).mono
        ((Precedes.leave (.refl _)).trans (.of_advances hno))
    · exact (checked_of_mem_visits inLoop no _ visit hvisit).mono (.leave (.refl _))
  | inLoop, .whileLoop _ cond body, s => by
    refine List.forall_mem_cons.2 ⟨.self inLoop .., fun visit hvisit ↦ ?_⟩
    exact (checked_of_mem_visits true body (checkExpr cond s).enter visit hvisit).mono
      (.leave (.refl _))
  | inLoop, .forEach _ _ _ _ body, s => by
    refine List.forall_mem_cons.2 ⟨.self inLoop .., fun visit hvisit ↦ ?_⟩
    exact (checked_of_mem_visits true body _ visit hvisit).mono (.leave (.leave (.refl _)))
  | inLoop, .declare _ _ _ _, s | inLoop, .assign _ _ _ _ _, s | inLoop, .expression _ _, s
  | inLoop, .returnWith _ _, s | inLoop, .throwWith _ _, s | inLoop, .breakLoop _, s
  | inLoop, .continueLoop _, s | inLoop, .empty _, s =>
    List.forall_mem_singleton.2 (.self inLoop _ s)

/-- So it is with statements one after the other. -/
theorem checked_of_mem_visitsOf : ∀ (inLoop : Bool) (r : Reach) (ss : List Stmt) (s : Survey),
    ∀ visit ∈ visitsOf inLoop r ss s, visit.CheckedBefore (checkStmts inLoop r ss s).2
  | _, _, [], _ => List.forall_mem_nil _
  | inLoop, r, stmt :: rest, s => by
    have hrest := advances_checkStmts inLoop ((r.meet stmt s).1.behind stmt.diverges) rest
      (checkStmt inLoop stmt (r.meet stmt s).2)
    rw [visitsOf_cons]
    refine List.forall_mem_append.2 ⟨fun visit hvisit ↦ ?_, fun visit hvisit ↦ ?_⟩
    · exact (checked_of_mem_visits inLoop stmt _ visit hvisit).mono (.of_advances hrest)
    · exact checked_of_mem_visitsOf inLoop _ rest _ visit hvisit

end

/-! ### Whole scripts -/

/-- What the checks of a script do up to its end, where the outermost block is still open. -/
theorem advances_program (program : Program) :
    Advances (refusals program.visits) (signaturesOf program.whole) ⟨[[]], []⟩
      (checkStmts false .reached program.whole ⟨[[]], []⟩).2 :=
  advances_checkStmts false .reached program.whole ⟨[[]], []⟩

/-- The checks of a script come to each of its visits, and what they find fault with there is among
the complaints. -/
theorem mem_check_of_mem_visits {program : Program} {visit : Visit}
    (h : visit ∈ program.visits) :
    ∃ inLoop, ∀ c ∈ (checkStmt inLoop visit.stmt visit.survey).complaints, c ∈ check program := by
  obtain ⟨inLoop, hprecedes⟩ :=
    (checked_of_mem_visitsOf false .reached program.whole ⟨[[]], []⟩ visit h).mono
      (.leave (.refl _))
  refine ⟨inLoop, fun c hc ↦ ?_⟩
  rw [check_eq]
  exact List.mem_reverse.2 (hprecedes.subset hc)

/-- **The values that are refused are those of the visits.** There are no other complaints of the
two kinds, and they come in the order of the visits. -/
theorem refusals_check (program : Program) :
    (check program).filter (·.problem.isRefusal) = refusals program.visits := by
  obtain ⟨new, heq, hnew⟩ := (Advances.block (s := ⟨[], []⟩) (advances_program program)).complaints
  rw [check_eq, heq, List.append_nil, List.filter_reverse, hnew, List.reverse_reverse]

end Snippet.Script
