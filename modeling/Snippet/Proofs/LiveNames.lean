import Mathlib.Data.List.Find
import Mathlib.Data.List.Nodup
import Snippet.Proofs.Scopes
import Snippet.Proofs.Visits

/-!
# Live names

A run and the checks know the same variables. Where a run takes up a statement, the checks have
come to that statement with the variables that are live now: as many, in the same order, with the
same names and types (`Mirrors`). Blocks need not agree, since a `foreach` has two of them in the
checks and one in the run.

* `known_of_exec`: a statement that ends has added what it declares, and nothing else. So a block
  that is left, a round and a branch leave no variable behind.
* `Tracked` carries this over to what a run has still to do, and `Runs.tracked` along the run. What
  the checks find at the first round of a loop goes for every round.
* `live_names_distinct`: of a script without errors all live names are different.

If a name has been found taken, the run declares it nevertheless, and the checks do not. So what is
said here is said of trusted names.
-/

namespace Snippet.Run

open Script (Expr Ident Local Program Reach Signature Stmt Survey Visit checkExpr checkStmt
  checkStmts signaturesOf trustedOf trustedOf_append visitsOf)

variable {setting : Setting} {m m' : Machine} {trusted : String → Bool} {visits : List Visit}

/-! ### What a statement adds -/

/-- The name and the type of a variable. -/
def Slot.signature (slot : Slot) : Signature :=
  (slot.name, slot.type)

/-- The names and types of the live variables, by blocks from the innermost outwards. -/
def Machine.known (m : Machine) : List (List Signature) :=
  shown Slot.signature m.scopes

theorem passage_signatures : Passage (Grows Slot.signature) :=
  passage_grows fun _ _ ↦ rfl

/-- Keeping the names and types as they are is a course. Assignments keep it too. -/
theorem course_known : Course fun m m' ↦ m'.known = m.known where
  refl _ := rfl
  trans h₁ h₂ := h₂.trans h₁
  tick _ := rfl
  emit _ _ := rfl

theorem known_inBlock {α : Type} {x : Step α} (hx : Moves (Grows Slot.signature) x) :
    Moves (fun m m' ↦ m'.known = m.known) (inBlock x) := by
  intro m
  rw [inBlock_apply, after_leaving]
  exact (hx m.enter).leave

theorem known_begin {s : Stmt} (hs : s.signatures = []) :
    Moves (fun m m' ↦ m'.known = m.known) (begin setting s) := by
  rcases hsets : setsVariable s with - | -
  · exact course_known.begin setting hsets
  · cases s with
    | declare _ _ _ _ => cases hs
    | assign _ root path op value =>
      have hassign := course_known.assign (fun name value m ↦
        shown_setSlot (fun _ _ ↦ rfl) name value m.scopes) setting root.name path op value
      exact course_known.bind (course_known.bind (course_known.count setting) fun _ ↦
        course_known.bind hassign fun _ ↦ course_known.pure _) fun _ ↦ course_known.pure _
    | _ => cases hsets

/-- What a statement leaves to do is done in blocks of their own. -/
theorem known_perform {s : Stmt} {t : Task} (h : Begun setting m m' s t) :
    Moves (fun m m' ↦ m'.known = m.known) (t.perform setting) := by
  have hperform := passage_signatures.perform setting
  cases h with
  | done => exact course_known.pure _
  | block => exact known_inBlock (hperform _)
  | yes => exact known_inBlock (hperform _)
  | no => exact known_inBlock (hperform _)
  | @whileLoop _ _ body =>
    exact fun m ↦ course_known.repeatWhile setting
      (course_known.bind (course_known.eval setting _) fun _ ↦ course_known.lift _)
      (known_inBlock (hperform (.stmt body))) _ m
  | @forEach _ _ binding _ body =>
    exact course_known.forItems setting
      (fun item ↦ known_inBlock (hperform (.bound binding.name _ item body))) _

/-- A statement that is no declaration leaves the names and types as they are. -/
theorem known_exec {s : Stmt} (hs : s.signatures = []) :
    Moves (fun m m' ↦ m'.known = m.known) (exec setting s) := by
  intro m
  have hstmt : exec setting s = begin setting s >>= Task.perform setting := Task.perform_stmt s
  rw [hstmt, bind_apply]
  rcases h : begin setting s m with ⟨t, m₁⟩ | ⟨halt, m₁⟩
  · exact (known_perform (begun_of_begin h) m₁).trans ((known_begin hs).of_ok h)
  · exact (known_begin hs).of_error h

theorem known_of_declare {name : String} {type : Script.DeclType} {v : Value}
    (h : declare name type v m = .ok () m') : m'.known = addShown [(name, type)] m.known := by
  obtain ⟨w, -, rfl⟩ := declare_eq_ok h
  exact shown_addSlot ⟨name, type, w⟩ m.scopes

/-- A declaration that halts has added nothing. -/
theorem known_of_declare_halts {name : String} {type : Script.DeclType} {v : Value} {halt : Halt}
    (h : declare name type v m = .error halt m') : m'.known = m.known := by
  rw [declare_apply] at h
  split at h <;> cases h
  rfl

/-- A statement that ends has added what it declares. -/
theorem known_of_exec {s : Stmt} {flow : Flow} (h : exec setting s m = .ok flow m') :
    m'.known = addShown s.signatures m.known := by
  cases s with
  | declare span type name init =>
    obtain ⟨v, w, m₁, hsome, hnone, -, rfl⟩ := exec_declare_eq_ok h
    have hm₁ : m₁.known = m.known := by
      cases init with
      | none => rw [(hnone rfl).2]; rfl
      | some e =>
        exact (course_known.eval setting e).of_ok (m := m.ticked) (hsome e rfl)
    rw [← hm₁]
    exact shown_addSlot ⟨name.name, type, w⟩ m₁.scopes
  | _ => exact ((known_exec rfl).of_ok h).trans (addShown_nil _).symm

/-- One that halts has not added anything. -/
theorem known_of_exec_halts {s : Stmt} {halt : Halt} (h : exec setting s m = .error halt m') :
    m'.known = m.known := by
  cases s with
  | declare span type name init =>
    have hbind {v : Value} {m : Machine}
        (h : (do declare name.name type v; return Flow.normal : Step Flow) m = .error halt m') :
        m'.known = m.known := by
      obtain h | ⟨_, _, -, h⟩ := bind_eq_error_iff.1 h
      · exact known_of_declare_halts h
      · cases h
    obtain h | ⟨_, m₁, htick, h⟩ := bind_eq_error_iff.1 h
    · exact (course_known.count setting).of_error h
    · refine Eq.trans ?_ ((course_known.count setting).of_ok htick)
      cases init with
      | none => exact hbind h
      | some e =>
        obtain h | ⟨v, m₂, heval, h⟩ := bind_eq_error_iff.1 h
        · exact (course_known.eval setting e).of_error h
        · exact (hbind h).trans ((course_known.eval setting e).of_ok heval)
  | _ => exact (known_exec rfl).of_error h

/-- The same of what a statement does itself. -/
theorem known_of_begin {s : Stmt} {t : Task} (h : begin setting s m = .ok t m') :
    m'.known = addShown s.signatures m.known := by
  cases s with
  | declare span type name init =>
    obtain ⟨flow, _, hexec, hpure⟩ := bind_eq_ok_iff.1 h
    cases hpure
    exact known_of_exec hexec
  | _ => exact ((known_begin rfl).of_ok h).trans (addShown_nil _).symm

theorem known_of_begin_halts {s : Stmt} {halt : Halt} (h : begin setting s m = .error halt m') :
    m'.known = m.known := by
  cases s with
  | declare span type name init =>
    obtain hexec | ⟨_, _, -, hpure⟩ := bind_eq_error_iff.1 h
    · exact known_of_exec_halts hexec
    · cases hpure
  | _ => exact (known_begin rfl).of_error h

theorem known_next (l : Loop) : Moves (fun m m' ↦ m'.known = m.known) (l.next setting) :=
  fun m ↦ congrArg (shown Slot.signature) (scopes_next setting l m)

/-! ### What the checks know -/

variable {known : List (List Signature)} {σ σ' : Survey} {refused : List Script.Complaint}
  {declared : List Signature} {ahead : List Visit}

/-- The variables of trusted names have different names. -/
def Distinct (trusted : String → Bool) (known : List (List Signature)) : Prop :=
  ((trustedOf trusted known.flatten).map Prod.fst).Nodup

/-- A run and the checks know the same variables, as far as their names can be trusted. -/
structure Mirrors (trusted : String → Bool) (known : List (List Signature)) (σ : Survey) :
    Prop where
  opened : known ≠ []
  surveyed : σ.signatures ≠ []
  same : trustedOf trusted known.flatten = trustedOf trusted σ.signatures.flatten
  /-- Of the variables of one name, trusted or not, the checks know the oldest. -/
  oldest : Script.oldest known.flatten = σ.signatures.flatten
  distinct : σ.Distinct

namespace Mirrors

theorem start : Mirrors trusted [[]] ⟨[[]], []⟩ where
  opened := List.cons_ne_nil _ _
  surveyed := List.cons_ne_nil _ _
  same := rfl
  oldest := rfl
  distinct := List.nodup_nil

theorem enter (h : Mirrors trusted known σ) : Mirrors trusted ([] :: known) σ.enter where
  opened := List.cons_ne_nil _ _
  surveyed := List.cons_ne_nil _ _
  same := h.same
  oldest := h.oldest
  distinct := h.distinct

/-- A block that only the checks enter. -/
theorem surveyEnter (h : Mirrors trusted known σ) : Mirrors trusted known σ.enter where
  opened := h.opened
  surveyed := List.cons_ne_nil _ _
  same := h.same
  oldest := h.oldest
  distinct := h.distinct

/-- Where the checks advance by what the run adds, both still know the same. -/
theorem advances (h : Mirrors trusted known σ) (hchecks : σ.Advances refused declared σ')
    (htrusts : σ'.Trusts trusted) : Mirrors trusted (addShown declared known) σ' := by
  obtain ⟨added, hadded, htrusted⟩ := hchecks.added
  obtain ⟨scope, scopes, hsignatures⟩ := List.exists_cons_of_ne_nil h.surveyed
  have hσ' := hadded scope scopes hsignatures
  refine ⟨fun hnil ↦ h.opened ?_, ?_, ?_, ?_, hchecks.distinct h.distinct⟩
  · cases known with
    | nil => rfl
    | cons _ _ => cases hnil
  · rw [hσ']
    exact List.cons_ne_nil _ _
  · have hflatten : σ'.signatures.flatten = added ++ σ.signatures.flatten := by
      rw [hσ', hsignatures]
      exact List.append_assoc added scope scopes.flatten
    rw [flatten_addShown h.opened, hflatten, trustedOf_append, trustedOf_append, h.same,
      htrusted trusted htrusts]
  · rw [flatten_addShown h.opened]
    exact hchecks.oldest h.surveyed _ h.oldest

theorem distinct_known (h : Mirrors trusted known σ) : Distinct trusted known := by
  rw [Distinct, h.same]
  exact h.distinct.sublist (List.filter_sublist.map _)

end Mirrors

/-- A run is where the checks go from one survey to another, with these visits ahead. On their way
the checks find no trusted name taken. -/
structure Met (trusted : String → Bool) (visits : List Visit) (known : List (List Signature))
    (σ σ' : Survey) (ahead : List Visit) : Prop where
  mirrors : Mirrors trusted known σ
  trusts : σ'.Trusts trusted
  ahead : ahead ⊆ visits

/-- What a run has still to do, the checks have done on one of their ways. -/
inductive Tracked (trusted : String → Bool) (visits : List Visit) :
    List (List Signature) → Task → Prop
  | done {known flow} (h : Distinct trusted known) : Tracked trusted visits known (.done flow)
  | stmt {known s} (inLoop : Bool) (σ : Survey)
      (h : Met trusted visits known σ (checkStmt inLoop s σ) (s.visits inLoop σ)) :
      Tracked trusted visits known (.stmt s)
  | list {known top ss} (inLoop : Bool) (r : Reach) (σ : Survey)
      (h : Met trusted visits known σ (checkStmts inLoop r ss σ).2 (visitsOf inLoop r ss σ)) :
      Tracked trusted visits known (.list top ss)
  | inner {known t} (h : Tracked trusted visits ([] :: known) t) :
      Tracked trusted visits known (.inner t)
  | bound {known type item body} {name : Ident} (σ : Survey)
      (h : Met trusted visits known σ (checkStmt true body (σ.declare type name false).enter)
        (body.visits true (σ.declare type name false).enter)) :
      Tracked trusted visits known (.bound name.name type item body)
  | whileTrue {known span cond body σ} (hvisit : ⟨.whileLoop span cond body, σ⟩ ∈ visits)
      (h : Mirrors trusted known σ) (hbody : Tracked trusted visits ([] :: known) (.stmt body)) :
      Tracked trusted visits known (.loop (.whileTrue cond body))
  | forEach {known type items body} {name : Ident}
      (hround : ∀ item, Tracked trusted visits ([] :: known) (.bound name.name type item body)) :
      Tracked trusted visits known (.loop (.forEach name.name type items body))

/-- Where a run is tracked, its variables have different names. -/
theorem Tracked.distinct {t : Task} (h : Tracked trusted visits known t) :
    Distinct trusted known := by
  induction h with
  | done h => exact h
  | stmt _ _ h => exact h.mirrors.distinct_known
  | list _ _ _ h => exact h.mirrors.distinct_known
  | inner _ ih => exact ih
  | bound _ h => exact h.mirrors.distinct_known
  | whileTrue _ h _ _ => exact h.distinct_known
  | forEach _ ih => exact ih .null

theorem trusts_of_leave (h : σ.leave.Trusts trusted) : σ.Trusts trusted := by
  obtain ⟨new, heq, -⟩ := Survey.complaints_leave σ
  exact fun c hc ↦ h c (heq ▸ List.mem_append_right new hc)

/-- The checks of an expression leave everything as it is. -/
theorem Mirrors.checked (h : Mirrors trusted known σ) (e : Expr)
    (htrusts : (checkExpr e σ).Trusts trusted) : Mirrors trusted known (checkExpr e σ) := by
  have hchecked := h.advances (.of_marks (Script.uses_checkExpr e σ)) htrusts
  rwa [addShown_nil] at hchecked

/-- What stands before a statement is checked before it. -/
theorem trusts_of_checkStmt {s : Stmt} {inLoop : Bool}
    (h : (checkStmt inLoop s σ).Trusts trusted) : σ.Trusts trusted :=
  (Script.advances_checkStmt inLoop s σ).trusts h

/-- What is checked in a block of its own is run in a block of its own. -/
theorem Mirrors.tracked {s : Stmt} {inLoop : Bool} (h : Mirrors trusted known σ)
    (htrusts : (checkStmt inLoop s σ.enter).leave.Trusts trusted)
    (hahead : s.visits inLoop σ.enter ⊆ visits) :
    Tracked trusted visits ([] :: known) (.stmt s) :=
  .stmt inLoop σ.enter ⟨h.enter, trusts_of_leave htrusts, hahead⟩

/-- The branches of an `if` are tracked like it, each of them in a block. -/
theorem tracked_branches {span : Span} {cond : Expr} {yes : Stmt} {no : Option Stmt}
    (h : Tracked trusted visits known (.stmt (.ifElse span cond yes no))) :
    Tracked trusted visits ([] :: known) (.stmt yes) ∧
      ∀ s, no = some s → Tracked trusted visits ([] :: known) (.stmt s) := by
  cases h with
  | stmt inLoop σ h =>
    obtain ⟨hmirrors, htrusts, hahead⟩ := h
    cases no with
    | none =>
      have hcond : (checkExpr cond σ).Trusts trusted :=
        trusts_of_checkStmt (σ := (checkExpr cond σ).enter) (trusts_of_leave htrusts)
      refine ⟨(hmirrors.checked cond hcond).tracked htrusts (List.subset_of_cons_subset hahead), ?_⟩
      rintro _ ⟨⟩
    | some no =>
      have hyes : (checkStmt inLoop yes (checkExpr cond σ).enter).leave.Trusts trusted :=
        trusts_of_checkStmt (σ := (checkStmt inLoop yes (checkExpr cond σ).enter).leave.enter)
          (trusts_of_leave htrusts)
      have hcond : (checkExpr cond σ).Trusts trusted :=
        trusts_of_checkStmt (σ := (checkExpr cond σ).enter) (trusts_of_leave hyes)
      obtain ⟨haheadYes, haheadNo⟩ := List.append_subset.1 (List.subset_of_cons_subset hahead)
      have hchecked := hmirrors.checked cond hcond
      refine ⟨hchecked.tracked hyes haheadYes, ?_⟩
      rintro _ ⟨⟩
      have hbehind := hchecked.advances (Script.advances_checkStmt inLoop yes _).block hyes
      rw [addShown_nil] at hbehind
      exact hbehind.tracked htrusts haheadNo

/-- So are the loops, of which every round is in a block. -/
theorem tracked_whileTrue {span : Span} {cond : Expr} {body : Stmt}
    (h : Tracked trusted visits known (.stmt (.whileLoop span cond body))) :
    Tracked trusted visits known (.loop (.whileTrue cond body)) := by
  cases h with
  | stmt inLoop σ h =>
    obtain ⟨hmirrors, htrusts, hahead⟩ := h
    have hcond : (checkExpr cond σ).Trusts trusted :=
      trusts_of_checkStmt (σ := (checkExpr cond σ).enter) (trusts_of_leave htrusts)
    exact .whileTrue (hahead (.head _)) hmirrors
      ((hmirrors.checked cond hcond).tracked htrusts (List.subset_of_cons_subset hahead))

theorem tracked_forEach {span : Span} {type : Script.DeclType} {binding : Ident} {e : Expr}
    {items : List Value} {body : Stmt}
    (h : Tracked trusted visits known (.stmt (.forEach span type binding e body))) :
    Tracked trusted visits known (.loop (.forEach binding.name type items body)) := by
  cases h with
  | stmt inLoop σ h =>
    obtain ⟨hmirrors, htrusts, hahead⟩ := h
    have hbody := trusts_of_leave (trusts_of_leave htrusts)
    have hbinding : ((checkExpr e σ).enter.declare type binding false).Trusts trusted :=
      trusts_of_checkStmt (σ := ((checkExpr e σ).enter.declare type binding false).enter) hbody
    have hitems : (checkExpr e σ).Trusts trusted :=
      (Survey.Advances.declare type binding false (checkExpr e σ).enter).trusts hbinding
    exact .forEach fun item ↦ .bound (checkExpr e σ).enter
      ⟨(hmirrors.checked e hitems).enter, hbody, List.subset_of_cons_subset hahead⟩

/-- What a tracked statement leaves to do is tracked. -/
theorem tracked_of_begin {s : Stmt} {t : Task} (h : Tracked trusted visits m.known (.stmt s))
    (hbegin : begin setting s m = .ok t m') : Tracked trusted visits m'.known t := by
  have hsame (hs : s.signatures = []) : m'.known = m.known := (known_begin hs).of_ok hbegin
  cases begun_of_begin hbegin with
  | done =>
    cases h with
    | stmt inLoop σ h =>
      rw [known_of_begin hbegin]
      have hbehind := h.mirrors.advances (Script.advances_checkStmt inLoop s σ) h.trusts
      exact .done hbehind.distinct_known
  | block =>
    cases h with
    | stmt inLoop σ h =>
      obtain ⟨hmirrors, htrusts, hahead⟩ := h
      rw [hsame rfl]
      exact .inner (.list inLoop .reached σ.enter
        ⟨hmirrors.enter, trusts_of_leave htrusts, List.subset_of_cons_subset hahead⟩)
  | yes =>
    rw [hsame rfl]
    exact .inner (tracked_branches h).1
  | no =>
    rw [hsame rfl]
    exact .inner ((tracked_branches h).2 _ rfl)
  | whileLoop =>
    rw [hsame rfl]
    exact tracked_whileTrue h
  | forEach _ _ =>
    rw [hsame rfl]
    exact tracked_forEach h

/-- So is the body of a `foreach` behind the declaration of the loop variable. -/
theorem tracked_of_declare {name : String} {type : Script.DeclType} {item : Value} {body : Stmt}
    (h : Tracked trusted visits m.known (.bound name type item body))
    (hdeclare : declare name type item m = .ok () m') :
    Tracked trusted visits m'.known (.stmt body) := by
  rw [known_of_declare hdeclare]
  cases h with
  | @bound _ _ _ _ binding σ h =>
    obtain ⟨hmirrors, htrusts, hahead⟩ := h
    have hbinding : (σ.declare type binding false).Trusts trusted :=
      trusts_of_checkStmt (σ := (σ.declare type binding false).enter) htrusts
    have hbehind := hmirrors.advances (.declare type binding false σ) hbinding
    exact .stmt true _ ⟨hbehind.surveyEnter, htrusts, hahead⟩

/-- The first of some tracked statements is tracked, and so are the others behind it. -/
theorem tracked_of_list {top : Bool} {s : Stmt} {rest : List Stmt}
    (h : Tracked trusted visits known (.list top (s :: rest))) :
    Tracked trusted visits known (.stmt s) ∧
      Tracked trusted visits (addShown s.signatures known) (.list top rest) := by
  cases h with
  | list inLoop r σ h =>
    obtain ⟨hmirrors, htrusts, hahead⟩ := h
    obtain ⟨haheadStmt, haheadRest⟩ := List.append_subset.1 hahead
    have hmeet := Survey.Advances.meet r s σ
    have hrest := Script.advances_checkStmts inLoop ((r.meet s σ).1.behind s.diverges) rest
      (checkStmt inLoop s (r.meet s σ).2)
    have hstmt : (checkStmt inLoop s (r.meet s σ).2).Trusts trusted := hrest.trusts htrusts
    have hmet := hmirrors.advances hmeet (trusts_of_checkStmt hstmt)
    rw [addShown_nil] at hmet
    exact ⟨.stmt inLoop _ ⟨hmet, hstmt, haheadStmt⟩, .list inLoop _ _
      ⟨hmet.advances (Script.advances_checkStmt inLoop s _) hstmt, htrusts, haheadRest⟩⟩

/-- A round of a tracked loop is tracked, and so is the loop behind it. -/
theorem tracked_of_next {l l' : Loop} {t : Task} (h : Tracked trusted visits m.known (.loop l))
    (hnext : l.next setting m = .ok (some (t, l')) m') :
    Tracked trusted visits m'.known t ∧ Tracked trusted visits m'.known (.loop l') := by
  rw [(known_next l).of_ok hnext]
  cases round_of_next hnext with
  | whileTrue =>
    cases h with
    | whileTrue hvisit h hbody => exact ⟨.inner hbody, .whileTrue hvisit h hbody⟩
  | forEach =>
    cases h with
    | forEach hround => exact ⟨.inner (hround _), .forEach hround⟩

/-- A task in a block of its own leaves the names and types as they are, however it ends. -/
theorem Runs.known_inner {t : Task} {trace : List Execution} {r : Ended Flow}
    (h : Runs setting (.inner t) m trace r) : (after r).known = m.known := by
  rw [h.result_eq]
  exact known_inBlock (passage_signatures.perform setting t) m

/-- So does a round of a loop. -/
theorem known_round {l l' : Loop} {t : Task} {trace : List Execution} {r : Ended Flow}
    (hnext : l.next setting m = .ok (some (t, l')) m') (h : Runs setting t m' trace r) :
    (after r).known = m'.known := by
  cases round_of_next hnext with
  | whileTrue => exact h.known_inner
  | forEach => exact h.known_inner

/-- What a tracked task comes to is tracked, and behind it all names are different. -/
theorem Runs.tracked {t : Task} {trace : List Execution} {r : Ended Flow}
    (h : Runs setting t m trace r) (ht : Tracked trusted visits m.known t) :
    (∀ e ∈ trace, Tracked trusted visits e.start.known e.task) ∧
      Distinct trusted (after r).known := by
  -- the record of the task itself comes first
  have hcons {t m trace r} (ht : Tracked trusted visits (Machine.known m) t)
      (htrace : ∀ e ∈ trace, Tracked trusted visits e.start.known e.task) :
      ∀ e ∈ (⟨t, m, r⟩ : Execution) :: trace, Tracked trusted visits e.start.known e.task :=
    List.forall_mem_cons.2 ⟨ht, htrace⟩
  have hnil : ∀ e ∈ ([] : List Execution), Tracked trusted visits e.start.known e.task :=
    List.forall_mem_nil _
  induction h with
  | done => exact ⟨hcons ht hnil, ht.distinct⟩
  | stmt hbegin _ ih =>
    obtain ⟨htrace, hr⟩ := ih (tracked_of_begin ht hbegin)
    exact ⟨hcons ht htrace, hr⟩
  | stmtHalts hbegin =>
    refine ⟨hcons ht hnil, ?_⟩
    rw [after_error, known_of_begin_halts hbegin]
    exact ht.distinct
  | inner h ih =>
    obtain ⟨htrace, -⟩ := ih (by cases ht with | inner ht => exact ht)
    refine ⟨hcons ht htrace, ?_⟩
    rw [(Runs.inner h).known_inner]
    exact ht.distinct
  | bound hdeclare _ ih =>
    obtain ⟨htrace, hr⟩ := ih (tracked_of_declare ht hdeclare)
    exact ⟨hcons ht htrace, hr⟩
  | boundHalts hdeclare =>
    refine ⟨hcons ht hnil, ?_⟩
    rw [after_error, known_of_declare_halts hdeclare]
    exact ht.distinct
  | listEnds => exact ⟨hcons ht hnil, ht.distinct⟩
  | listNext h _ _ ih ih' =>
    obtain ⟨hstmt, hrest⟩ := tracked_of_list ht
    obtain ⟨htrace, -⟩ := ih hstmt
    rw [← known_of_exec h.result_eq.symm] at hrest
    obtain ⟨htrace', hr⟩ := ih' hrest
    exact ⟨hcons ht (List.forall_mem_append.2 ⟨htrace, htrace'⟩), hr⟩
  | listLeft _ _ ih =>
    obtain ⟨htrace, hr⟩ := ih (tracked_of_list ht).1
    exact ⟨hcons ht htrace, hr⟩
  | listHalts _ ih =>
    obtain ⟨htrace, hr⟩ := ih (tracked_of_list ht).1
    exact ⟨hcons ht htrace, hr⟩
  | loopEnds hnext =>
    refine ⟨hcons ht hnil, ?_⟩
    rw [after_ok, (known_next _).of_ok hnext]
    exact ht.distinct
  | loopHalts hnext =>
    refine ⟨hcons ht hnil, ?_⟩
    rw [after_error, (known_next _).of_error hnext]
    exact ht.distinct
  | loopNext hnext h _ _ ih ih' =>
    obtain ⟨hround, hrest⟩ := tracked_of_next ht hnext
    obtain ⟨htrace, -⟩ := ih hround
    rw [← known_round hnext h] at hrest
    obtain ⟨htrace', hr⟩ := ih' hrest
    exact ⟨hcons ht (List.forall_mem_append.2 ⟨htrace, htrace'⟩), hr⟩
  | loopLeft hnext _ _ ih =>
    obtain ⟨htrace, hr⟩ := ih (tracked_of_next ht hnext).1
    exact ⟨hcons ht htrace, hr⟩
  | loopBroken hnext _ ih =>
    obtain ⟨htrace, hr⟩ := ih (tracked_of_next ht hnext).1
    exact ⟨hcons ht htrace, hr⟩

/-! ### Whole scripts -/

/-- Both parts of a tracked list are tracked, the second one behind the first. -/
theorem tracked_of_append {top : Bool} {ss ss' : List Stmt}
    (h : Tracked trusted visits known (.list top (ss ++ ss'))) :
    Tracked trusted visits known (.list top ss) ∧
      Tracked trusted visits (addShown (signaturesOf ss) known) (.list top ss') := by
  cases h with
  | list inLoop r σ h =>
    obtain ⟨hmirrors, htrusts, hahead⟩ := h
    rw [Script.checkStmts_append] at htrusts
    rw [Script.visitsOf_append] at hahead
    obtain ⟨haheadFirst, haheadLast⟩ := List.append_subset.1 hahead
    have hfirst := (Script.advances_checkStmts inLoop _ ss' _).trusts htrusts
    exact ⟨.list inLoop r σ ⟨hmirrors, hfirst, haheadFirst⟩, .list inLoop _ _
      ⟨hmirrors.advances (Script.advances_checkStmts inLoop r ss σ) hfirst, htrusts, haheadLast⟩⟩

/-- Statements that all have been executed have added all that they declare. -/
theorem known_of_execList {ss : List Stmt} {flow : Flow}
    (h : execList setting true ss m = .ok flow m') (hflow : ∀ v, flow ≠ .returned v) :
    m'.known = addShown (signaturesOf ss) m.known := by
  induction ss generalizing m with
  | nil =>
    cases h
    exact (addShown_nil _).symm
  | cons s rest ih =>
    obtain ⟨behind, m₁, hexec, hrest⟩ := bind_eq_ok_iff.1 h
    cases hbehind : behind.goesOn true with
    | true =>
      rw [if_pos hbehind] at hrest
      rw [ih hrest, known_of_exec hexec, addShown_addShown]
      rfl
    | false =>
      rw [if_neg (Bool.eq_false_iff.1 hbehind)] at hrest
      cases hrest
      cases flow with
      | returned v => exact absurd rfl (hflow v)
      | _ => cases hbehind

/-- If no trusted name has been found taken, then a run of the script is tracked from its start. -/
theorem tracked_start {program : Program}
    (h : ∀ c ∈ Script.check program, ∀ name, c.problem.takenName? = some name →
      trusted name = false) (outbox : Outbox) :
    Tracked trusted program.visits (Machine.start outbox).known (.list true program.whole) := by
  have hleave : (checkStmts false .reached program.whole ⟨[[]], []⟩).2.leave.Trusts trusted := by
    intro c hc
    rw [Script.check_eq] at h
    exact h c (List.mem_reverse.2 hc)
  exact .list false .reached ⟨[[]], []⟩ ⟨.start, trusts_of_leave hleave, List.Subset.refl _⟩

/-- The checks have come to a tracked statement. -/
theorem Tracked.visited {s : Stmt} (h : Tracked trusted visits known (.stmt s)) :
    ∃ σ, ⟨s, σ⟩ ∈ visits ∧ Mirrors trusted known σ := by
  cases h with
  | stmt inLoop σ h => exact ⟨σ, h.ahead (Script.mem_visits inLoop s σ), h.mirrors⟩

/-- So they have to the condition of a tracked loop. -/
theorem Tracked.visited_while {cond : Expr} {body : Stmt}
    (h : Tracked trusted visits known (.loop (.whileTrue cond body))) :
    ∃ span σ, ⟨.whileLoop span cond body, σ⟩ ∈ visits ∧ Mirrors trusted known σ := by
  cases h with
  | whileTrue hvisit h _ => exact ⟨_, _, hvisit, h⟩

/-- A name denotes the same where only one live variable has it. -/
theorem Mirrors.find?_of_sole {x : String} (h : Mirrors trusted m.known σ)
    (hx : (m.scopes.flatten.map Slot.name).count x ≤ 1) :
    (findSlot? x m.scopes).map Slot.signature = (σ.find? x).map Local.signature := by
  have hnames : m.known.flatten.map Prod.fst = m.scopes.flatten.map Slot.name := by
    rw [Machine.known, shown, ← List.map_flatten, List.map_map]
    rfl
  rw [← hnames] at hx
  rw [Survey.map_find?, ← h.oldest, Script.find?_oldest hx]
  exact Script.map_findSome? Slot.signature x m.scopes

/-! ### Names that denote one variable -/

/-- Among things of different names each is the one of its name. -/
theorem find?_eq_some_of_mem {β : Type} {name : β → String} {bs : List β}
    (h : (bs.map name).Nodup) {b : β} (hb : b ∈ bs) :
    bs.find? (name · == name b) = some b := by
  obtain ⟨found, hfound⟩ := Option.isSome_iff_exists.1
    (List.find?_isSome.2 ⟨b, hb, beq_self_eq_true (name b)⟩ :
      (bs.find? (name · == name b)).isSome = true)
  have hname := List.find?_some hfound
  rw [beq_iff_eq] at hname
  rw [hfound, List.inj_on_of_nodup_map h (List.mem_of_find?_eq_some hfound) hb hname]

theorem findSlot?_eq (x : String) (scopes : List (List Slot)) :
    findSlot? x scopes = scopes.flatten.find? (·.name == x) :=
  List.find?_flatten.symm

/-- All live variables have different names, and a name is resolved in the same way in whatever
order they are searched. -/
def NamesDistinct (m : Machine) : Prop :=
  (m.scopes.flatten.map Slot.name).Nodup ∧
    ∀ x (slots : List Slot), slots.Perm m.scopes.flatten →
      slots.find? (·.name == x) = findSlot? x m.scopes

theorem trustedOf_all (signatures : List Signature) :
    trustedOf (fun _ ↦ true) signatures = signatures :=
  List.filter_eq_self.2 fun _ _ ↦ rfl

theorem namesDistinct_of_distinct (h : Distinct (fun _ ↦ true) m.known) : NamesDistinct m := by
  rw [Distinct, trustedOf_all, Machine.known, shown, ← List.map_flatten, List.map_map] at h
  refine ⟨h, fun x slots hslots ↦ ?_⟩
  rw [findSlot?_eq]
  refine (List.find?_eq_find?_of_perm hslots.symm ?_).symm
  rintro slot ⟨hslot, hname⟩ slot' ⟨hslot', hname'⟩
  exact List.inj_on_of_nodup_map h hslot hslot'
    ((beq_iff_eq.1 hname).trans (beq_iff_eq.1 hname').symm)

/-- The variables of a run and those that the checks know stand opposite each other. They have the
same names and types, and each is what its name denotes on its side. -/
def SameVariables (m : Machine) (σ : Survey) : Prop :=
  List.Forall₂ (fun slot l ↦ slot.name = l.name ∧ slot.type = l.type ∧
    findSlot? slot.name m.scopes = some slot ∧ σ.find? l.name = some l)
    m.scopes.flatten σ.scopes.flatten

theorem Mirrors.sameVariables (h : Mirrors (fun _ ↦ true) m.known σ) : SameVariables m σ := by
  have hsame : m.scopes.flatten.map Slot.signature = σ.scopes.flatten.map Local.signature := by
    have hsignatures := h.same
    rwa [trustedOf_all, trustedOf_all, Machine.known, shown, Survey.signatures, ← List.map_flatten,
      ← List.map_flatten] at hsignatures
  have hσ : (σ.scopes.flatten.map Local.name).Nodup := by
    have hdistinct := h.distinct
    rwa [Survey.Distinct, Survey.signatures, ← List.map_flatten, List.map_map] at hdistinct
  have hm : (m.scopes.flatten.map Slot.name).Nodup :=
    (namesDistinct_of_distinct h.distinct_known).1
  have hopposite : List.Forall₂ (fun slot l ↦ Slot.signature slot = Local.signature l)
      m.scopes.flatten σ.scopes.flatten := by
    refine List.forall₂_map_left_iff.1 (List.forall₂_map_right_iff.1 ?_)
    rw [List.forall₂_eq_eq_eq]
    exact hsame
  obtain ⟨hlength, hopposite⟩ := List.forall₂_iff_zip.1 hopposite
  refine List.forall₂_iff_zip.2 ⟨hlength, fun {slot l} hmem ↦ ?_⟩
  obtain ⟨hslot, hl⟩ := List.of_mem_zip hmem
  obtain ⟨hname, htype⟩ := Prod.mk.inj (hopposite hmem)
  refine ⟨hname, htype, ?_, ?_⟩
  · rw [findSlot?_eq]
    exact find?_eq_some_of_mem hm hslot
  · exact List.find?_flatten.symm.trans (find?_eq_some_of_mem hσ hl)

/-- What a run is about to do is done where the checks have come to, with the same variables. -/
def Seen (program : Program) (s : Stmt) (m : Machine) : Prop :=
  ∃ σ, ⟨s, σ⟩ ∈ program.visits ∧ SameVariables m σ

/-- **Live names are different.** In all states of a run of a script without errors the names of
the live variables are different, so it does not matter in which order they are searched.
Whatever statement is executed, each time, and whatever condition of a `while` is looked at, the
checks have come to it with the same variables, and resolve names as the run does. So it is with
the expression at the end. -/
theorem live_names_distinct {program : Program}
    (hchecked : ∀ c ∈ Script.check program, c.isError = false) (setting : Setting)
    (outbox : Outbox) :
    (∀ m, Reaches setting program outbox m → NamesDistinct m) ∧
      ∀ trace r, RunsOf setting program outbox trace r →
        (∀ e ∈ trace, ∀ s, e.task = .stmt s → Seen program s e.start) ∧
        (∀ e ∈ trace, ∀ cond body, e.task = .loop (.whileTrue cond body) →
          ∃ span, Seen program (.whileLoop span cond body) e.start) ∧
        ∀ flow m e, r = .ok flow m → (∀ v, flow ≠ .returned v) → program.tail = some e →
          Seen program (.expression e.span e) m := by
  have hfree : ∀ c ∈ Script.check program, ∀ x, c.problem.takenName? = some x → true = false := by
    intro c hc x hx
    rw [← hchecked c hc]
    exact (Script.Complaint.isError_of_takenName? hx).symm
  obtain ⟨hstatements, hlast⟩ := tracked_of_append (tracked_start hfree outbox)
  have hdistinct {trace r} (hrun : RunsOf setting program outbox trace r) {e : Execution}
      (he : e ∈ trace) : NamesDistinct e.start ∧ NamesDistinct (after e.result) := by
    have ht := (hrun.tracked hstatements).1 e he
    obtain ⟨_, hpart⟩ := hrun.of_mem he
    exact ⟨namesDistinct_of_distinct ht.distinct,
      namesDistinct_of_distinct (hpart.tracked ht).2⟩
  refine ⟨fun m hm ↦ ?_, fun trace r hrun ↦ ⟨fun e he s hs ↦ ?_, fun e he cond body hloop ↦ ?_, ?_⟩⟩
  · induction hm with
    | start hrun he => exact (hdistinct hrun he).1
    | result hrun he => exact (hdistinct hrun he).2
    | step _ ih => exact ih
    | @expression m _ e ih =>
      have hscopes : (after (eval setting e m)).scopes = m.scopes := course_scopes.eval setting e m
      rw [NamesDistinct, hscopes]
      exact ih
    | final =>
      obtain ⟨trace, r, hrun⟩ := exists_runs setting program outbox
      rw [hrun.run_eq, NamesDistinct, scopes_conclude]
      exact namesDistinct_of_distinct (hrun.tracked hstatements).2
  · have ht := (hrun.tracked hstatements).1 e he
    rw [hs] at ht
    obtain ⟨σ, hvisit, hmirrors⟩ := ht.visited
    exact ⟨σ, hvisit, hmirrors.sameVariables⟩
  · have ht := (hrun.tracked hstatements).1 e he
    rw [hloop] at ht
    obtain ⟨span, σ, hvisit, hmirrors⟩ := ht.visited_while
    exact ⟨span, σ, hvisit, hmirrors.sameVariables⟩
  · rintro flow m e rfl hflow htail
    rw [← known_of_execList hrun.result_eq.symm hflow, Program.last, htail] at hlast
    obtain ⟨σ, hvisit, hmirrors⟩ := (tracked_of_list hlast).1.visited
    exact ⟨σ, hvisit, hmirrors.sameVariables⟩

/-- The script
`var total = 0; foreach (var n in range(2)) { var twice = n + n; total += twice; }`, followed by
` while (total < 5) { var twice = total; total += twice; } total`. -/
def doubling : Program where
  statements :=
    [.declare ⟨0, 14⟩ .var ⟨"total", ⟨4, 9⟩⟩ (some (.literal ⟨12, 13⟩ (.int 0))),
      .forEach ⟨15, 81⟩ .var ⟨"n", ⟨28, 29⟩⟩
        (.call ⟨33, 41⟩ (.name ⟨33, 38⟩ "range") [.literal ⟨39, 40⟩ (.int 2)])
        (.block ⟨43, 81⟩
          [.declare ⟨45, 63⟩ .var ⟨"twice", ⟨49, 54⟩⟩
              (some (.binary ⟨57, 62⟩ .add (.name ⟨57, 58⟩ "n") (.name ⟨61, 62⟩ "n"))),
            .assign ⟨64, 79⟩ ⟨"total", ⟨64, 69⟩⟩ [] .add (.name ⟨73, 78⟩ "twice")]),
      .whileLoop ⟨82, 138⟩
        (.binary ⟨89, 98⟩ .lt (.name ⟨89, 94⟩ "total") (.literal ⟨97, 98⟩ (.int 5)))
        (.block ⟨100, 138⟩
          [.declare ⟨102, 120⟩ .var ⟨"twice", ⟨106, 111⟩⟩ (some (.name ⟨114, 119⟩ "total")),
            .assign ⟨121, 136⟩ ⟨"total", ⟨121, 126⟩⟩ [] .add (.name ⟨130, 135⟩ "twice")])]
  tail := some (.name ⟨139, 144⟩ "total")

/-- It declares one name in two loops, of which each goes round twice. -/
theorem live_names_distinct_doubling :
    (∀ c ∈ Script.check doubling, c.isError = false) ∧
      (∀ m, Reaches (.untimed ⟨100, 1000, 10⟩) doubling (.fresh true) m → NamesDistinct m) ∧
        ∀ trace r, RunsOf (.untimed ⟨100, 1000, 10⟩) doubling (.fresh true) trace r →
          (∀ e ∈ trace, ∀ s, e.task = .stmt s → Seen doubling s e.start) ∧
          (∀ e ∈ trace, ∀ cond body, e.task = .loop (.whileTrue cond body) →
            ∃ span, Seen doubling (.whileLoop span cond body) e.start) ∧
          ∀ flow m e, r = .ok flow m → (∀ v, flow ≠ .returned v) → doubling.tail = some e →
            Seen doubling (.expression e.span e) m :=
  have hchecked : ∀ c ∈ Script.check doubling, c.isError = false := by decide +kernel
  ⟨hchecked, live_names_distinct hchecked _ _⟩

end Snippet.Run
