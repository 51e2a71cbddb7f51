import Snippet.Proofs.CheckSoundness

/-!
# Statements that nothing follows

A statement that diverges, as the checks see it, never simply goes on. So a block does the same
without the statements behind it (`execBlock_take`). At the top level more has to be said: there
`break` and `continue` do nothing, and a list goes on behind them. In a well-scoped script they do
not come so far, and the statements behind a diverging one can be dropped together with the
expression that would be the result (`run_take`).

The statements of a script that stand behind no diverging one, in its own list and in those around
it, are the only ones that its runs execute (`RunsOf.reached`).
-/

namespace Snippet.Script

mutual

/-- The statements inside of a statement. Those that stand behind a diverging one in their list
count only if `past` says so. -/
def Stmt.inside (past : Bool) : Stmt → List Stmt
  | .block _ body => withinAll past body
  | .ifElse _ _ yes none => yes :: yes.inside past
  | .ifElse _ _ yes (some no) => yes :: yes.inside past ++ no :: no.inside past
  | .whileLoop _ _ body | .forEach _ _ _ _ body => body :: body.inside past
  | _ => []

/-- The statements of a list and those inside of them. -/
def withinAll (past : Bool) : List Stmt → List Stmt
  | [] => []
  | s :: rest =>
    s :: s.inside past ++ if s.diverges && !past then [] else withinAll past rest

end

/-- A statement and those inside of it. -/
def Stmt.within (past : Bool) (s : Stmt) : List Stmt :=
  s :: s.inside past

theorem anyDiverges_eq_true_iff {ss : List Stmt} :
    anyDiverges ss = true ↔ ∃ s ∈ ss, s.diverges = true := by
  induction ss with
  | nil => exact iff_of_false nofun nofun
  | cons s rest ih => simp [anyDiverges, ih]

end Snippet.Script

namespace Snippet.Run

open Script (Expr Program Stmt withinAll)

variable {setting : Setting} {m m' : Machine} {known : List String} {inLoop : Bool}

/-! ### What diverges -/

namespace Yields

theorem inBlock {α : Type} {P : α → Prop} {x : Step α} (hx : Yields P x) :
    Yields P (inBlock x) := by
  intro m a m' h
  rw [inBlock_apply] at h
  rcases hxm : x m.enter with ⟨b, m₁⟩ | ⟨halt, m₁⟩
  · rw [hxm] at h
    cases h
    exact hx m.enter a m₁ hxm
  · rw [hxm] at h
    cases h

mutual

/-- A diverging statement does not simply go on. -/
theorem exec_of_diverges : ∀ {s : Stmt}, s.diverges = true →
    Yields (· ≠ Flow.normal) (exec setting s)
  | .block _ _, h => .last fun _ ↦ (execBlock_of_diverges h).inBlock
  | .ifElse _ _ yes (some no), h => by
    obtain ⟨hyes, hno⟩ := Bool.and_eq_true_iff.1 h
    have hyes : Yields (· ≠ Flow.normal) (Run.exec setting yes) := exec_of_diverges hyes
    have hno : Yields (· ≠ Flow.normal) (Run.exec setting no) := exec_of_diverges hno
    rw [Run.exec.eq_def]
    exact .last fun _ ↦ .last fun _ ↦ .last fun _ ↦ .ite hyes.inBlock hno.inBlock
  | .returnWith _ (some _), _ => .last fun _ ↦ .last fun _ ↦ .pure nofun
  | .returnWith _ none, _ => .last fun _ ↦ .pure nofun
  | .throwWith _ _, _ => .last fun _ ↦ .last fun _ ↦ .fail _
  | .breakLoop _, _ => .last fun _ ↦ .pure nofun
  | .continueLoop _, _ => .last fun _ ↦ .pure nofun

/-- So does a list of statements of which one diverges. -/
theorem execBlock_of_diverges : ∀ {ss : List Stmt}, Script.anyDiverges ss = true →
    Yields (· ≠ Flow.normal) (execBlock setting ss)
  | s :: rest, h => by
    obtain h | h := Bool.or_eq_true_iff.1 h
    · refine (exec_of_diverges h).bind fun flow hne ↦ ?_
      cases flow with
      | normal => exact absurd rfl hne
      | _ => exact .pure nofun
    · refine .last fun flow ↦ ?_
      cases flow with
      | normal => exact execBlock_of_diverges h
      | _ => exact .pure nofun

end

end Yields

/-! ### What can be dropped -/

/-- A block does the same without the statements behind one that diverges. -/
theorem execBlock_take {ss : List Stmt} {i : Nat} {s : Stmt} (hs : ss[i]? = some s)
    (h : s.diverges = true) : execBlock setting ss = execBlock setting (ss.take (i + 1)) := by
  funext m
  induction ss generalizing i m with
  | nil => cases hs
  | cons first rest ih =>
    rw [List.take_succ_cons]
    refine bind_apply_congr fun flow m' hexec ↦ ?_
    cases i with
    | zero =>
      obtain rfl : first = s := Option.some.inj hs
      cases flow with
      | normal => exact absurd rfl (Yields.exec_of_diverges h m _ m' hexec)
      | _ => rfl
    | succ i =>
      cases flow with
      | normal => exact ih hs m'
      | _ => rfl

/-- A list of statements that halts or returns a value, so that nothing follows it. -/
def Settled (r : Ended Flow) : Prop :=
  ∀ flow m, r = .ok flow m → ∃ v, flow = .returned v

theorem Settled.conclude_eq {r : Ended Flow} (h : Settled r) (tail tail' : Option Expr) :
    conclude setting tail r = conclude setting tail' r := by
  rcases r with ⟨flow, m⟩ | ⟨halt, m⟩
  · obtain ⟨v, rfl⟩ := h flow m rfl
    rfl
  · rfl

/-- The statements of a well-scoped script do the same without those behind one that diverges, and
they halt or return a value. -/
theorem execList_take {ss : List Stmt} {i : Nat} {s : Stmt}
    (hlist : Stmt.ListWellScoped false known ss) (hm : Covers known m.scopes)
    (hs : ss[i]? = some s) (h : s.diverges = true) :
    execList setting true ss m = execList setting true (ss.take (i + 1)) m ∧
      Settled (execList setting true ss m) := by
  induction ss generalizing i m known with
  | nil => cases hs
  | cons first rest ih =>
    cases hlist with
    | cons hfirst hrest =>
      rw [List.take_succ_cons, execList, execList]
      rcases hexec : exec setting first m with ⟨flow, m₁⟩ | ⟨halt, m₁⟩
      · rw [bind_of_ok hexec, bind_of_ok hexec]
        have hround := leavesRound_of_exec hfirst hm hexec
        cases flow with
        | breakLoop => cases hround
        | continueLoop => cases hround
        | returned v => exact ⟨rfl, fun _ _ heq ↦ by cases heq; exact ⟨v, rfl⟩⟩
        | normal =>
          cases i with
          | zero =>
            obtain rfl : first = s := Option.some.inj hs
            exact absurd rfl (Yields.exec_of_diverges h m _ m₁ hexec)
          | succ i => exact ih hrest (hm.behind hexec) hs
      · rw [bind_of_error hexec, bind_of_error hexec]
        exact ⟨rfl, fun _ _ heq ↦ by cases heq⟩

/-- A run of a well-scoped script is the same without the statements behind one that diverges, and
without the expression behind them all. -/
theorem run_take {program : Program} (hp : program.WellScoped) {i : Nat} {s : Stmt}
    (hs : program.statements[i]? = some s) (h : s.diverges = true) (setting : Setting)
    (outbox : Outbox) :
    run setting ⟨program.statements.take (i + 1), none⟩ outbox = run setting program outbox := by
  obtain ⟨heq, hsettled⟩ := execList_take hp.statements (.start outbox) hs h
  rw [run_eq_conclude, run_eq_conclude, ← heq]
  exact hsettled.conclude_eq _ _

/-! ### What is executed -/

namespace Task

/-- The statements that a task may come to. -/
def reaches : Task → List Stmt
  | .stmt s => s.within false
  | .list _ rest => withinAll false rest
  | .inner t => t.reaches
  | .bound _ _ _ body | .loop (.whileTrue _ body) | .loop (.forEach _ _ _ body) =>
    body.within false
  | .done _ => []

/-- Whether the lists of a task are those of blocks. -/
def isNested : Task → Bool
  | .list top _ => !top
  | .inner t => t.isNested
  | _ => true

/-- A statement leaves a task inside of it. -/
theorem reaches_subset_of_begun {s : Stmt} {t : Task} (h : Begun setting m m' s t) :
    t.isNested = true ∧ t.reaches ⊆ s.within false := by
  cases h with
  | done => exact ⟨rfl, List.nil_subset _⟩
  | block => exact ⟨rfl, List.subset_cons_self _ _⟩
  | yes =>
    rename_i no
    cases no with
    | none => exact ⟨rfl, List.subset_cons_self _ _⟩
    | some no => exact ⟨rfl, List.subset_cons_of_subset _ (List.subset_append_left _ _)⟩
  | no => exact ⟨rfl, List.subset_cons_of_subset _ (List.subset_append_right _ _)⟩
  | whileLoop => exact ⟨rfl, List.subset_cons_self _ _⟩
  | forEach _ _ => exact ⟨rfl, List.subset_cons_self _ _⟩

/-- A round of a loop is inside of it, and so is the loop behind the round. -/
theorem reaches_subset_of_next {l l' : Loop} {t : Task}
    (h : l.next setting m = .ok (some (t, l')) m') :
    t.isNested = true ∧ t.reaches ⊆ (Task.loop l).reaches ∧
      (Task.loop l').reaches ⊆ (Task.loop l).reaches := by
  cases round_of_next h with
  | whileTrue => exact ⟨rfl, fun _ ↦ id, fun _ ↦ id⟩
  | forEach => exact ⟨rfl, fun _ ↦ id, fun _ ↦ id⟩

end Task

/-- Every statement that is executed is one of these. -/
def StaysIn (ss : List Stmt) (trace : List Execution) : Prop :=
  ∀ e ∈ trace, ∀ s, e.task = .stmt s → s ∈ ss

namespace StaysIn

variable {ss ss' : List Stmt} {trace trace' : List Execution} {t : Task} {r : Ended Flow}

theorem mono (h : StaysIn ss trace) (hss : ss ⊆ ss') : StaysIn ss' trace :=
  fun e he s hs ↦ hss (h e he s hs)

theorem append (h : StaysIn ss trace) (h' : StaysIn ss trace') : StaysIn ss (trace ++ trace') :=
  List.forall_mem_append.2 ⟨h, h'⟩

/-- The record of a task that is no statement. -/
theorem cons (h : StaysIn ss trace) (ht : ∀ s, t ≠ .stmt s) : StaysIn ss (⟨t, m, r⟩ :: trace) :=
  List.forall_mem_cons.2 ⟨fun s hs ↦ absurd hs (ht s), h⟩

theorem single (ht : ∀ s, t ≠ .stmt s) : StaysIn ss [⟨t, m, r⟩] :=
  cons (List.forall_mem_nil _) ht

theorem stmt {s : Stmt} (h : StaysIn (s.within false) trace) :
    StaysIn (s.within false) (⟨.stmt s, m, r⟩ :: trace) := by
  refine List.forall_mem_cons.2 ⟨fun s' hs ↦ ?_, h⟩
  obtain rfl := Task.stmt.inj hs
  exact .head _

/-- Behind a statement that goes on comes the rest of its list. -/
theorem behind {s : Stmt} {rest : List Stmt} (h : StaysIn (s.within false) trace)
    (h' : StaysIn (withinAll false rest) trace') (hs : s.diverges = false) :
    StaysIn (withinAll false (s :: rest)) (trace ++ trace') := by
  rw [withinAll, hs]
  exact append (h.mono (List.subset_append_left _ _)) (h'.mono (List.subset_append_right _ _))

end StaysIn

/-- What is executed inside of a statement stands behind no diverging one. -/
theorem Runs.staysIn {t : Task} {trace : List Execution} {r : Ended Flow}
    (h : Runs setting t m trace r) (ht : t.isNested = true) : StaysIn t.reaches trace := by
  induction h with
  | done => exact .single nofun
  | stmt hbegin _ ih =>
    obtain ⟨hnested, hsubset⟩ := Task.reaches_subset_of_begun (begun_of_begin hbegin)
    exact .stmt ((ih hnested).mono hsubset)
  | stmtHalts _ => exact .stmt (List.forall_mem_nil _)
  | inner _ ih => exact .cons (ih ht) nofun
  | bound _ _ ih => exact .cons (ih rfl) nofun
  | boundHalts _ => exact .single nofun
  | listEnds => exact .single nofun
  | listNext h hflow _ ih ih' =>
    rename_i top s rest m m₁ flow _ _ _ _
    refine .cons (.behind (ih rfl) (ih' ht) ?_) nofun
    obtain rfl : top = false := by simpa [Task.isNested] using ht
    obtain rfl : flow = .normal := by
      cases flow <;> cases hflow
      rfl
    refine Bool.eq_false_iff.2 fun hs ↦ ?_
    exact Yields.exec_of_diverges hs m _ m₁ h.result_eq.symm rfl
  | listLeft _ _ ih => exact .cons ((ih rfl).mono (List.subset_append_left _ _)) nofun
  | listHalts _ ih => exact .cons ((ih rfl).mono (List.subset_append_left _ _)) nofun
  | loopEnds _ => exact .single nofun
  | loopHalts _ => exact .single nofun
  | loopNext hnext _ _ _ ih ih' =>
    obtain ⟨hnested, hround, hrest⟩ := Task.reaches_subset_of_next hnext
    exact .cons (.append ((ih hnested).mono hround) ((ih' rfl).mono hrest)) nofun
  | loopLeft hnext _ _ ih =>
    obtain ⟨hnested, hround, -⟩ := Task.reaches_subset_of_next hnext
    exact .cons ((ih hnested).mono hround) nofun
  | loopBroken hnext _ ih =>
    obtain ⟨hnested, hround, -⟩ := Task.reaches_subset_of_next hnext
    exact .cons ((ih hnested).mono hround) nofun

/-- So does what is executed at the top level of a well-scoped script. -/
theorem Runs.staysIn_top {ss : List Stmt} {trace : List Execution} {r : Ended Flow}
    (h : Runs setting (.list true ss) m trace r) (hlist : Stmt.ListWellScoped false known ss)
    (hm : Covers known m.scopes) : StaysIn (withinAll false ss) trace := by
  induction ss generalizing m known trace r with
  | nil =>
    cases h
    exact .single nofun
  | cons s rest ih =>
    cases hlist with
    | cons hs hrest =>
      cases h with
      | listNext h hflow h' =>
        rename_i flow _ _
        have hexec := h.result_eq.symm
        have hround := leavesRound_of_exec hs hm hexec
        obtain rfl : flow = .normal := by
          cases flow <;> cases hround <;> cases hflow
          rfl
        refine .cons (.behind (h.staysIn rfl) (ih h' hrest (hm.behind hexec)) ?_) nofun
        refine Bool.eq_false_iff.2 fun hdiverges ↦ ?_
        exact Yields.exec_of_diverges hdiverges m _ _ hexec rfl
      | listLeft h _ => exact .cons ((h.staysIn rfl).mono (List.subset_append_left _ _)) nofun
      | listHalts h => exact .cons ((h.staysIn rfl).mono (List.subset_append_left _ _)) nofun

/-- A run that comes to the expression behind the statements has met no diverging one. -/
theorem anyDiverges_of_execAll {program : Program} (hp : program.WellScoped) {outbox : Outbox}
    (h : execAll setting program.statements (.start outbox) = .ok none m) :
    Script.anyDiverges program.statements = false := by
  refine Bool.eq_false_iff.2 fun hdiverges ↦ ?_
  obtain ⟨s, hs, hdiverges⟩ := Script.anyDiverges_eq_true_iff.1 hdiverges
  obtain ⟨i, hi⟩ := List.getElem?_of_mem hs
  have hsettled : Settled (execList setting true program.statements (.start outbox)) :=
    (execList_take hp.statements (.start outbox) hi hdiverges).2
  rw [execAll_apply] at h
  rcases hlist : execList setting true program.statements (.start outbox)
    with ⟨flow, m'⟩ | ⟨halt, m'⟩
  · obtain ⟨v, rfl⟩ := hsettled flow m' hlist
    rw [hlist] at h
    cases h
  · rw [hlist] at h
    cases h

end Snippet.Run
