import Snippet.Proofs.SafeEvaluation

/-!
# What checked scripts never do

A script of which the checks only give warnings is well-scoped, and a well-scoped script never ends
in a fault that the checks could have prevented, nor does it leave a loop at its top level
(`checked_run`).

`Task.WellScoped` carries the relations on trees over to what a run has still to do. It is what
every rule of `Runs` hands down to its parts (`Runs.proper`), with the names that are known growing
from each statement of a list to the next one (`Covers.behind`).
-/

namespace Snippet.Run

open Script (Expr Program Stmt)

variable {α β : Type} {setting : Setting} {m m' : Machine} {known : List String} {inLoop : Bool}

/-! ### Tasks -/

/-- Whether a flow is that of a loop control. -/
def Flow.leavesRound : Flow → Bool
  | breakLoop | continueLoop => true
  | _ => false

/-- A task uses the known names only, and leaves a round of a loop only inside of one. -/
inductive Task.WellScoped : Bool → List String → Task → Prop
  | done {inLoop known flow} (h : flow.leavesRound = true → inLoop = true) :
      WellScoped inLoop known (.done flow)
  | stmt {inLoop known s} (h : s.WellScoped inLoop known) : WellScoped inLoop known (.stmt s)
  | list {inLoop known top rest} (h : Stmt.ListWellScoped inLoop known rest) :
      WellScoped inLoop known (.list top rest)
  | inner {inLoop known t} (h : WellScoped inLoop known t) : WellScoped inLoop known (.inner t)
  | bound {known name type item body} (h : body.WellScoped true (name :: known)) :
      WellScoped true known (.bound name type item body)
  | whileTrue {inLoop known cond body} (hcond : cond.WellScoped known)
      (hbody : body.WellScoped true known) : WellScoped inLoop known (.loop (.whileTrue cond body))
  | forEach {inLoop known name type items body} (hbody : body.WellScoped true (name :: known)) :
      WellScoped inLoop known (.loop (.forEach name type items body))

/-- Every value of a computation is as `P` says. -/
def Yields (P : α → Prop) (x : Step α) : Prop :=
  ∀ m a m', x m = .ok a m' → P a

namespace Yields

variable {P : α → Prop} {Q : β → Prop}

theorem pure {a : α} (h : P a) : Yields P (pure a : Step α) := by
  intro m _ m' heq
  cases heq
  exact h

theorem fail (fault : Fault) : Yields P (fail fault : Step α) := by
  intro m a m' heq
  cases heq

theorem ite {p : Prop} [Decidable p] {x y : Step α} (hx : Yields P x) (hy : Yields P y) :
    Yields P (if p then x else y) := by
  split
  · exact hx
  · exact hy

theorem bind {x : Step β} {f : β → Step α} (hx : Yields Q x) (hf : ∀ b, Q b → Yields P (f b)) :
    Yields P (x >>= f) := by
  intro m a m' h
  obtain ⟨b, m₁, hb, ha⟩ := bind_eq_ok_iff.1 h
  exact hf b (hx m b m₁ hb) m₁ a m' ha

/-- What comes last decides. -/
theorem last {x : Step β} {f : β → Step α} (hf : ∀ b, Yields P (f b)) : Yields P (x >>= f) :=
  have hx : Yields (fun _ ↦ True) x := fun _ _ _ _ ↦ trivial
  hx.bind fun b _ ↦ hf b

theorem stays {flow : Flow} (hflow : flow.leavesRound = false) :
    Yields (fun flow ↦ flow.leavesRound = true → inLoop = true) (Pure.pure flow : Step Flow) := by
  refine pure fun h ↦ ?_
  rw [hflow] at h
  cases h

/-- A well-scoped statement leaves a well-scoped task. -/
theorem begin {s : Stmt} (hs : s.WellScoped inLoop known) :
    Yields (Task.WellScoped inLoop known) (begin setting s) := by
  have hdone {x : Step Flow} (hx : Yields (fun flow ↦ flow.leavesRound = true → inLoop = true) x) :
      Yields (Task.WellScoped inLoop known) (do return .done (← x)) :=
    hx.bind fun _ hflow ↦ .pure (.done hflow)
  cases hs with
  | declare _ =>
    rename_i init _
    refine hdone (.last fun _ ↦ ?_)
    cases init with
    | none => exact .last fun _ ↦ .last fun _ ↦ stays rfl
    | some init => exact .last fun _ ↦ .last fun _ ↦ stays rfl
  | assign _ _ _ => exact hdone (.last fun _ ↦ .last fun _ ↦ stays rfl)
  | expression _ => exact hdone (.last fun _ ↦ .last fun _ ↦ stays rfl)
  | block hbody => exact .last fun _ ↦ .pure (.inner (.list hbody))
  | ifElse _ hyes hno =>
    rename_i no _
    rw [Run.begin.eq_def]
    refine .last fun _ ↦ .last fun _ ↦ .last fun _ ↦ .ite (.pure (.inner (.stmt hyes))) ?_
    cases no with
    | none => exact hdone (stays rfl)
    | some no => exact .pure (.inner (.stmt (hno no rfl)))
  | whileLoop hcond hbody => exact .last fun _ ↦ .pure (.whileTrue hcond hbody)
  | forEach _ hbody => exact .last fun _ ↦ .last fun _ ↦ .last fun _ ↦ .pure (.forEach hbody)
  | returnWith _ =>
    rename_i value _
    refine hdone (.last fun _ ↦ ?_)
    cases value with
    | none => exact stays rfl
    | some value => exact .last fun _ ↦ stays rfl
  | throwWith _ => exact hdone (.last fun _ ↦ .last fun _ ↦ .fail _)
  | breakLoop => exact hdone (.last fun _ ↦ .pure fun _ ↦ rfl)
  | continueLoop => exact hdone (.last fun _ ↦ .pure fun _ ↦ rfl)
  | empty => exact hdone (.last fun _ ↦ stays rfl)

end Yields

/-- A round of a well-scoped loop is well-scoped inside of a loop, and the loop behind it is too. -/
theorem wellScoped_of_next {l l' : Loop} {t : Task} (hl : (Task.loop l).WellScoped inLoop known)
    (h : l.next setting m = .ok (some (t, l')) m') :
    t.WellScoped true known ∧ (Task.loop l').WellScoped inLoop known := by
  cases round_of_next h with
  | whileTrue =>
    cases hl with
    | whileTrue hcond hbody => exact ⟨.inner (.stmt hbody), .whileTrue hcond hbody⟩
  | forEach =>
    cases hl with
    | forEach hbody => exact ⟨.inner (.bound hbody), .forEach hbody⟩

/-- Behind a statement the names that it declares are known too. -/
theorem Covers.behind {s : Stmt} {flow : Flow} (hm : Covers known m.scopes)
    (h : exec setting s m = .ok flow m') : Covers (s.declared ++ known) m'.scopes := by
  have hsame : Covers known m'.scopes := hm.grows ((passage_names.exec setting s).of_ok h)
  cases s with
  | declare span type name init =>
    obtain ⟨v, w, m₁, hsome, hnone, -, rfl⟩ := exec_declare_eq_ok h
    have hm₁ : Covers known m₁.scopes := by
      cases init with
      | none =>
        rw [(hnone rfl).2]
        exact hm
      | some e =>
        rw [(course_scopes.eval setting e).of_ok (hsome e rfl)]
        exact hm
    exact hm₁.addSlot ⟨name.name, type, w⟩
  | _ => exact hsame

/-- A task that is safe, and leaves a round of a loop only inside of one. -/
structure Proper (inLoop : Bool) (r : Ended Flow) : Prop where
  safe : Safe r
  inside : ∀ flow m, r = .ok flow m → flow.leavesRound = true → inLoop = true

namespace Proper

theorem error {halt : Halt} (h : halt.Unpreventable) : Proper inLoop (.error halt m) :=
  ⟨fun _ _ heq ↦ by cases heq; exact h, nofun⟩

theorem of_steady {x : Step α} {halt : Halt} (h : Steady known x) (hm : Covers known m.scopes)
    (hx : x m = .error halt m') : Proper inLoop (.error halt m') :=
  .error ((h m hm).1 halt m' hx)

theorem ok {flow : Flow} (h : flow.leavesRound = true → inLoop = true) :
    Proper inLoop (.ok flow m) :=
  ⟨nofun, fun _ _ heq ↦ by cases heq; exact h⟩

theorem leaving {r : Ended Flow} (h : Proper inLoop r) : Proper inLoop (leaving r) := by
  cases r with
  | ok flow m => exact .ok (h.inside flow m rfl)
  | error halt m => exact .error (h.safe halt m rfl)

end Proper

/-- Well-scoped tasks are safe, and leave a round of a loop only inside of one. -/
theorem Runs.proper {t : Task} {trace : List Execution} {r : Ended Flow}
    (h : Runs setting t m trace r) (ht : t.WellScoped inLoop known)
    (hm : Covers known m.scopes) : Proper inLoop r := by
  have hgrows {t : Task} {m m' trace flow} (h : Runs setting t m trace (.ok flow m')) :
      Grows Slot.name m m' :=
    (passage_names.perform setting t).of_ok h.result_eq.symm
  have hnext {l : Loop} {inLoop known} (hl : (Task.loop l).WellScoped inLoop known) :
      Steady known (l.next setting) := by
    refine .next fun cond body heq ↦ ?_
    subst heq
    cases hl with
    | whileTrue hcond _ => exact hcond
  induction h generalizing inLoop known with
  | done =>
    cases ht with
    | done hflow => exact .ok hflow
  | stmt hbegin _ ih =>
    cases ht with
    | stmt hs => exact ih (Yields.begin hs _ _ _ hbegin) ((Steady.begin hs).covers hm hbegin)
  | stmtHalts hbegin =>
    cases ht with
    | stmt hs => exact .of_steady (.begin hs) hm hbegin
  | inner _ ih =>
    cases ht with
    | inner ht => exact (ih ht hm.enter).leaving
  | bound hdeclare _ ih =>
    cases ht with
    | bound hbody =>
      obtain ⟨v, -, rfl⟩ := declare_eq_ok hdeclare
      exact ih (.stmt hbody) (hm.addSlot ⟨_, _, v⟩)
  | boundHalts hdeclare => exact .of_steady (.declare _ _ _) hm hdeclare
  | listEnds => exact .ok nofun
  | listNext h _ _ _ ih' =>
    cases ht with
    | list hlist =>
      cases hlist with
      | cons _ hrest => exact ih' (.list hrest) (hm.behind h.result_eq.symm)
  | listLeft _ _ ih =>
    cases ht with
    | list hlist =>
      cases hlist with
      | cons hs _ => exact ih (.stmt hs) hm
  | listHalts _ ih =>
    cases ht with
    | list hlist =>
      cases hlist with
      | cons hs _ => exact ih (.stmt hs) hm
  | loopEnds _ => exact .ok nofun
  | loopHalts hhalts => exact .of_steady (hnext ht) hm hhalts
  | loopNext hround h _ _ _ ih' =>
    have hm' := (hnext ht).covers hm hround
    exact ih' (wellScoped_of_next ht hround).2 (hm'.grows (hgrows h))
  | loopLeft _ _ _ _ =>
    rename_i flow _ _ _ _ _
    refine .ok fun hflow ↦ ?_
    cases flow <;> cases hflow
  | loopBroken hround _ ih =>
    have hm' := (hnext ht).covers hm hround
    exact .error ((ih (wellScoped_of_next ht hround).1 hm').safe _ _ rfl)

/-! ### Runs of checked scripts -/

/-- What `run` is handed by a statement at the top level: the way in which it ends. -/
def HandsOver (setting : Setting) (program : Program) (outbox : Outbox) (flow : Flow) : Prop :=
  ∃ before s rest m m', program.statements = before ++ s :: rest ∧
    execAll setting before (.start outbox) = .ok none m ∧ exec setting s m = .ok flow m'

/-- Behind statements that have all been executed, what follows them is well-scoped. -/
theorem wellScoped_of_execAll {before rest : List Stmt}
    (hlist : Stmt.ListWellScoped inLoop known (before ++ rest)) (hm : Covers known m.scopes)
    (h : execAll setting before m = .ok none m') :
    Stmt.ListWellScoped inLoop (Script.declaredAll before ++ known) rest ∧
      Covers (Script.declaredAll before ++ known) m'.scopes := by
  induction before generalizing known m with
  | nil =>
    cases h
    exact ⟨hlist, hm⟩
  | cons s before ih =>
    obtain ⟨flow, m₁, hexec, h⟩ := bind_eq_ok_iff.1 h
    have hgoesOn : execAll setting before m₁ = .ok none m' := by
      cases flow with
      | returned v => cases h
      | _ => exact h
    cases hlist with
    | cons _ hrest =>
      rw [Script.declaredAll, List.append_assoc]
      exact ih hrest (hm.behind hexec) hgoesOn

/-- What halts a run of a well-scoped script, the checks could not have prevented. -/
theorem unpreventable_of_run {program : Program} (hp : program.WellScoped) {outbox : Outbox}
    {halt : Halt} (h : (run setting program outbox).result = .error halt) :
    halt.Unpreventable := by
  obtain ⟨trace, r, hrun⟩ := exists_runs setting program outbox
  have hr : Proper false r := hrun.proper (.list hp.statements) (.start outbox)
  have hlist : execList setting true program.statements (.start outbox) = r := hrun.result_eq.symm
  rw [hrun.run_eq] at h
  rcases r with ⟨flow, m⟩ | ⟨halt', m⟩
  · cases flow with
    | returned v => cases h
    | breakLoop => cases hr.inside _ _ rfl rfl
    | continueLoop => cases hr.inside _ _ rfl rfl
    | normal =>
      have hall : execAll setting program.statements (.start outbox) = .ok none m := by
        rw [execAll_apply, hlist]
      have hstatements : Stmt.ListWellScoped false [] (program.statements ++ []) := by
        rw [List.append_nil]
        exact hp.statements
      have hm := (wellScoped_of_execAll hstatements (.start outbox) hall).2
      rw [List.append_nil] at hm
      rw [conclude.eq_def] at h
      rcases htail : program.tail with - | e
      · rw [htail] at h
        cases h
      · rw [htail] at h
        have hsafe : Safe (eval setting e m) := (Steady.eval (hp.tail e htail) m hm).1
        dsimp only at h
        rcases heval : eval setting e m with ⟨v, m'⟩ | ⟨halt', m'⟩
        · rw [heval] at h
          cases h
        · rw [heval] at h
          cases h
          exact hsafe halt m' heval
  · cases h
    exact hr.safe halt m rfl

/-- Where loops are left from inside only, a statement at the top level goes on or returns. -/
theorem leavesRound_of_exec {s : Stmt} {flow : Flow} (hs : s.WellScoped false known)
    (hm : Covers known m.scopes) (h : exec setting s m = .ok flow m') :
    flow.leavesRound = false := by
  obtain ⟨trace, r, hrun⟩ := Ends.of_stmt setting s m
  have hr := hrun.proper (.stmt hs) hm
  rw [hrun.result_eq] at hr
  exact Bool.eq_false_iff.2 fun hflow ↦ Bool.false_ne_true (hr.inside flow m' h hflow)

/-- No statement of a well-scoped script hands a loop control over at the top level. -/
theorem leavesRound_of_handsOver {program : Program} (hp : program.WellScoped) {outbox : Outbox}
    {flow : Flow} (h : HandsOver setting program outbox flow) : flow.leavesRound = false := by
  obtain ⟨before, s, rest, m, m', heq, hall, hexec⟩ := h
  have hlist := hp.statements
  rw [heq] at hlist
  obtain ⟨hrest, hm⟩ := wellScoped_of_execAll hlist (.start outbox) hall
  cases hrest with
  | cons hs _ => exact leavesRound_of_exec hs hm hexec

/-- A run of a script of which the checks only give warnings never ends in a fault of kind
`ArgumentError`, nor in one of three wrong uses of a value: a name that is not bound, a call of
what cannot be called, and a call of what is no helper. None of its statements hands a loop control
over at the top level. -/
theorem checked_run {program : Program} (h : ∀ c ∈ Script.check program, c.isError = false)
    (setting : Setting) (outbox : Outbox) :
    (∀ fault, (run setting program outbox).result = .error (.fault fault) →
      fault.typeName ≠ "ArgumentError" ∧ (∀ name, fault ≠ .type (.unbound name)) ∧
        fault ≠ .type .notInvocable ∧ ∀ name, fault ≠ .type (.notHelper name)) ∧
      ∀ flow, HandsOver setting program outbox flow → flow ≠ .breakLoop ∧ flow ≠ .continueLoop := by
  have hp := Script.check_sound h
  refine ⟨fun fault hfault ↦ ?_, fun flow hflow ↦ ?_⟩
  · exact Fault.isPreventable_eq_false_iff.1 (unpreventable_of_run hp hfault)
  · have hround := leavesRound_of_handsOver hp hflow
    cases flow with
    | breakLoop => cases hround
    | continueLoop => cases hround
    | _ => exact ⟨nofun, nofun⟩

/-- The script
`var total = 0; foreach (var n in range(3)) { if (n == 1) { continue; } total += n; } total`. -/
def skipping : Program where
  statements :=
    [.declare ⟨0, 14⟩ .var ⟨"total", ⟨4, 9⟩⟩ (some (.literal ⟨12, 13⟩ (.int 0))),
      .forEach ⟨15, 84⟩ .var ⟨"n", ⟨28, 29⟩⟩
        (.call ⟨33, 41⟩ (.name ⟨33, 38⟩ "range") [.literal ⟨39, 40⟩ (.int 3)])
        (.block ⟨43, 84⟩
          [.ifElse ⟨45, 71⟩
            (.binary ⟨49, 55⟩ .eq (.name ⟨49, 50⟩ "n") (.literal ⟨54, 55⟩ (.int 1)))
            (.block ⟨57, 70⟩ [.continueLoop ⟨59, 68⟩]) none,
            .assign ⟨71, 82⟩ ⟨"total", ⟨71, 76⟩⟩ [] .add (.name ⟨80, 81⟩ "n")])]
  tail := some (.name ⟨85, 90⟩ "total")

/-- It passes the checks, calls a helper and repeats a loop from within. -/
theorem checked_run_skipping :
    (∀ c ∈ Script.check skipping, c.isError = false) ∧
      (∀ fault, (run (.untimed ⟨100, 1000, 10⟩) skipping (.fresh true)).result =
          .error (.fault fault) →
        fault.typeName ≠ "ArgumentError" ∧ (∀ name, fault ≠ .type (.unbound name)) ∧
          fault ≠ .type .notInvocable ∧ ∀ name, fault ≠ .type (.notHelper name)) ∧
        ∀ flow, HandsOver (.untimed ⟨100, 1000, 10⟩) skipping (.fresh true) flow →
          flow ≠ .breakLoop ∧ flow ≠ .continueLoop :=
  have hchecked : ∀ c ∈ Script.check skipping, c.isError = false := by decide +kernel
  ⟨hchecked, checked_run hchecked _ _⟩

end Snippet.Run
