import Snippet.Proofs.Budget

/-!
# Cancelled runs

That the host has cancelled a run is noticed in every 1024th step only, behind the look at the
budget. So a cancelled run does for 1023 steps what it would have done anyway, and the next step
ends it. A budget of 1023 steps ends it there as well, for want of steps.

* `Lockstep` says of two settings that a run takes the same steps under both of them up to some
  number, and that the next step ends it under both.
* `Lockstep.compositional`, `Lockstep.begin` and `Lockstep.next` say that expressions, statements
  and rounds then come to the same until that step, and `Lockstep.runs` that whole tasks do. Tasks
  are compared by their derivations, since the bound on the rounds of a `while` differs.
* `run_withCancelled` compares the runs.

The clock is out of the way here.
-/

namespace Snippet.Run

open Script (Accessor AssignOp Builtin DeclType Expr Program Stmt)

variable {α β : Type} {setting : Bool → Setting} {k : Nat} {cut : Fault} {m m' : Machine}

/-- The setting with this word of the host on whether it has cancelled the run. -/
def Setting.withCancelled (setting : Setting) (cancelled : Bool) : Setting :=
  { setting with cancelled }

/-- Two settings under which the steps up to the number `k` are the same. The step behind them is
over the budget under the first one, and ends the run by the fault `cut` under the second one. -/
structure Lockstep (setting : Bool → Setting) (k : Nat) (cut : Fault) : Prop where
  elements : (setting true).limits.maxElements = (setting false).limits.maxElements
  context : (setting true).context = (setting false).context
  go : ∀ m, m.steps < k → ∀ i, tick (setting i) m = .ok () m.ticked
  stop : ∀ m, m.steps = k →
    tick (setting false) m = .error (.fault (.stepBudget k)) m.ticked ∧
      tick (setting true) m = .error (.fault cut) m.ticked

/-- Whether a run ended because it took too long. -/
def Halt.isTimeout : Halt → Bool
  | fault f => f.isTimeout
  | breakdown _ => false

/-- What a computation ends with under two such settings: the same value or the same fault, which
is not about time, or the two faults of the step behind the number `k`. -/
inductive Parted (k : Nat) (cut : Fault) : Ended α → Ended α → Prop
  | value {a : α} {m : Machine} (hm : m.steps ≤ k) : Parted k cut (.ok a m) (.ok a m)
  | halt {halt : Halt} {m : Machine} (h : halt.isTimeout = false) :
      Parted k cut (.error halt m) (.error halt m)
  | apart {m : Machine} (hm : m.steps = k + 1) :
      Parted k cut (.error (.fault (.stepBudget k)) m) (.error (.fault cut) m)

namespace Parted

theorem eq_of_ok {a : α} {r : Ended α} (h : Parted k cut (.ok a m) r) :
    r = .ok a m ∧ m.steps ≤ k := by
  cases h with
  | value hm => exact ⟨rfl, hm⟩

/-- What halts under the first setting halts under the second, in any continuation. -/
theorem of_error {halt : Halt} {r : Ended α} (h : Parted k cut (.error halt m) r) :
    ∃ halt', r = .error halt' m ∧
      Parted k cut (.error halt m : Ended β) (.error halt' m) := by
  rcases h with - | h | h
  · exact ⟨_, rfl, .halt h⟩
  · exact ⟨_, rfl, .apart h⟩

theorem leaving {r r' : Ended α} (h : Parted k cut r r') :
    Parted k cut (leaving r) (leaving r') := by
  rcases h with h | h | h
  · exact .value h
  · exact .halt h
  · exact .apart h

end Parted

/-- From every state that has not taken more than `k` steps the two computations part in step. -/
def InStep (k : Nat) (cut : Fault) (x : Bool → Step α) : Prop :=
  ∀ m, m.steps ≤ k → Parted k cut (x false m) (x true m)

namespace InStep

variable {x : Bool → Step α}

theorem ok {a : α} (hx : InStep k cut x) (hm : m.steps ≤ k) (h : x false m = .ok a m') :
    x true m = .ok a m' ∧ m'.steps ≤ k := by
  have hparted := hx m hm
  rw [h] at hparted
  exact hparted.eq_of_ok

theorem error {halt : Halt} (hx : InStep k cut x) (hm : m.steps ≤ k)
    (h : x false m = .error halt m') :
    ∃ halt', x true m = .error halt' m' ∧
      Parted k cut (.error halt m' : Ended β) (.error halt' m') := by
  have hparted := hx m hm
  rw [h] at hparted
  exact hparted.of_error

theorem bind {f : Bool → α → Step β} (hx : InStep k cut x)
    (hf : ∀ a, InStep k cut fun i ↦ f i a) : InStep k cut fun i ↦ x i >>= f i := by
  intro m hm
  show Parted k cut ((x false >>= f false) m) ((x true >>= f true) m)
  rcases hfalse : x false m with ⟨a, m₁⟩ | ⟨halt, m₁⟩
  · obtain ⟨htrue, hm₁⟩ := hx.ok hm hfalse
    rw [bind_of_ok hfalse, bind_of_ok htrue]
    exact hf a m₁ hm₁
  · obtain ⟨halt', htrue, hparted⟩ := hx.error hm hfalse
    rw [bind_of_error hfalse, bind_of_error htrue]
    exact hparted

theorem ite {p : Prop} [Decidable p] {y : Bool → Step α} (hx : InStep k cut x)
    (hy : InStep k cut y) : InStep k cut fun i ↦ if p then x i else y i := by
  split
  · exact hx
  · exact hy

theorem lift {result : Except Fault α} (h : Prompt result) : InStep k cut fun _ ↦ lift result := by
  intro m hm
  show Parted k cut (Run.lift result m) (Run.lift result m)
  rw [lift_apply]
  rcases result with fault | a
  · exact .halt (h fault rfl)
  · exact .value hm

theorem pure (a : α) : InStep k cut fun _ ↦ (pure a : Step α) :=
  lift (.ok a)

theorem lookup (name : String) : InStep k cut fun _ ↦ lookup name := by
  intro m hm
  show Parted k cut (Run.lookup name m) (Run.lookup name m)
  rw [lookup_apply]
  cases findSlot? name m.scopes with
  | none => exact .halt rfl
  | some slot => exact .value hm

theorem store (name : String) (value : Value) : InStep k cut fun _ ↦ store name value :=
  fun _ hm ↦ .value hm

theorem declare (name : String) (type : DeclType) (value : Value) :
    InStep k cut fun _ ↦ declare name type value := by
  intro m hm
  show Parted k cut (Run.declare name type value m) (Run.declare name type value m)
  rw [declare_apply]
  rcases hcoerce : coerce type value with fault | v
  · exact .halt ((operational_coerce type value).prompt fault hcoerce)
  · exact .value hm

theorem ask (answer : HostAnswer α) : InStep k cut fun _ ↦ ask answer := by
  intro m hm
  cases answer with
  | ok a => exact .value hm
  | error text => exact .halt rfl

end InStep

namespace Lockstep

variable (h : Lockstep setting k cut)
include h

/-- A step is within the number, or the one behind it. -/
theorem tick : InStep k cut fun i ↦ tick (setting i) := by
  intro m hm
  show Parted k cut (Run.tick (setting false) m) (Run.tick (setting true) m)
  obtain hlt | heq := Nat.lt_or_eq_of_le hm
  · rw [h.go m hlt, h.go m hlt]
    exact .value hlt
  · rw [(h.stop m heq).1, (h.stop m heq).2]
    exact .apart (congrArg Nat.succ heq)

theorem callBuiltin {b : Builtin} {args : List Value} (hargs : b.accepts args.length = true) :
    InStep k cut fun i ↦ callBuiltin (setting i) b args := by
  -- neither the budget nor the host's word is looked at
  have heq : (fun i ↦ Run.callBuiltin (setting i) b args) =
      fun _ ↦ Run.callBuiltin (setting false) b args := by
    funext i
    cases i with
    | false => rfl
    | true => cases b <;> simp only [Run.callBuiltin, h.elements, h.context]
  rw [heq]
  cases b with
  | emitReply => exact fun _ hm ↦ .value hm
  | invokerIdentity => exact .pure _
  | brandingAccent =>
    refine (InStep.ask _).bind fun color ↦ ?_
    cases color <;> exact .pure _
  | _ =>
    rw [callBuiltin_of_helper rfl]
    exact .lift (operational_helperValue hargs).prompt

theorem compositional :
    Compositional setting (setting false).limits.maxElements (InStep k cut) where
  limits i := by
    cases i with
    | false => rfl
    | true => exact h.elements
  lift := .lift
  lookup := .lookup
  tick := h.tick
  callBuiltin := h.callBuiltin
  bind := .bind

theorem assign (root : String) (path : List Accessor) (op : AssignOp) (value : Expr) :
    InStep k cut fun i ↦ assign (setting i) root path op value := by
  simp only [Run.assign, h.compositional.limits]
  refine (h.compositional.evalPath path).bind fun keys ↦ (h.compositional.eval value).bind fun v ↦
    (h.compositional.assignedValue root keys op v).bind fun w ↦ (InStep.lookup root).bind
      fun slot ↦ ?_
  cases keys with
  | nil => exact (InStep.lift (operational_coerce _ _).prompt).bind fun _ ↦ .store root _
  | cons key rest =>
    refine (InStep.lift (operational_writePath _ _ _).prompt).bind fun updated ↦
      (InStep.store root updated).bind fun _ ↦ .ite ?_ (.pure ())
    exact (InStep.lift (operational_shaped _).prompt).bind fun _ ↦ .pure ()

/-- A statement comes in step to the task that it leaves. -/
theorem begin (s : Stmt) : InStep k cut fun i ↦ begin (setting i) s := by
  have hdone {s : Stmt} (hs : InStep k cut fun i ↦ exec (setting i) s) :
      InStep k cut fun i ↦ (do return .done (← exec (setting i) s) : Step Task) :=
    hs.bind fun _ ↦ .pure _
  have heval := h.compositional.eval
  cases s with
  | declare _ type name init =>
    have hdeclare (v : Value) : InStep k cut fun _ ↦
        (do Run.declare name.name type v; return Flow.normal : Step Flow) :=
      (InStep.declare name.name type v).bind fun _ ↦ .pure _
    cases init with
    | some init => exact hdone (h.tick.bind fun _ ↦ (heval init).bind hdeclare)
    | none => exact hdone (h.tick.bind fun _ ↦ (InStep.pure _).bind hdeclare)
  | assign _ root path op value =>
    exact hdone (h.tick.bind fun _ ↦ (h.assign root.name path op value).bind fun _ ↦ .pure _)
  | expression _ value => exact hdone (h.tick.bind fun _ ↦ (heval value).bind fun _ ↦ .pure _)
  | block _ body => exact h.tick.bind fun _ ↦ .pure _
  | ifElse _ cond yes no =>
    refine h.tick.bind fun _ ↦ (heval cond).bind fun _ ↦
      (InStep.lift (operational_truth _ _).prompt).bind fun _ ↦
        .ite (.pure _) ?_
    cases no <;> exact .pure _
  | whileLoop _ cond body => exact h.tick.bind fun _ ↦ .pure _
  | forEach _ type binding items body =>
    simp only [Run.begin, h.compositional.limits]
    exact h.tick.bind fun _ ↦ (heval items).bind fun _ ↦
      (InStep.lift (operational_itemsOf _).prompt).bind fun _ ↦ .pure _
  | returnWith _ value =>
    cases value with
    | some value => exact hdone (h.tick.bind fun _ ↦ (heval value).bind fun _ ↦ .pure _)
    | none => exact hdone (h.tick.bind fun _ ↦ .pure _)
  | throwWith _ value =>
    refine hdone ?_
    simp only [Run.exec, h.compositional.limits]
    exact h.tick.bind fun _ ↦ (heval value).bind fun v ↦
      InStep.lift (.error (Fault.prompt_of_operational (isOperational_thrown _ v)))
  | breakLoop _ => exact hdone (h.tick.bind fun _ ↦ .pure _)
  | continueLoop _ => exact hdone (h.tick.bind fun _ ↦ .pure _)
  | empty _ => exact hdone (h.tick.bind fun _ ↦ .pure _)

/-- A loop comes in step to its next round. -/
theorem next (l : Loop) : InStep k cut fun i ↦ l.next (setting i) := by
  match l with
  | .whileTrue cond _ =>
    exact ((h.compositional.eval cond).bind fun v ↦
      InStep.lift (operational_truth _ v).prompt).bind fun _ ↦
        .ite (.pure _) (.pure _)
  | .forEach _ _ [] _ => exact .pure _
  | .forEach _ _ (_ :: _) _ => exact h.tick.bind fun _ ↦ .pure _

/-! ### Whole tasks -/

/-- A task that is taken up within the number of steps comes to the same, or is cut off, under the
second setting. The induction is on the derivation under the first one. -/
theorem runs {t : Task} {trace : List Execution} {r : Ended Flow}
    (hrun : Runs (setting false) t m trace r) (hm : m.steps ≤ k) :
    ∃ trace' r', Runs (setting true) t m trace' r' ∧ Parted k cut r r' := by
  induction hrun with
  | done => exact ⟨_, _, .done, .value hm⟩
  | @stmt s t m m₁ trace r hbegin hrest ih =>
    obtain ⟨hbegin', hm₁⟩ := (h.begin s).ok hm hbegin
    obtain ⟨_, _, hrest', hparted⟩ := ih hm₁
    exact ⟨_, _, .stmt hbegin' hrest', hparted⟩
  | @stmtHalts s m m₁ halt hbegin =>
    obtain ⟨_, hbegin', hparted⟩ := (h.begin s).error hm hbegin
    exact ⟨_, _, .stmtHalts hbegin', hparted⟩
  | inner hrest ih =>
    obtain ⟨_, _, hrest', hparted⟩ := ih hm
    exact ⟨_, _, .inner hrest', hparted.leaving⟩
  | @bound name type item body m m₁ trace r hdeclare hrest ih =>
    have hinStep : InStep k cut fun _ ↦ declare name type item := .declare name type item
    obtain ⟨-, hm₁⟩ := hinStep.ok hm hdeclare
    obtain ⟨_, _, hrest', hparted⟩ := ih hm₁
    exact ⟨_, _, .bound hdeclare hrest', hparted⟩
  | @boundHalts name type item body m m₁ halt hdeclare =>
    obtain ⟨_, hdeclare', hparted⟩ := (InStep.declare name type item).error hm hdeclare
    exact ⟨_, _, .boundHalts hdeclare', hparted⟩
  | listEnds => exact ⟨_, _, .listEnds, .value hm⟩
  | listNext _ hflow _ ih ih' =>
    obtain ⟨_, _, hfirst', hparted⟩ := ih hm
    obtain ⟨rfl, hm₁⟩ := hparted.eq_of_ok
    obtain ⟨_, _, hrest', hparted'⟩ := ih' hm₁
    exact ⟨_, _, .listNext hfirst' hflow hrest', hparted'⟩
  | listLeft _ hflow ih =>
    obtain ⟨_, _, hfirst', hparted⟩ := ih hm
    obtain ⟨rfl, hm₁⟩ := hparted.eq_of_ok
    exact ⟨_, _, .listLeft hfirst' hflow, hparted⟩
  | listHalts _ ih =>
    obtain ⟨_, _, hfirst', hparted⟩ := ih hm
    obtain ⟨_, rfl, hparted'⟩ := hparted.of_error
    exact ⟨_, _, .listHalts hfirst', hparted'⟩
  | @loopEnds l m m₁ hnext =>
    obtain ⟨hnext', hm₁⟩ := (h.next l).ok hm hnext
    exact ⟨_, _, .loopEnds hnext', .value hm₁⟩
  | @loopHalts l m m₁ halt hnext =>
    obtain ⟨_, hnext', hparted⟩ := (h.next l).error hm hnext
    exact ⟨_, _, .loopHalts hnext', hparted⟩
  | @loopNext l l' t m m₁ m₂ flow trace trace' r hnext _ hflow _ ih ih' =>
    obtain ⟨hnext', hm₁⟩ := (h.next l).ok hm hnext
    obtain ⟨_, _, hround', hparted⟩ := ih hm₁
    obtain ⟨rfl, hm₂⟩ := hparted.eq_of_ok
    obtain ⟨_, _, hrest', hparted'⟩ := ih' hm₂
    exact ⟨_, _, .loopNext hnext' hround' hflow hrest', hparted'⟩
  | @loopLeft l l' t m m₁ m₂ flow trace hnext _ hflow ih =>
    obtain ⟨hnext', hm₁⟩ := (h.next l).ok hm hnext
    obtain ⟨_, _, hround', hparted⟩ := ih hm₁
    obtain ⟨rfl, hm₂⟩ := hparted.eq_of_ok
    exact ⟨_, _, .loopLeft hnext' hround' hflow, .value hm₂⟩
  | @loopBroken l l' t m m₁ m₂ halt trace hnext _ ih =>
    obtain ⟨hnext', hm₁⟩ := (h.next l).ok hm hnext
    obtain ⟨_, _, hround', hparted⟩ := ih hm₁
    obtain ⟨_, rfl, hparted'⟩ := hparted.of_error
    exact ⟨_, _, .loopBroken hnext' hround', hparted'⟩

theorem atEnd (tail : Option Expr) (flow : Flow) :
    InStep k cut fun i ↦ atEnd (setting i) tail flow := by
  have hbehind : InStep k cut fun i ↦
      (tail.elim (return .null) (eval (setting i)) : Step Value) := by
    cases tail with
    | none => exact .pure _
    | some e => exact h.compositional.eval e
  cases flow with
  | returned v => exact .pure v
  | _ => exact hbehind

/-- So a script as a whole comes to the same, or is cut off. -/
theorem run (program : Program) (outbox : Outbox) :
    ∃ r r' : Ended Value, Parted k cut r r' ∧
      run (setting false) program outbox = ending r ∧
      run (setting true) program outbox = ending r' := by
  obtain ⟨_, r, hrun⟩ := exists_runs (setting false) program outbox
  obtain ⟨_, r', hrun', hparted⟩ := h.runs hrun (Nat.zero_le k)
  rw [hrun.run_eq, RunsOf.run_eq hrun']
  rcases r with ⟨flow, m⟩ | ⟨halt, m⟩
  · obtain ⟨rfl, hm⟩ := hparted.eq_of_ok
    exact ⟨_, _, h.atEnd program.tail flow m hm, conclude_ok .., conclude_ok ..⟩
  · obtain ⟨halt', rfl, hparted'⟩ := hparted.of_error
    exact ⟨.error halt m, .error halt' m, hparted', rfl, rfl⟩

end Lockstep

/-! ### Cancelled runs -/

section Cancelled

variable {setting : Setting} {n : Nat}

theorem tick_withCancelled (hlate : ∀ step, setting.late step = false) (n : Nat)
    (cancelled : Bool) (m : Machine) :
    tick ((setting.withBudget n).withCancelled cancelled) m =
      if n < m.steps + 1 then .error (.fault (.stepBudget n)) m.ticked
      else if (m.steps + 1) % clockInterval = 0 ∧ cancelled then
        .error (.fault (.timeLimit setting.limits.timeout)) m.ticked
      else .ok () m.ticked := by
  have hlook : ((setting.withBudget n).withCancelled cancelled).late (m.steps + 1) = false :=
    hlate _
  simp only [tick_apply, hlook, Bool.false_eq_true, false_or]
  rfl

/-- Between two looks at the host's word a step counts under every budget that has it. -/
theorem tick_eq_ok_of_lt (hlate : ∀ step, setting.late step = false) (cancelled : Bool)
    (hbudget : m.steps < n) (hlook : m.steps + 1 < clockInterval) :
    tick ((setting.withBudget n).withCancelled cancelled) m = .ok () m.ticked := by
  have hmod : (m.steps + 1) % clockInterval ≠ 0 := by
    rw [Nat.mod_eq_of_lt hlook]
    exact Nat.succ_ne_zero _
  rw [tick_withCancelled hlate, if_neg (by omega), if_neg fun h ↦ hmod h.1]

theorem tick_eq_stepBudget (hlate : ∀ step, setting.late step = false) (cancelled : Bool)
    (hbudget : m.steps = n) :
    tick ((setting.withBudget n).withCancelled cancelled) m =
      .error (.fault (.stepBudget n)) m.ticked := by
  rw [tick_withCancelled hlate, if_pos (by omega)]

/-- Under a budget that reaches the first look at the host's word, a cancelled run goes along with
the other one under the greatest budget that does not. -/
theorem lockstep_of_le (hlate : ∀ step, setting.late step = false) (hn : clockInterval ≤ n) :
    Lockstep
      (fun cancelled ↦
        (setting.withBudget (bif cancelled then n else clockInterval - 1)).withCancelled cancelled)
      (clockInterval - 1) (.timeLimit setting.limits.timeout) where
  elements := rfl
  context := rfl
  go m hm i := by
    refine tick_eq_ok_of_lt hlate i ?_ (by omega)
    cases i with
    | false => exact hm
    | true =>
      show m.steps < n
      omega
  stop m hm := by
    have hsteps : m.steps + 1 = clockInterval := by
      rw [hm]
      rfl
    refine ⟨tick_eq_stepBudget hlate false hm, ?_⟩
    show tick ((setting.withBudget n).withCancelled true) m = _
    rw [tick_withCancelled hlate, hsteps, if_neg (by omega), if_pos ⟨Nat.mod_self _, rfl⟩]

/-- Under a smaller budget the two go along up to it. -/
theorem lockstep_of_lt (hlate : ∀ step, setting.late step = false) (hn : n < clockInterval) :
    Lockstep (setting.withBudget n).withCancelled n (.stepBudget n) where
  elements := rfl
  context := rfl
  go m hm i := tick_eq_ok_of_lt hlate i hm (by omega)
  stop m hm := ⟨tick_eq_stepBudget hlate false hm, tick_eq_stepBudget hlate true hm⟩

/-- **Cancellation takes effect at step 1024.** Unless the time limit passes, a run that is
cancelled before its start ends in the state in which it would have ended under a budget of 1023
steps, and with the same value or fault, except that where those steps were not enough it is the
time limit that it exceeds, with the step 1024. Under a budget of fewer than 1024 steps it makes
no difference that a run is cancelled. -/
theorem run_withCancelled (hlate : ∀ step, setting.late step = false) (program : Program)
    (outbox : Outbox) (n : Nat) :
    (clockInterval ≤ n → ∃ short cancelled,
      run ((setting.withBudget (clockInterval - 1)).withCancelled false) program outbox = short ∧
      run ((setting.withBudget n).withCancelled true) program outbox = cancelled ∧
      cancelled.machine = short.machine ∧
      (short.result ≠ .error (.fault (.stepBudget (clockInterval - 1))) →
        cancelled.result = short.result) ∧
      (short.result = .error (.fault (.stepBudget (clockInterval - 1))) →
        cancelled.result = .error (.fault (.timeLimit setting.limits.timeout)) ∧
          cancelled.machine.steps = clockInterval)) ∧
    (n < clockInterval →
      run ((setting.withBudget n).withCancelled true) program outbox =
        run ((setting.withBudget n).withCancelled false) program outbox) := by
  constructor
  · intro hn
    obtain ⟨r, r', hparted, hshort, hcancelled⟩ := (lockstep_of_le hlate hn).run program outbox
    refine ⟨_, _, hshort, hcancelled, ?_⟩
    cases hparted with
    | value hm => exact ⟨rfl, fun _ ↦ rfl, nofun⟩
    | halt hhalt =>
      refine ⟨rfl, fun _ ↦ rfl, fun h ↦ ?_⟩
      cases h
      cases hhalt
    | apart hm => exact ⟨rfl, fun h ↦ absurd rfl h, fun _ ↦ ⟨rfl, hm⟩⟩
  · intro hn
    obtain ⟨r, r', hparted, hplain, hcancelled⟩ := (lockstep_of_lt hlate hn).run program outbox
    rw [hplain, hcancelled]
    cases hparted <;> rfl

/-- What ended a run that has no result. -/
def Ending.halt? (e : Ending) : Option Halt :=
  match e.result with
  | .ok _ => none
  | .error halt => some halt

theorem Ending.result_of_halt? {e : Ending} {halt : Halt} (h : e.halt? = some halt) :
    e.result = .error halt := by
  rw [halt?] at h
  split at h
  · cases h
  · cases h
    assumption

/-- The script `emitReply("a"); while (true) { }`. -/
def endless : Program where
  statements :=
    [.expression ⟨0, 15⟩ (.call ⟨0, 14⟩ (.name ⟨0, 9⟩ "emitReply")
        [.literal ⟨10, 13⟩ (.string "a")]),
      .whileLoop ⟨16, 32⟩ (.literal ⟨23, 27⟩ (.bool true)) (.block ⟨29, 32⟩ [])]
  tail := none

/-- `endless` is stopped at step 1024 of a million, its reply sent. With 1000 steps it would not
have come so far. -/
theorem run_withCancelled_endless :
    ∃ setting : Setting, (∀ step, setting.late step = false) ∧ clockInterval ≤ 1000000 ∧
      1000 < clockInterval ∧
      (∃ cancelled, run ((setting.withBudget 1000000).withCancelled true) endless (.fresh true) =
          cancelled ∧
        cancelled.result = .error (.fault (.timeLimit 5000)) ∧
        cancelled.machine.steps = clockInterval ∧ cancelled.machine.outbox.texts = ["a"]) ∧
      run ((setting.withBudget 1000).withCancelled true) endless (.fresh true) =
        run ((setting.withBudget 1000).withCancelled false) endless (.fresh true) := by
  have hlate : ∀ step, (Setting.untimed ⟨0, 5000, 10⟩).late step = false := fun _ ↦ rfl
  have hn : clockInterval ≤ 1000000 := by decide
  have hn' : 1000 < clockInterval := by decide
  obtain ⟨_, _, rfl, rfl, hmachine, -, hstopped⟩ :=
    (run_withCancelled hlate endless (.fresh true) 1000000).1 hn
  obtain ⟨hresult, hsteps⟩ := hstopped (Ending.result_of_halt? (by decide +kernel))
  refine ⟨_, hlate, hn, hn', ⟨_, rfl, hresult, hsteps, ?_⟩,
    (run_withCancelled hlate endless (.fresh true) 1000).2 hn'⟩
  rw [hmachine]
  decide +kernel

end Cancelled

end Snippet.Run
