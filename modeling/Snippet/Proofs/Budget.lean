import Snippet.Proofs.Execution

/-!
# The step budget

A run that does not use up its budget takes a certain number of steps, and that number is all that
there is to know about budgets: with at least as many steps the run is the same, and with fewer
it ends for want of steps, having sent no more than a part of the replies (`budget_threshold`).

* `Metered` says so of a computation that is given a budget, from every state.
* `Metered.bind` is where steps are compared: the budget may run out in the first part of a
  sequence, between the two, or in the second part.
* `Metered.whileTrue` is the induction that a loop needs, on the steps that are left: a round cannot
  begin without taking one.

The clock and the host look at the steps too. They are out of the way here.
-/

namespace Snippet.Run

open Script (Accessor AssignOp Builtin DeclType Expr Program Stmt)

variable {α β : Type} {setting : Setting} {m m' : Machine}

/-- The setting with another budget. -/
def Setting.withBudget (setting : Setting) (n : Nat) : Setting :=
  { setting with limits := { setting.limits with maxSteps := n } }

/-- Neither the clock nor the host ends a run. -/
structure Setting.Untimed (setting : Setting) : Prop where
  late : ∀ step, setting.late step = false
  cancelled : setting.cancelled = false

/-- A computation ended for want of steps. -/
def Exhausted (n : Nat) (r : Ended α) : Prop :=
  ∃ m, r = .error (.fault (.stepBudget n)) m

/-- The steps that `x` takes from `m` under the budget `n` are what it needs: it is the same under
every budget that admits them, and ends for want of steps under every other one. -/
structure Threshold (x : Nat → Step α) (n : Nat) (m : Machine) : Prop where
  le : (after (x n m)).steps ≤ n
  enough : ∀ k, (after (x n m)).steps ≤ k → x k m = x n m
  short : ∀ k, m.steps ≤ k → k < (after (x n m)).steps → Exhausted k (x k m) ∧
    (after (x k m)).outbox.sent.toList <+: (after (x n m)).outbox.sent.toList

/-- Unless it ends for want of steps, a computation meets the threshold that its steps are. -/
def MeteredAt (x : Nat → Step α) (n : Nat) (m : Machine) : Prop :=
  m.steps ≤ n → ¬ Exhausted n (x n m) → Threshold x n m

/-- A computation under a budget that does what the budget lets it do, from every state. -/
structure Metered (x : Nat → Step α) : Prop where
  progress : ∀ n, Moves Progress (x n)
  meteredAt : ∀ n m, MeteredAt x n m

/-! ### Small computations -/

/-- No step is taken, and no reply taken back. -/
def Still (m m' : Machine) : Prop :=
  m'.steps = m.steps ∧ m.outbox.sent.toList <+: m'.outbox.sent.toList

theorem Still.refl (m : Machine) : Still m m :=
  ⟨rfl, List.prefix_refl _⟩

namespace Metered

/-- A computation that takes no steps and does not look at the budget. -/
theorem const {x : Nat → Step α} (h : ∀ n k, x n = x k) (hx : ∀ n, Moves Still (x n)) :
    Metered x where
  progress n m := ⟨Nat.le_of_eq (hx n m).1.symm, (hx n m).2⟩
  meteredAt n m hm _ := by
    have hsteps := (hx n m).1
    refine ⟨by omega, fun k _ ↦ by rw [h k n], fun k hk hlt ↦ ?_⟩
    omega

theorem pure (a : α) : Metered fun _ ↦ (pure a : Step α) :=
  const (fun _ _ ↦ rfl) fun _ m ↦ Still.refl m

theorem fail {fault : Nat → Fault} (h : ∀ n k, fault n = fault k) :
    Metered fun n ↦ (fail (fault n) : Step α) :=
  const (fun n k ↦ by rw [h n k]) fun _ m ↦ Still.refl m

theorem lift {result : Nat → Except Fault α} (h : ∀ n k, result n = result k) :
    Metered fun n ↦ lift (result n) :=
  const (fun n k ↦ by rw [h n k]) fun n m ↦ by
    rw [after_lift]
    exact Still.refl m

theorem lookup (name : String) : Metered fun _ ↦ lookup name :=
  const (fun _ _ ↦ rfl) fun _ m ↦ by
    rw [after_lookup]
    exact Still.refl m

theorem store (name : String) (value : Value) : Metered fun _ ↦ store name value :=
  const (fun _ _ ↦ rfl) fun _ m ↦ Still.refl m

theorem declare (name : String) (type : DeclType) (value : Value) :
    Metered fun _ ↦ declare name type value :=
  const (fun _ _ ↦ rfl) fun _ m ↦ by
    rw [declare_apply]
    cases coerce type value <;> exact Still.refl m

theorem callBuiltin (setting : Setting) (b : Builtin) (args : List Value) :
    Metered fun n ↦ callBuiltin (setting.withBudget n) b args := by
  refine const (fun n k ↦ by cases b <;> rfl) fun n m ↦ ?_
  cases b with
  | emitReply => exact ⟨rfl, sent_prefix_emit _ _⟩
  | brandingAccent =>
    show Still m (after ((ask setting.context.accent >>= _) m))
    rcases setting.context.accent with text | _ | color <;> exact Still.refl m
  | invokerIdentity => exact Still.refl m
  | _ =>
    rw [callBuiltin_of_helper rfl, after_lift]
    exact Still.refl m

/-- The step itself is where the budget is looked at. -/
theorem tick (h : setting.Untimed) : Metered fun n ↦ tick (setting.withBudget n) where
  progress n := passage_progress.count _
  meteredAt n m hm hr := by
    have htick (k : Nat) : Run.tick (setting.withBudget k) m =
        if k < m.steps + 1 then .error (.fault (.stepBudget k)) m.ticked else .ok () m.ticked := by
      have hlate : (setting.withBudget k).late (m.steps + 1) = false := h.late _
      have hcancelled : (setting.withBudget k).cancelled = false := h.cancelled
      rw [tick_apply, hlate, hcancelled]
      simp [Setting.withBudget]
    have hlt : ¬ n < m.steps + 1 := by
      intro hlt
      dsimp only at hr
      rw [htick, if_pos hlt] at hr
      exact hr ⟨_, rfl⟩
    have hn : Run.tick (setting.withBudget n) m = .ok () m.ticked := by
      rw [htick, if_neg hlt]
    have hsteps : (after (Run.tick (setting.withBudget n) m)).steps = m.steps + 1 := by
      rw [hn, after_ok, Machine.ticked_steps]
    refine ⟨by omega, fun k hk ↦ ?_, fun k _ hk ↦ ?_⟩
    · rw [hn, htick, if_neg (by omega)]
    · rw [hn, htick, if_pos (by omega)]
      exact ⟨⟨_, rfl⟩, List.prefix_refl _⟩

end Metered

/-! ### Sequences, branches and blocks -/

/-- The budget of a sequence that meets its threshold runs out in the first part, which the second
part never sees, or in the second part. -/
theorem MeteredAt.bind {x : Nat → Step α} {f : Nat → α → Step β} {n : Nat}
    (hx : MeteredAt x n m)
    (hf : ∀ a m', x n m = .ok a m' → MeteredAt (fun n ↦ f n a) n m')
    (hprogress : ∀ n a, Moves Progress (f n a)) : MeteredAt (fun n ↦ x n >>= f n) n m := by
  intro hm hr
  dsimp only at hr
  rw [bind_apply] at hr
  rcases hxm : x n m with ⟨a, m₁⟩ | ⟨halt, m₁⟩
  · obtain ⟨hle, henough, hshort⟩ := hx hm fun ⟨_, h⟩ ↦ by
      rw [hxm] at h
      cases h
    rw [hxm] at hr hle henough hshort
    obtain ⟨hle', henough', hshort'⟩ := hf a m₁ hxm hle hr
    have hmono := hprogress n a m₁
    have hbind : (x n >>= f n) m = f n a m₁ := bind_of_ok hxm _
    refine ⟨by rwa [hbind], fun k hk ↦ ?_, fun k hk hlt ↦ ?_⟩
    · rw [hbind] at hk ⊢
      rw [bind_of_ok (henough k (Nat.le_trans hmono.1 hk)), henough' k hk]
    · rw [hbind] at hlt ⊢
      by_cases hfirst : m₁.steps ≤ k
      · rw [bind_of_ok (henough k hfirst)]
        exact hshort' k hfirst hlt
      · obtain ⟨⟨m₂, hexhausted⟩, hprefix⟩ := hshort k hk (Nat.lt_of_not_le hfirst)
        rw [bind_of_error hexhausted]
        rw [hexhausted] at hprefix
        exact ⟨⟨m₂, rfl⟩, hprefix.trans hmono.2⟩
  · rw [hxm] at hr
    obtain ⟨hle, henough, hshort⟩ := hx hm fun ⟨m₂, h⟩ ↦ hr ⟨m₂, by
      rw [hxm] at h
      cases h
      rfl⟩
    rw [hxm] at hle henough hshort
    have hbind : (x n >>= f n) m = .error halt m₁ := bind_of_error hxm _
    refine ⟨by rwa [hbind], fun k hk ↦ ?_, fun k hk hlt ↦ ?_⟩
    · rw [hbind] at hk ⊢
      exact bind_of_error (henough k hk) _
    · rw [hbind] at hlt ⊢
      obtain ⟨⟨m₂, hexhausted⟩, hprefix⟩ := hshort k hk hlt
      rw [bind_of_error hexhausted]
      rw [hexhausted] at hprefix
      exact ⟨⟨m₂, rfl⟩, hprefix⟩

namespace Metered

theorem bind {x : Nat → Step α} {f : Nat → α → Step β} (hx : Metered x)
    (hf : ∀ a, Metered fun n ↦ f n a) : Metered fun n ↦ x n >>= f n where
  progress n := passage_progress.bind (hx.progress n) fun a ↦ (hf a).progress n
  meteredAt n m := (hx.meteredAt n m).bind (fun a m' _ ↦ (hf a).meteredAt n m')
    fun n a ↦ (hf a).progress n

theorem ite {p : Prop} [Decidable p] {x y : Nat → Step α} (hx : Metered x) (hy : Metered y) :
    Metered fun n ↦ if p then x n else y n := by
  split
  · exact hx
  · exact hy

theorem inBlock {x : Nat → Step α} (hx : Metered x) : Metered fun n ↦ inBlock (x n) where
  progress n := passage_progress.inBlock (hx.progress n)
  meteredAt n m hm hr := by
    have hleaving {r : Ended α} {k : Nat} (h : Exhausted k r) : Exhausted k (leaving r) := by
      obtain ⟨m', rfl⟩ := h
      exact ⟨m'.leave, rfl⟩
    have hr' : ¬ Exhausted n (x n m.enter) := by
      dsimp only at hr
      rw [inBlock_apply] at hr
      exact fun h ↦ hr (hleaving h)
    obtain ⟨hle, henough, hshort⟩ := hx.meteredAt n m.enter hm hr'
    refine ⟨?_, fun k hk ↦ ?_, fun k hk hlt ↦ ?_⟩
    · rwa [inBlock_apply, after_leaving]
    · rw [inBlock_apply, after_leaving] at hk
      rw [inBlock_apply, inBlock_apply, henough k hk]
    · rw [inBlock_apply, after_leaving] at hlt
      rw [inBlock_apply, inBlock_apply, after_leaving, after_leaving]
      exact (hshort k hk hlt).imp_left hleaving

/-! ### Expressions -/

/-- The budget is looked at in steps only. -/
theorem compositional (h : setting.Untimed) :
    Compositional setting.withBudget setting.limits.maxElements Metered where
  limits _ := rfl
  lift _ := .lift fun _ _ ↦ rfl
  lookup := lookup
  tick := tick h
  callBuiltin _ := callBuiltin setting _ _
  bind := bind

theorem eval (h : setting.Untimed) (e : Expr) :
    Metered fun n ↦ eval (setting.withBudget n) e :=
  (compositional h).eval e

theorem evalPath (h : setting.Untimed) (path : List Accessor) :
    Metered fun n ↦ evalPath (setting.withBudget n) path :=
  (compositional h).evalPath path

/-! ### Statements -/

theorem assign (h : setting.Untimed) (root : String) (path : List Accessor) (op : AssignOp)
    (value : Expr) : Metered fun n ↦ assign (setting.withBudget n) root path op value := by
  refine (evalPath h path).bind fun keys ↦ (eval h value).bind fun v ↦
    ((compositional h).assignedValue root keys op v).bind fun w ↦ (lookup root).bind fun slot ↦ ?_
  cases keys with
  | nil => exact (Metered.lift fun _ _ ↦ rfl).bind fun _ ↦ store root _
  | cons key rest =>
    refine (Metered.lift fun _ _ ↦ rfl).bind fun updated ↦ (store root updated).bind fun _ ↦
      .ite ?_ (.pure ())
    exact (Metered.lift fun _ _ ↦ rfl).bind fun _ ↦ .pure ()

theorem test (h : setting.Untimed) (cond : Expr) :
    Metered fun n ↦ test (setting.withBudget n) cond :=
  (eval h cond).bind fun _ ↦ .lift fun _ _ ↦ rfl

/-- A `while` meets its threshold. The induction is on the steps that are left when a round
begins; the round takes one of them. -/
theorem whileTrue (h : setting.Untimed) (cond : Expr) {body : Stmt}
    (hbody : Metered fun n ↦ exec (setting.withBudget n) body) :
    Metered fun n ↦ (Task.loop (.whileTrue cond body)).perform (setting.withBudget n) := by
  refine ⟨fun n ↦ passage_progress.perform _ _, fun n m ↦ ?_⟩
  have hnext : Metered fun n ↦ (Loop.whileTrue cond body).next (setting.withBudget n) :=
    (test h cond).bind fun _ ↦ .ite (.pure _) (.pure _)
  induction hleft : n - m.steps using Nat.strongRecOn generalizing m with
  | _ left ih =>
    have hunroll :
        (fun n ↦ (Task.loop (.whileTrue cond body)).perform (setting.withBudget n)) = _ :=
      funext fun n ↦ Task.perform_loop _
    rw [hunroll]
    refine (hnext.meteredAt n m).bind (fun round m₁ hround ↦ ?_) fun n round ↦ ?_
    · obtain ⟨holds, m₂, htest, hpure⟩ := bind_eq_ok_iff.1 hround
      cases holds with
      | false =>
        cases hpure
        exact (Metered.pure _).meteredAt n m₁
      | true =>
        cases hpure
        have hlt := lt_steps_of_test htest
        refine (hbody.inBlock.meteredAt n m₁).bind (fun flow m₂ hrun ↦ ?_) fun n flow ↦ ?_
        · have hle := ((hbody.inBlock.progress n).of_ok hrun).1
          have hmaxSteps : (setting.withBudget n).limits.maxSteps = n := rfl
          split
          · exact ih (n - m₂.steps) (by omega) m₂ rfl
          · exact (Metered.pure _).meteredAt n m₂
        · exact .ite (passage_progress.perform _ _) (passage_progress.pure _)
    · cases round with
      | none => exact passage_progress.pure _
      | some round =>
        exact passage_progress.bind (passage_progress.perform _ _) fun _ ↦
          .ite (passage_progress.perform _ _) (passage_progress.pure _)

/-- A `foreach` takes a step for each of its items. -/
theorem forItems (h : setting.Untimed) (name : String) (type : DeclType) {body : Nat → Step Flow}
    (hbody : Metered body) (items : List Value) :
    Metered fun n ↦ forItems (setting.withBudget n) name type (body n) items := by
  induction items with
  | nil => exact .pure _
  | cons item rest ih =>
    refine (tick h).bind fun _ ↦
      (inBlock ((declare name type item).bind fun _ ↦ hbody)).bind fun flow ↦ ?_
    cases flow with
    | breakLoop => exact .pure _
    | returned v => exact .pure _
    | normal => exact ih
    | continueLoop => exact ih

mutual

theorem exec (h : setting.Untimed) : ∀ s, Metered fun n ↦ exec (setting.withBudget n) s
  | .declare _ type name init => by
    have hrest (v : Value) : Metered fun _ ↦
        (do Run.declare name.name type v; return Flow.normal : Step Flow) :=
      (declare name.name type v).bind fun _ ↦ .pure _
    refine (tick h).bind fun _ ↦ ?_
    cases init with
    | some init => exact (eval h init).bind hrest
    | none => exact (Metered.pure _).bind hrest
  | .assign _ root path op value =>
    (tick h).bind fun _ ↦ (assign h root.name path op value).bind fun _ ↦ .pure _
  | .expression _ value => (tick h).bind fun _ ↦ (eval h value).bind fun _ ↦ .pure _
  | .block _ body => (tick h).bind fun _ ↦ (execBlock h body).inBlock
  | .ifElse _ cond yes none => by
    have hyes := exec h yes
    exact (tick h).bind fun _ ↦ (eval h cond).bind fun _ ↦
      (Metered.lift fun _ _ ↦ rfl).bind fun _ ↦ .ite hyes.inBlock (.pure _)
  | .ifElse _ cond yes (some no) => by
    have hyes := exec h yes
    have hno := exec h no
    exact (tick h).bind fun _ ↦ (eval h cond).bind fun _ ↦
      (Metered.lift fun _ _ ↦ rfl).bind fun _ ↦ .ite hyes.inBlock hno.inBlock
  | .whileLoop _ cond body => by
    have hbody := exec h body
    exact (tick h).bind fun _ ↦ whileTrue h cond hbody
  | .forEach _ type binding items body => by
    have hbody := exec h body
    exact (tick h).bind fun _ ↦ (eval h items).bind fun _ ↦
      (Metered.lift fun _ _ ↦ rfl).bind fun items ↦ forItems h binding.name type hbody items
  | .returnWith _ (some value) => (tick h).bind fun _ ↦ (eval h value).bind fun _ ↦ .pure _
  | .returnWith _ none => (tick h).bind fun _ ↦ .pure _
  | .throwWith _ value => (tick h).bind fun _ ↦ (eval h value).bind fun _ ↦ .fail fun _ _ ↦ rfl
  | .breakLoop _ => (tick h).bind fun _ ↦ .pure _
  | .continueLoop _ => (tick h).bind fun _ ↦ .pure _
  | .empty _ => (tick h).bind fun _ ↦ .pure _

theorem execBlock (h : setting.Untimed) :
    ∀ ss, Metered fun n ↦ execBlock (setting.withBudget n) ss
  | [] => .pure _
  | s :: rest => by
    have hrest := execBlock h rest
    refine (exec h s).bind fun flow ↦ ?_
    cases flow with
    | normal => exact hrest
    | breakLoop => exact .pure _
    | continueLoop => exact .pure _
    | returned v => exact .pure _

end

theorem execAll (h : setting.Untimed) (ss : List Stmt) :
    Metered fun n ↦ execAll (setting.withBudget n) ss := by
  induction ss with
  | nil => exact .pure _
  | cons s rest ih =>
    refine (exec h s).bind fun flow ↦ ?_
    cases flow with
    | returned v => exact .pure _
    | normal => exact ih
    | breakLoop => exact ih
    | continueLoop => exact ih

theorem execProgram (h : setting.Untimed) (program : Program) :
    Metered fun n ↦ execProgram (setting.withBudget n) program := by
  refine (execAll h program.statements).bind fun v ↦ ?_
  cases v with
  | some v => exact .pure v
  | none =>
    dsimp only
    split
    · exact eval h _
    · exact .pure _

end Metered

/-! ### Runs -/

/-- What a run ends with, by the way in which the whole script ends. -/
def Ending.ofEnded : Ended Value → Ending
  | .ok v m => ⟨.ok (produced v), m⟩
  | .error halt m => ⟨.error halt, m⟩

theorem run_eq_ofEnded (setting : Setting) (program : Program) (outbox : Outbox) :
    run setting program outbox = .ofEnded (execProgram setting program (.start outbox)) := by
  rw [run]
  cases execProgram setting program (.start outbox) <;> rfl

@[simp]
theorem machine_ofEnded (r : Ended Value) : (Ending.ofEnded r).machine = after r := by
  cases r <;> rfl

theorem result_ofEnded_of_exhausted {n : Nat} {r : Ended Value} (h : Exhausted n r) :
    (Ending.ofEnded r).result = .error (.fault (.stepBudget n)) := by
  obtain ⟨m, rfl⟩ := h
  rfl

/-- The steps of a run that does not end for want of steps are the least budget under which it is
that run. Under a smaller budget it ends for want of steps, and its replies are the first of those
of the whole run. Under every budget the run ends: it has a derivation, which knows no bound on
rounds, and answers what that comes to. -/
theorem budget_threshold (setting : Setting) (program : Program) (outbox : Outbox) :
    (setting.Untimed → ∀ n full, run (setting.withBudget n) program outbox = full →
      full.result ≠ .error (.fault (.stepBudget n)) →
      full.machine.steps ≤ n ∧
      (∀ k, full.machine.steps ≤ k → run (setting.withBudget k) program outbox = full) ∧
      ∀ k, k < full.machine.steps → ∃ short, run (setting.withBudget k) program outbox = short ∧
        short.result = .error (.fault (.stepBudget k)) ∧
        short.machine.outbox.sent.toList <+: full.machine.outbox.sent.toList) ∧
    ∀ n, ∃ trace r, RunsOf (setting.withBudget n) program outbox trace r ∧
      run (setting.withBudget n) program outbox =
        conclude (setting.withBudget n) program.tail r := by
  constructor
  · rintro h n _ rfl hfull
    rw [run_eq_ofEnded] at hfull
    obtain ⟨hle, henough, hshort⟩ := (Metered.execProgram h program).meteredAt n (.start outbox)
      (Nat.zero_le n) fun hr ↦ hfull (result_ofEnded_of_exhausted hr)
    simp only [run_eq_ofEnded, machine_ofEnded]
    refine ⟨hle, fun k hk ↦ congrArg _ (henough k hk), fun k hk ↦ ⟨_, rfl, ?_⟩⟩
    obtain ⟨hexhausted, hprefix⟩ := hshort k (Nat.zero_le k) hk
    rw [machine_ofEnded]
    exact ⟨result_ofEnded_of_exhausted hexhausted, hprefix⟩
  · intro n
    obtain ⟨trace, r, hr⟩ := exists_runs (setting.withBudget n) program outbox
    exact ⟨trace, r, hr, hr.run_eq⟩

/-- The script `var i = 0; while (i < 2) { emitReply("x"); i += 1; }`. -/
def counting : Program where
  statements :=
    [.declare ⟨0, 10⟩ .var ⟨"i", ⟨4, 5⟩⟩ (some (.literal ⟨8, 9⟩ (.int 0))),
      .whileLoop ⟨11, 52⟩ (.binary ⟨18, 23⟩ .lt (.name ⟨18, 19⟩ "i") (.literal ⟨22, 23⟩ (.int 2)))
        (.block ⟨25, 52⟩
          [.expression ⟨27, 42⟩ (.call ⟨27, 41⟩ (.name ⟨27, 36⟩ "emitReply")
              [.literal ⟨37, 40⟩ (.string "x")]),
            .assign ⟨43, 50⟩ ⟨"i", ⟨43, 44⟩⟩ [] .add (.literal ⟨48, 49⟩ (.int 1))])]
  tail := none

/-- The two rounds of `counting` take 24 steps: 24 are enough, and 23 are not. -/
theorem budget_threshold_counting :
    ∃ setting : Setting, setting.Untimed ∧
      ∃ full, run (setting.withBudget 100) counting (.fresh true) = full ∧
        full.machine.steps = 24 ∧ full.machine.outbox.texts = ["x", "x"] ∧
        run (setting.withBudget 24) counting (.fresh true) = full ∧
        (run (setting.withBudget 23) counting (.fresh true)).result =
          .error (.fault (.stepBudget 23)) := by
  have huntimed : (Setting.untimed ⟨0, 1000, 10⟩).Untimed := ⟨fun _ ↦ rfl, rfl⟩
  have hok : (run ((Setting.untimed ⟨0, 1000, 10⟩).withBudget 100) counting
      (.fresh true)).result.isOk = true := by decide +kernel
  have hsteps : (run ((Setting.untimed ⟨0, 1000, 10⟩).withBudget 100) counting
      (.fresh true)).machine.steps = 24 := by decide +kernel
  obtain ⟨-, henough, hshort⟩ := (budget_threshold _ counting (.fresh true)).1 huntimed 100 _ rfl
    fun h ↦ by
      rw [h] at hok
      cases hok
  rw [hsteps] at henough hshort
  obtain ⟨_, rfl, hresult, -⟩ := hshort 23 (by decide)
  exact ⟨_, huntimed, _, rfl, hsteps, by decide +kernel, henough 24 (Nat.le_refl _), hresult⟩

end Snippet.Run
