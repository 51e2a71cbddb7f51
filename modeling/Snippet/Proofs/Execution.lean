import Snippet.Proofs.Computation

/-!
# Executions

What a run does, as a relation. `Runs` relates a task and the state in which it is taken up to
the way in which it ends, and to everything that is executed on the way, in the order in which it
is taken up. Nothing bounds the rounds of a `while` here: a loop that goes on for ever has no
derivation.

* `exists_runs`: every script has a derivation under every budget, and what it ends with is what
  `run` answers. So the bound on rounds in `repeatWhile` never shows, and every run ends.
* `Reaches` are the states of a run, at the granularity of steps and expressions.

The shape decision is that a statement first does what it has to do itself (`begin`) and names a
task that is left. Only that task may be long; the rules for blocks, branches and both kinds of
loop are then rules for lists of statements and for rounds.
-/

namespace Snippet.Run

open Script (DeclType Expr Program Stmt)

variable {setting : Setting} {m m' : Machine}

/-- A loop with the rounds that are to come. -/
inductive Loop where
  | whileTrue (cond : Expr) (body : Stmt)
  | forEach (name : String) (type : DeclType) (items : List Value) (body : Stmt)

/-- Something that a run has to do. -/
inductive Task where
  | stmt (s : Stmt)
  /-- The rest of the statements of a block, or of those of the script at the `top`. -/
  | list (top : Bool) (rest : List Stmt)
  /-- A task in a block of its own. -/
  | inner (t : Task)
  /-- A loop body behind the declaration of the loop variable. -/
  | bound (name : String) (type : DeclType) (item : Value) (body : Stmt)
  | loop (l : Loop)
  | done (flow : Flow)

/-- What a statement does itself, and the task that it leaves. -/
def begin (setting : Setting) : Stmt → Step Task
  | .block _ body => do
    tick setting
    return .inner (.list false body)
  | .ifElse _ cond yes no => do
    tick setting
    if ← lift (truth "if" (← eval setting cond)) then return .inner (.stmt yes)
    else
      match no with
      | some no => return .inner (.stmt no)
      | none => return .done .normal
  | .whileLoop _ cond body => do
    tick setting
    return .loop (.whileTrue cond body)
  | .forEach _ type binding items body => do
    tick setting
    let items ← lift (itemsOf setting.limits.maxElements (← eval setting items))
    return .loop (.forEach binding.name type items body)
  | s => do return .done (← exec setting s)

/-- The condition of a `while`. -/
def test (setting : Setting) (cond : Expr) : Step Bool := do
  lift (truth "while" (← eval setting cond))

/-- What leads to the next round of a loop: the task of that round, and the loop behind it. -/
def Loop.next (setting : Setting) : Loop → Step (Option (Task × Loop))
  | .whileTrue cond body => do
    if ← test setting cond then return some (.inner (.stmt body), .whileTrue cond body)
    else return none
  | .forEach _ _ [] _ => return none
  | .forEach name type (item :: rest) body => do
    tick setting
    return some (.inner (.bound name type item body), .forEach name type rest body)

namespace Flow

/-- Whether the next statement of a list is executed behind a statement that ends so. -/
def goesOn (top : Bool) : Flow → Bool
  | normal => true
  | returned _ => false
  | _ => top

/-- Whether a loop goes on behind a round that ends so. -/
def repeats : Flow → Bool
  | normal | continueLoop => true
  | _ => false

/-- How a loop ends of which the last round ends so. -/
def behindLoop : Flow → Flow
  | returned v => returned v
  | _ => normal

end Flow

/-- A task that has been taken up, and how it ended. -/
structure Execution where
  task : Task
  start : Machine
  result : Ended Flow

/-- A task, taken up in a state, leads through executions to an end. -/
inductive Runs (setting : Setting) : Task → Machine → List Execution → Ended Flow → Prop
  | done {flow m} : Runs setting (.done flow) m [⟨.done flow, m, .ok flow m⟩] (.ok flow m)
  | stmt {s t m m₁ trace r} (hbegin : begin setting s m = .ok t m₁)
      (h : Runs setting t m₁ trace r) : Runs setting (.stmt s) m (⟨.stmt s, m, r⟩ :: trace) r
  | stmtHalts {s m m₁ halt} (hbegin : begin setting s m = .error halt m₁) :
      Runs setting (.stmt s) m [⟨.stmt s, m, .error halt m₁⟩] (.error halt m₁)
  | inner {t m trace r} (h : Runs setting t m.enter trace r) :
      Runs setting (.inner t) m (⟨.inner t, m, leaving r⟩ :: trace) (leaving r)
  | bound {name type item body m m₁ trace r} (hdeclare : declare name type item m = .ok () m₁)
      (h : Runs setting (.stmt body) m₁ trace r) :
      Runs setting (.bound name type item body) m (⟨.bound name type item body, m, r⟩ :: trace) r
  | boundHalts {name type item body m m₁ halt}
      (hdeclare : declare name type item m = .error halt m₁) :
      Runs setting (.bound name type item body) m
        [⟨.bound name type item body, m, .error halt m₁⟩] (.error halt m₁)
  | listEnds {top m} :
      Runs setting (.list top []) m [⟨.list top [], m, .ok .normal m⟩] (.ok .normal m)
  | listNext {top s rest m m₁ flow trace trace' r}
      (h : Runs setting (.stmt s) m trace (.ok flow m₁)) (hflow : flow.goesOn top = true)
      (h' : Runs setting (.list top rest) m₁ trace' r) :
      Runs setting (.list top (s :: rest)) m
        (⟨.list top (s :: rest), m, r⟩ :: (trace ++ trace')) r
  | listLeft {top s rest m m₁ flow trace}
      (h : Runs setting (.stmt s) m trace (.ok flow m₁)) (hflow : flow.goesOn top = false) :
      Runs setting (.list top (s :: rest)) m
        (⟨.list top (s :: rest), m, .ok flow m₁⟩ :: trace) (.ok flow m₁)
  | listHalts {top s rest m m₁ halt trace}
      (h : Runs setting (.stmt s) m trace (.error halt m₁)) :
      Runs setting (.list top (s :: rest)) m
        (⟨.list top (s :: rest), m, .error halt m₁⟩ :: trace) (.error halt m₁)
  | loopEnds {l m m₁} (hnext : l.next setting m = .ok none m₁) :
      Runs setting (.loop l) m [⟨.loop l, m, .ok .normal m₁⟩] (.ok .normal m₁)
  | loopHalts {l m m₁ halt} (hnext : l.next setting m = .error halt m₁) :
      Runs setting (.loop l) m [⟨.loop l, m, .error halt m₁⟩] (.error halt m₁)
  | loopNext {l l' t m m₁ m₂ flow trace trace' r} (hnext : l.next setting m = .ok (some (t, l')) m₁)
      (h : Runs setting t m₁ trace (.ok flow m₂)) (hflow : flow.repeats = true)
      (h' : Runs setting (.loop l') m₂ trace' r) :
      Runs setting (.loop l) m (⟨.loop l, m, r⟩ :: (trace ++ trace')) r
  | loopLeft {l l' t m m₁ m₂ flow trace} (hnext : l.next setting m = .ok (some (t, l')) m₁)
      (h : Runs setting t m₁ trace (.ok flow m₂)) (hflow : flow.repeats = false) :
      Runs setting (.loop l) m (⟨.loop l, m, .ok flow.behindLoop m₂⟩ :: trace)
        (.ok flow.behindLoop m₂)
  | loopBroken {l l' t m m₁ m₂ halt trace} (hnext : l.next setting m = .ok (some (t, l')) m₁)
      (h : Runs setting t m₁ trace (.error halt m₂)) :
      Runs setting (.loop l) m (⟨.loop l, m, .error halt m₂⟩ :: trace) (.error halt m₂)

/-! ### What a task comes to -/

/-- Executes statements until one of them does not let the list go on. -/
def execList (setting : Setting) (top : Bool) : List Stmt → Step Flow
  | [] => return .normal
  | s :: rest => do
    let flow ← exec setting s
    if flow.goesOn top then execList setting top rest else return flow

theorem execBlock_eq_execList (ss : List Stmt) :
    execBlock setting ss = execList setting false ss := by
  induction ss with
  | nil => rfl
  | cons s rest ih =>
    show (exec setting s >>= fun flow ↦ _) = exec setting s >>= _
    congr 1
    funext flow
    cases flow with
    | normal => exact ih
    | _ => rfl

/-- The script as a whole gives the value that its list of statements returns. -/
theorem execAll_apply (ss : List Stmt) (m : Machine) :
    execAll setting ss m =
      match execList setting true ss m with
      | .ok (.returned v) m => .ok (some v) m
      | .ok _ m => .ok none m
      | .error halt m => .error halt m := by
  induction ss generalizing m with
  | nil => rfl
  | cons s rest ih =>
    rw [execAll, execList, bind_apply, bind_apply]
    rcases exec setting s m with ⟨flow, m₁⟩ | ⟨halt, m₁⟩
    · cases flow with
      | returned v => rfl
      | normal => exact ih m₁
      | breakLoop => exact ih m₁
      | continueLoop => exact ih m₁
    · rfl

namespace Loop

/-- Runs a loop. The rounds of a `while` are bounded by what is left of the budget. -/
def perform (setting : Setting) : Loop → Step Flow
  | whileTrue cond body => fun m ↦
    repeatWhile setting (test setting cond) (inBlock (exec setting body))
      (setting.limits.maxSteps - m.steps + 1) m
  | forEach name type items body => forItems setting name type (exec setting body) items

end Loop

/-- Does a task. -/
def Task.perform (setting : Setting) : Task → Step Flow
  | .done flow => return flow
  | .stmt s => exec setting s
  | .list top rest => execList setting top rest
  | .inner t => inBlock (t.perform setting)
  | .bound name type item body => do
    declare name type item
    exec setting body
  | .loop l => l.perform setting

/-- Doing a task keeps every passage. -/
theorem Passage.perform {R : Machine → Machine → Prop} (hR : Passage R) (setting : Setting) :
    ∀ t : Task, Moves R (t.perform setting)
  | .done _ => hR.pure _
  | .stmt s => hR.exec setting s
  | .list top rest => by
    show Moves R (execList setting top rest)
    induction rest with
    | nil => exact hR.pure _
    | cons s rest ih => exact hR.bind (hR.exec setting s) fun _ ↦ .ite ih (hR.pure _)
  | .inner t => hR.inBlock (perform hR setting t)
  | .bound _ _ _ body => hR.bind (hR.declare' _ _ _) fun _ ↦ hR.exec setting body
  | .loop (.whileTrue _ body) => fun m ↦
    hR.repeatWhile setting (hR.bind (hR.eval setting _) fun _ ↦ hR.lift _)
      (hR.inBlock (hR.exec setting body)) _ m
  | .loop (.forEach name type items body) =>
    hR.forItems' setting name type (hR.exec setting body) items

/-- A statement does what it has to do itself and then the task that it leaves. -/
theorem Task.perform_stmt (s : Stmt) :
    (Task.stmt s).perform setting = begin setting s >>= Task.perform setting := by
  show exec setting s = _
  have hdone (x : Step Flow) : (do return Task.done (← x)) >>= Task.perform setting = x := by
    rw [bind_assoc]
    exact bind_pure x
  cases s with
  | block _ body =>
    show (do tick setting; inBlock (execBlock setting body)) = _
    rw [execBlock_eq_execList, begin, bind_assoc]
    rfl
  | ifElse _ cond yes no =>
    rw [exec.eq_def, begin.eq_def]
    simp only [bind_assoc]
    congr 1
    funext _
    congr 1
    funext v
    congr 1
    funext holds
    cases holds with
    | true => rfl
    | false => cases no <;> rfl
  | whileLoop _ cond body =>
    rw [exec.eq_def, begin.eq_def]
    simp only [bind_assoc]
    rfl
  | forEach _ type binding items body =>
    rw [exec.eq_def, begin.eq_def]
    simp only [bind_assoc]
    rfl
  | _ => exact (hdone _).symm

/-- The tasks that a statement may leave, where it leads from `m` to `m'` itself. -/
inductive Begun (setting : Setting) (m m' : Machine) : Stmt → Task → Prop
  | done {s flow} : Begun setting m m' s (.done flow)
  | block {span body} : Begun setting m m' (.block span body) (.inner (.list false body))
  | yes {span cond yes no} : Begun setting m m' (.ifElse span cond yes no) (.inner (.stmt yes))
  | no {span cond yes no} :
      Begun setting m m' (.ifElse span cond yes (some no)) (.inner (.stmt no))
  | whileLoop {span cond body} :
      Begun setting m m' (.whileLoop span cond body) (.loop (.whileTrue cond body))
  | forEach {span type binding e body v items} (heval : eval setting e m.ticked = .ok v m')
      (hitems : itemsOf setting.limits.maxElements v = .ok items) :
      Begun setting m m' (.forEach span type binding e body)
        (.loop (.forEach binding.name type items body))

theorem begun_of_begin {s : Stmt} {t : Task} (h : begin setting s m = .ok t m') :
    Begun setting m m' s t := by
  have hdone {s : Stmt} {x : Step Flow} (h : (do return .done (← x) : Step Task) m = .ok t m') :
      Begun setting m m' s t := by
    obtain ⟨_, _, -, hpure⟩ := bind_eq_ok_iff.1 h
    cases hpure
    exact .done
  cases s with
  | block _ body =>
    obtain ⟨_, _, -, hpure⟩ := bind_eq_ok_iff.1 h
    cases hpure
    exact .block
  | ifElse _ cond yes no =>
    rw [begin.eq_def] at h
    obtain ⟨_, _, -, h⟩ := bind_eq_ok_iff.1 h
    obtain ⟨_, _, -, h⟩ := bind_eq_ok_iff.1 h
    obtain ⟨holds, _, -, h⟩ := bind_eq_ok_iff.1 h
    cases holds with
    | true =>
      cases h
      exact .yes
    | false =>
      cases no with
      | none =>
        cases h
        exact .done
      | some no =>
        cases h
        exact .no
  | whileLoop _ cond body =>
    obtain ⟨_, _, -, hpure⟩ := bind_eq_ok_iff.1 h
    cases hpure
    exact .whileLoop
  | forEach _ type binding items body =>
    replace h := ok_of_tick h
    obtain ⟨v, _, heval, h⟩ := bind_eq_ok_iff.1 h
    obtain ⟨items, _, hlift, hpure⟩ := bind_eq_ok_iff.1 h
    obtain ⟨hitems, rfl⟩ := lift_eq_ok_iff.1 hlift
    cases hpure
    exact .forEach heval hitems
  | _ => exact hdone h

/-! ### Rounds -/

/-- A condition that has a value has cost a step of the budget. -/
theorem lt_steps_of_test {cond : Expr} {holds : Bool} (h : test setting cond m = .ok holds m') :
    m.steps < setting.limits.maxSteps ∧ m.steps < m'.steps := by
  rw [test, bind_eq_ok_iff] at h
  obtain ⟨v, m₁, heval, hlift⟩ := h
  obtain ⟨-, rfl⟩ := lift_eq_ok_iff.1 hlift
  exact lt_steps_of_eval heval

/-- A round takes a step off the budget, so more rounds than the budget has steps are as good as
any number of them. -/
theorem repeatWhile_eq_of_lt {cond : Expr} {body : Step Flow} (hbody : Moves Progress body)
    (rounds rounds' : Nat) (h : setting.limits.maxSteps - m.steps < rounds)
    (h' : setting.limits.maxSteps - m.steps < rounds') :
    repeatWhile setting (test setting cond) body rounds m =
      repeatWhile setting (test setting cond) body rounds' m := by
  induction rounds generalizing m rounds' with
  | zero => exact absurd h (Nat.not_lt_zero _)
  | succ rounds ih =>
    obtain ⟨rounds', rfl⟩ : ∃ k, rounds' = k + 1 := ⟨rounds' - 1, by omega⟩
    refine bind_apply_congr fun holds m₁ htest ↦ ?_
    have hlt := lt_steps_of_test htest
    cases holds with
    | false => rfl
    | true =>
      refine bind_apply_congr fun flow m₂ hrun ↦ ?_
      have hle := (hbody.of_ok hrun).1
      have heq : repeatWhile _ _ _ rounds m₂ = repeatWhile _ _ _ rounds' m₂ :=
        ih rounds' (by omega) (by omega)
      cases flow with
      | breakLoop => rfl
      | returned v => rfl
      | normal => exact heq
      | continueLoop => exact heq

/-- The rounds that a loop may lead to, each with the loop that is left behind it. -/
inductive Loop.Round : Loop → Task → Loop → Prop
  | whileTrue {cond body} :
      Round (.whileTrue cond body) (.inner (.stmt body)) (.whileTrue cond body)
  | forEach {name type item rest body} :
      Round (.forEach name type (item :: rest) body) (.inner (.bound name type item body))
        (.forEach name type rest body)

theorem round_of_next {l l' : Loop} {t : Task} (h : l.next setting m = .ok (some (t, l')) m') :
    l.Round t l' := by
  cases l with
  | whileTrue cond body =>
    obtain ⟨holds, _, -, hpure⟩ := bind_eq_ok_iff.1 h
    cases holds with
    | true =>
      cases hpure
      exact .whileTrue
    | false => cases hpure
  | forEach name type items body =>
    cases items with
    | nil => cases h
    | cons item rest =>
      obtain ⟨_, _, -, hpure⟩ := bind_eq_ok_iff.1 h
      cases hpure
      exact .forEach

/-- A loop leads to its next round, and that to the rest of the loop. -/
theorem Task.perform_loop (l : Loop) :
    (Task.loop l).perform setting = l.next setting >>= fun
      | none => return .normal
      | some (t, l') => do
        let flow ← t.perform setting
        if flow.repeats then (Task.loop l').perform setting else return flow.behindLoop := by
  cases l with
  | forEach name type items body =>
    cases items with
    | nil => rfl
    | cons item rest =>
      rw [Loop.next, bind_assoc]
      refine congrArg (tick setting >>= ·) (funext fun _ ↦ ?_)
      refine congrArg (inBlock _ >>= ·) (funext fun flow ↦ ?_)
      cases flow <;> rfl
  | whileTrue cond body =>
    funext m
    show repeatWhile _ _ _ (_ + 1) m = _
    rw [repeatWhile, Loop.next, bind_assoc]
    refine bind_apply_congr fun holds m₁ htest ↦ ?_
    have hlt := lt_steps_of_test htest
    cases holds with
    | false => rfl
    | true =>
      refine bind_apply_congr fun flow m₂ hrun ↦ ?_
      have hprogress := passage_progress.inBlock (passage_progress.exec setting body)
      have hle := (hprogress.of_ok hrun).1
      have heq : repeatWhile _ (test setting cond) (inBlock (exec setting body)) _ m₂ = _ :=
        repeatWhile_eq_of_lt hprogress (setting.limits.maxSteps - m.steps)
          (setting.limits.maxSteps - m₂.steps + 1) (by omega) (by omega)
      cases flow with
      | breakLoop => rfl
      | returned v => rfl
      | normal => exact heq
      | continueLoop => exact heq

/-! ### The relation and the function -/

theorem Task.perform_list_cons (top : Bool) (s : Stmt) (rest : List Stmt) :
    (Task.list top (s :: rest)).perform setting =
      (Task.stmt s).perform setting >>= fun flow ↦
        if flow.goesOn top then (Task.list top rest).perform setting else return flow :=
  rfl

theorem Task.perform_bound (name : String) (type : DeclType) (item : Value) (body : Stmt) :
    (Task.bound name type item body).perform setting =
      declare name type item >>= fun _ ↦ (Task.stmt body).perform setting :=
  rfl

/-- What a derivation ends with is what doing its task comes to. -/
theorem Runs.result_eq {t : Task} {trace : List Execution} {r : Ended Flow}
    (h : Runs setting t m trace r) : r = t.perform setting m := by
  induction h with
  | done => rfl
  | stmt hbegin _ ih => rw [Task.perform_stmt, bind_of_ok hbegin, ih]
  | stmtHalts hbegin => rw [Task.perform_stmt, bind_of_error hbegin]
  | inner _ ih =>
    rw [ih]
    exact (inBlock_apply _ _).symm
  | bound hdeclare _ ih => rw [Task.perform_bound, bind_of_ok hdeclare, ih]
  | boundHalts hdeclare => rw [Task.perform_bound, bind_of_error hdeclare]
  | listEnds => rfl
  | listNext _ hflow _ ih ih' =>
    rw [Task.perform_list_cons, bind_of_ok ih.symm, if_pos hflow, ih']
  | listLeft _ hflow ih =>
    rw [Task.perform_list_cons, bind_of_ok ih.symm, if_neg (Bool.eq_false_iff.1 hflow)]
    rfl
  | listHalts _ ih => rw [Task.perform_list_cons, bind_of_error ih.symm]
  | loopEnds hnext =>
    rw [Task.perform_loop, bind_of_ok hnext]
    rfl
  | loopHalts hnext => rw [Task.perform_loop, bind_of_error hnext]
  | loopNext hnext _ hflow _ ih ih' =>
    rw [Task.perform_loop, bind_of_ok hnext]
    show _ = (Task.perform setting _ >>= _) _
    rw [bind_of_ok ih.symm, if_pos hflow, ih']
  | loopLeft hnext _ hflow ih =>
    rw [Task.perform_loop, bind_of_ok hnext]
    show _ = (Task.perform setting _ >>= _) _
    rw [bind_of_ok ih.symm, if_neg (Bool.eq_false_iff.1 hflow)]
    rfl
  | loopBroken hnext _ ih =>
    rw [Task.perform_loop, bind_of_ok hnext]
    show _ = (Task.perform setting _ >>= _) _
    rw [bind_of_error ih.symm]

/-- Whatever is executed on the way has a derivation of its own, with nothing on its way that is
not on the whole way. -/
theorem Runs.part_of_mem {t : Task} {trace : List Execution} {r : Ended Flow}
    (h : Runs setting t m trace r) {e : Execution} (he : e ∈ trace) :
    ∃ trace', trace' ⊆ trace ∧ Runs setting e.task e.start trace' e.result := by
  have hself {trace : List Execution} : trace ⊆ trace := fun _ hx ↦ hx
  have hmono {e : Execution} {part trace : List Execution} (hpart : part ⊆ trace)
      (h : ∃ trace', trace' ⊆ part ∧ Runs setting e.task e.start trace' e.result) :
      ∃ trace', trace' ⊆ trace ∧ Runs setting e.task e.start trace' e.result :=
    h.imp fun _ ↦ And.imp_left fun hsubset _ hx ↦ hpart (hsubset hx)
  have hcons {first e : Execution} {trace : List Execution} :=
    @hmono e trace (first :: trace) (List.subset_cons_self ..)
  induction h with
  | done =>
    obtain rfl := List.mem_singleton.1 he
    exact ⟨_, hself, .done⟩
  | stmt hbegin h ih =>
    obtain rfl | he := List.mem_cons.1 he
    · exact ⟨_, hself, .stmt hbegin h⟩
    · exact hcons (ih he)
  | stmtHalts hbegin =>
    obtain rfl := List.mem_singleton.1 he
    exact ⟨_, hself, .stmtHalts hbegin⟩
  | inner h ih =>
    obtain rfl | he := List.mem_cons.1 he
    · exact ⟨_, hself, .inner h⟩
    · exact hcons (ih he)
  | bound hdeclare h ih =>
    obtain rfl | he := List.mem_cons.1 he
    · exact ⟨_, hself, .bound hdeclare h⟩
    · exact hcons (ih he)
  | boundHalts hdeclare =>
    obtain rfl := List.mem_singleton.1 he
    exact ⟨_, hself, .boundHalts hdeclare⟩
  | listEnds =>
    obtain rfl := List.mem_singleton.1 he
    exact ⟨_, hself, .listEnds⟩
  | listNext h hflow h' ih ih' =>
    obtain rfl | he := List.mem_cons.1 he
    · exact ⟨_, hself, .listNext h hflow h'⟩
    · exact hcons ((List.mem_append.1 he).elim
        (fun he ↦ hmono (List.subset_append_left ..) (ih he))
        fun he ↦ hmono (List.subset_append_right ..) (ih' he))
  | listLeft h hflow ih =>
    obtain rfl | he := List.mem_cons.1 he
    · exact ⟨_, hself, .listLeft h hflow⟩
    · exact hcons (ih he)
  | listHalts h ih =>
    obtain rfl | he := List.mem_cons.1 he
    · exact ⟨_, hself, .listHalts h⟩
    · exact hcons (ih he)
  | loopEnds hnext =>
    obtain rfl := List.mem_singleton.1 he
    exact ⟨_, hself, .loopEnds hnext⟩
  | loopHalts hnext =>
    obtain rfl := List.mem_singleton.1 he
    exact ⟨_, hself, .loopHalts hnext⟩
  | loopNext hnext h hflow h' ih ih' =>
    obtain rfl | he := List.mem_cons.1 he
    · exact ⟨_, hself, .loopNext hnext h hflow h'⟩
    · exact hcons ((List.mem_append.1 he).elim
        (fun he ↦ hmono (List.subset_append_left ..) (ih he))
        fun he ↦ hmono (List.subset_append_right ..) (ih' he))
  | loopLeft hnext h hflow ih =>
    obtain rfl | he := List.mem_cons.1 he
    · exact ⟨_, hself, .loopLeft hnext h hflow⟩
    · exact hcons (ih he)
  | loopBroken hnext h ih =>
    obtain rfl | he := List.mem_cons.1 he
    · exact ⟨_, hself, .loopBroken hnext h⟩
    · exact hcons (ih he)

/-- Whatever is executed on the way has a derivation of its own. -/
theorem Runs.of_mem {t : Task} {trace : List Execution} {r : Ended Flow}
    (h : Runs setting t m trace r) {e : Execution} (he : e ∈ trace) :
    ∃ trace', Runs setting e.task e.start trace' e.result :=
  (h.part_of_mem he).imp fun _ ↦ And.right

/-- What halts on the way halts the whole. -/
theorem Runs.halts_of_mem {t : Task} {trace : List Execution} {r : Ended Flow}
    (h : Runs setting t m trace r) {e : Execution} (he : e ∈ trace) {halt : Halt} {m₁ : Machine}
    (hhalt : e.result = .error halt m₁) : ∃ m₂, r = .error halt m₂ := by
  -- the record of the task itself comes first
  have hcons {t m trace} {r : Ended Flow} (he : e ∈ (⟨t, m, r⟩ : Execution) :: trace)
      (h : e ∈ trace → ∃ m₂, r = .error halt m₂) : ∃ m₂, r = .error halt m₂ := by
    obtain rfl | he := List.mem_cons.1 he
    · exact ⟨m₁, hhalt⟩
    · exact h he
  have hok {flow : Flow} {m : Machine} {P : Prop}
      (h : ∃ m₂, (.ok flow m : Ended Flow) = .error halt m₂) : P :=
    nomatch h.choose_spec
  induction h with
  | done => exact hcons he nofun
  | stmt _ _ ih => exact hcons he ih
  | stmtHalts _ => exact hcons he nofun
  | inner _ ih =>
    refine hcons he fun he ↦ ?_
    obtain ⟨m₂, rfl⟩ := ih he
    exact ⟨m₂.leave, rfl⟩
  | bound _ _ ih => exact hcons he ih
  | boundHalts _ => exact hcons he nofun
  | listEnds => exact hcons he nofun
  | listNext _ _ _ ih ih' =>
    exact hcons he fun he ↦ (List.mem_append.1 he).elim (fun he ↦ hok (ih he)) ih'
  | listLeft _ _ ih => exact hcons he fun he ↦ hok (ih he)
  | listHalts _ ih =>
    refine hcons he fun he ↦ ?_
    obtain ⟨m₂, heq⟩ := ih he
    cases heq
    exact ⟨_, rfl⟩
  | loopEnds _ => exact hcons he nofun
  | loopHalts _ => exact hcons he nofun
  | loopNext _ _ _ _ ih ih' =>
    exact hcons he fun he ↦ (List.mem_append.1 he).elim (fun he ↦ hok (ih he)) ih'
  | loopLeft _ _ _ ih => exact hcons he fun he ↦ hok (ih he)
  | loopBroken _ _ ih =>
    refine hcons he fun he ↦ ?_
    obtain ⟨m₂, heq⟩ := ih he
    cases heq
    exact ⟨_, rfl⟩

/-- A task has a derivation from every state. -/
def Ends (setting : Setting) (t : Task) : Prop :=
  ∀ m, ∃ trace r, Runs setting t m trace r

namespace Ends

variable {s body : Stmt} {t : Task}

theorem stmt (h : ∀ m t m', begin setting s m = .ok t m' → Ends setting t) :
    Ends setting (.stmt s) := by
  intro m
  rcases hbegin : begin setting s m with ⟨t, m₁⟩ | ⟨halt, m₁⟩
  · obtain ⟨trace, r, hrun⟩ := h m t m₁ hbegin m₁
    exact ⟨_, r, .stmt hbegin hrun⟩
  · exact ⟨_, _, .stmtHalts hbegin⟩

theorem done (flow : Flow) : Ends setting (.done flow) :=
  fun _ ↦ ⟨_, _, .done⟩

theorem inner (h : Ends setting t) : Ends setting (.inner t) := fun m ↦ by
  obtain ⟨trace, r, hrun⟩ := h m.enter
  exact ⟨_, _, .inner hrun⟩

theorem bound (name : String) (type : DeclType) (item : Value) (h : Ends setting (.stmt body)) :
    Ends setting (.bound name type item body) := by
  intro m
  rcases hdeclare : declare name type item m with ⟨⟨⟩, m₁⟩ | ⟨halt, m₁⟩
  · obtain ⟨trace, r, hrun⟩ := h m₁
    exact ⟨_, r, .bound hdeclare hrun⟩
  · exact ⟨_, _, .boundHalts hdeclare⟩

theorem list (top : Bool) {ss : List Stmt} (h : ∀ s ∈ ss, Ends setting (.stmt s)) :
    Ends setting (.list top ss) := by
  induction ss with
  | nil => exact fun m ↦ ⟨_, _, .listEnds⟩
  | cons s rest ih =>
    intro m
    obtain ⟨trace, flow | halt, hrun⟩ := h s (.head _) m
    · rename_i m₁
      obtain ⟨trace', r, hrest⟩ := ih (fun s hs ↦ h s (.tail _ hs)) m₁
      cases hflow : flow.goesOn top with
      | true => exact ⟨_, _, .listNext hrun hflow hrest⟩
      | false => exact ⟨_, _, .listLeft hrun hflow⟩
    · exact ⟨_, _, .listHalts hrun⟩

/-- A loop ends if its next round does, and what is left of it behind that round. -/
theorem loop_of_next {l : Loop}
    (h : ∀ t l' m₁, l.next setting m = .ok (some (t, l')) m₁ →
      (∃ trace r, Runs setting t m₁ trace r) ∧
        ∀ trace flow m₂, Runs setting t m₁ trace (.ok flow m₂) →
          ∃ trace r, Runs setting (.loop l') m₂ trace r) :
    ∃ trace r, Runs setting (.loop l) m trace r := by
  rcases hnext : l.next setting m with ⟨_ | ⟨t, l'⟩, m₁⟩ | ⟨halt, m₁⟩
  · exact ⟨_, _, .loopEnds hnext⟩
  · obtain ⟨⟨trace, flow | halt, hround⟩, hrest⟩ := h t l' m₁ hnext
    · rename_i m₂
      obtain ⟨trace', r, hrest⟩ := hrest trace flow m₂ hround
      cases hflow : flow.repeats with
      | true => exact ⟨_, _, .loopNext hnext hround hflow hrest⟩
      | false => exact ⟨_, _, .loopLeft hnext hround hflow⟩
    · exact ⟨_, _, .loopBroken hnext hround⟩
  · exact ⟨_, _, .loopHalts hnext⟩

theorem forEach (name : String) (type : DeclType) (items : List Value)
    (h : Ends setting (.stmt body)) : Ends setting (.loop (.forEach name type items body)) := by
  induction items with
  | nil => exact fun m ↦ ⟨_, _, .loopEnds rfl⟩
  | cons item rest ih =>
    refine fun m ↦ loop_of_next fun t l' m₁ hnext ↦ ?_
    obtain ⟨_, _, -, hpure⟩ := bind_eq_ok_iff.1 hnext
    cases hpure
    exact ⟨(h.bound name type item).inner m₁, fun _ _ m₂ _ ↦ ih m₂⟩

/-- The rounds of a `while` are at most as many as the budget has steps left. -/
theorem whileTrue (cond : Expr) (h : Ends setting (.stmt body)) :
    Ends setting (.loop (.whileTrue cond body)) := by
  intro m
  obtain ⟨left, hleft⟩ : ∃ n, setting.limits.maxSteps - m.steps ≤ n := ⟨_, Nat.le_refl _⟩
  induction left generalizing m with
  | zero =>
    refine loop_of_next fun t l' m₁ hnext ↦ ?_
    obtain ⟨_, _, htest, -⟩ := bind_eq_ok_iff.1 hnext
    have := (lt_steps_of_test htest).1
    omega
  | succ left ih =>
    refine loop_of_next fun t l' m₁ hnext ↦ ?_
    obtain ⟨holds, m₁', htest, hpure⟩ := bind_eq_ok_iff.1 hnext
    cases holds with
    | false => cases hpure
    | true =>
      cases hpure
      refine ⟨h.inner m₁, fun trace flow m₂ hround ↦ ih m₂ ?_⟩
      have hlt := lt_steps_of_test htest
      have hle := ((passage_progress.inBlock (passage_progress.exec setting body)).of_ok
        hround.result_eq.symm).1
      omega

mutual

/-- Every statement ends, from every state. -/
theorem of_stmt (setting : Setting) : ∀ s, Ends setting (.stmt s)
  | .block _ body => by
    have hbody := of_stmts setting body
    refine stmt fun m t m' hbegin ↦ ?_
    cases begun_of_begin hbegin with
    | done => exact done _
    | block => exact (list false hbody).inner
  | .ifElse _ _ yes none => by
    have hyes := of_stmt setting yes
    refine stmt fun m t m' hbegin ↦ ?_
    cases begun_of_begin hbegin with
    | done => exact done _
    | yes => exact hyes.inner
  | .ifElse _ _ yes (some no) => by
    have hyes := of_stmt setting yes
    have hno := of_stmt setting no
    refine stmt fun m t m' hbegin ↦ ?_
    cases begun_of_begin hbegin with
    | done => exact done _
    | yes => exact hyes.inner
    | no => exact hno.inner
  | .whileLoop _ cond body => by
    have hbody := of_stmt setting body
    refine stmt fun m t m' hbegin ↦ ?_
    cases begun_of_begin hbegin with
    | done => exact done _
    | whileLoop => exact whileTrue cond hbody
  | .forEach _ type binding _ body => by
    have hbody := of_stmt setting body
    refine stmt fun m t m' hbegin ↦ ?_
    cases begun_of_begin hbegin with
    | done => exact done _
    | forEach _ _ => exact forEach binding.name type _ hbody
  | .declare _ _ _ _ => stmt fun _ _ _ hbegin ↦ by cases begun_of_begin hbegin; exact done _
  | .assign _ _ _ _ _ => stmt fun _ _ _ hbegin ↦ by cases begun_of_begin hbegin; exact done _
  | .expression _ _ => stmt fun _ _ _ hbegin ↦ by cases begun_of_begin hbegin; exact done _
  | .returnWith _ _ => stmt fun _ _ _ hbegin ↦ by cases begun_of_begin hbegin; exact done _
  | .throwWith _ _ => stmt fun _ _ _ hbegin ↦ by cases begun_of_begin hbegin; exact done _
  | .breakLoop _ => stmt fun _ _ _ hbegin ↦ by cases begun_of_begin hbegin; exact done _
  | .continueLoop _ => stmt fun _ _ _ hbegin ↦ by cases begun_of_begin hbegin; exact done _
  | .empty _ => stmt fun _ _ _ hbegin ↦ by cases begun_of_begin hbegin; exact done _

/-- So does each statement of a list. -/
theorem of_stmts (setting : Setting) : ∀ ss : List Stmt, ∀ s ∈ ss, Ends setting (.stmt s)
  | [], _, hs => nomatch hs
  | s :: rest, s', hs => by
    have hs₀ := of_stmt setting s
    have hrest := of_stmts setting rest
    obtain rfl | hs := List.mem_cons.1 hs
    · exact hs₀
    · exact hrest s' hs

end

end Ends

/-! ### Runs of a script -/

/-- What a script ends with, by the way in which its list of statements ends. -/
def conclude (setting : Setting) (tail : Option Expr) : Ended Flow → Ending
  | .ok (.returned v) m => ⟨.ok (produced v), m⟩
  | .ok _ m =>
    match tail with
    | some e =>
      match eval setting e m with
      | .ok v m => ⟨.ok (produced v), m⟩
      | .error halt m => ⟨.error halt, m⟩
    | none => ⟨.ok none, m⟩
  | .error halt m => ⟨.error halt, m⟩

/-- What a script does behind its statements, by the way in which they end. -/
def atEnd (setting : Setting) (tail : Option Expr) : Flow → Step Value
  | .returned v => return v
  | _ => tail.elim (return .null) (eval setting)

/-- What a script ends with, by its last computation. -/
def ending : Ended Value → Ending
  | .ok v m => ⟨.ok (produced v), m⟩
  | .error halt m => ⟨.error halt, m⟩

theorem conclude_ok (setting : Setting) (tail : Option Expr) (flow : Flow) (m : Machine) :
    conclude setting tail (.ok flow m) = ending (atEnd setting tail flow m) := by
  have htail : conclude setting tail (.ok .normal m) = ending (atEnd setting tail .normal m) := by
    cases tail with
    | none => rfl
    | some e =>
      show (match eval setting e m with | .ok _ _ => _ | .error _ _ => _ : Ending) =
        ending (eval setting e m)
      cases eval setting e m <;> rfl
  cases flow with
  | returned v => rfl
  | normal => exact htail
  | breakLoop => exact htail
  | continueLoop => exact htail

theorem machine_ending (r : Ended Value) : (ending r).machine = after r := by
  cases r <;> rfl

/-- The end of a script keeps every course. -/
theorem Course.conclude {R : Machine → Machine → Prop} (hR : Course R) (setting : Setting)
    (tail : Option Expr) (r : Ended Flow) : R (after r) (conclude setting tail r).machine := by
  have hbehind : Moves R (atEnd setting tail .normal) := by
    cases tail with
    | none => exact hR.pure Value.null
    | some e => exact hR.eval setting e
  have hend (flow : Flow) : Moves R (atEnd setting tail flow) := by
    cases flow with
    | returned v => exact hR.pure v
    | _ => exact hbehind
  cases r with
  | error halt m => exact hR.refl m
  | ok flow m =>
    rw [conclude_ok, machine_ending]
    exact hend flow m

/-- The statements of a script, executed from a fresh state. -/
abbrev RunsOf (setting : Setting) (program : Program) (outbox : Outbox) :
    List Execution → Ended Flow → Prop :=
  Runs setting (.list true program.statements) (.start outbox)

theorem run_eq_conclude (program : Program) (outbox : Outbox) :
    run setting program outbox = conclude setting program.tail
      (execList setting true program.statements (.start outbox)) := by
  rw [run, execProgram, bind_apply, execAll_apply]
  have htail (m : Machine) :
      (match (match program.tail with
          | some e => eval setting e
          | none => return .null : Step Value) m with
        | .ok v m => (⟨.ok (produced v), m⟩ : Ending)
        | .error halt m => ⟨.error halt, m⟩) =
      conclude setting program.tail (.ok .normal m) := by
    cases htail : program.tail <;> rfl
  rcases execList setting true program.statements (.start outbox) with ⟨flow, m⟩ | ⟨halt, m⟩
  · cases flow with
    | returned v => rfl
    | normal => exact htail m
    | breakLoop => exact htail m
    | continueLoop => exact htail m
  · rfl

/-- What a run answers is what its executions come to. -/
theorem RunsOf.run_eq {program : Program} {outbox : Outbox} {trace : List Execution}
    {r : Ended Flow} (h : RunsOf setting program outbox trace r) :
    run setting program outbox = conclude setting program.tail r := by
  rw [run_eq_conclude, h.result_eq]
  rfl

/-- Every script has a derivation under every budget, so every run ends. -/
theorem exists_runs (setting : Setting) (program : Program) (outbox : Outbox) :
    ∃ trace r, RunsOf setting program outbox trace r :=
  Ends.list true (Ends.of_stmts setting program.statements) _

/-- The states of a run: those in which something is taken up or has ended, those to which a step
or an expression leads from one of them, and the last one. -/
inductive Reaches (setting : Setting) (program : Program) (outbox : Outbox) : Machine → Prop
  | start {trace r e} (h : RunsOf setting program outbox trace r) (he : e ∈ trace) :
      Reaches setting program outbox e.start
  | result {trace r e} (h : RunsOf setting program outbox trace r) (he : e ∈ trace) :
      Reaches setting program outbox (after e.result)
  | step {m : Machine} (h : Reaches setting program outbox m) :
      Reaches setting program outbox m.ticked
  | expression {m : Machine} (h : Reaches setting program outbox m) (e : Expr) :
      Reaches setting program outbox (after (eval setting e m))
  | final : Reaches setting program outbox (run setting program outbox).machine

/-- The expression behind the statements leaves the variables alone. -/
theorem scopes_conclude (tail : Option Expr) (r : Ended Flow) :
    (conclude setting tail r).machine.scopes = (after r).scopes :=
  course_scopes.conclude setting tail r

/-- A setting in which neither the clock nor the host ends a run. -/
def Setting.untimed (limits : Limits) : Setting where
  limits := limits
  context := .ofBot default none default default ""
  cancelled := false
  late _ := false

end Snippet.Run
