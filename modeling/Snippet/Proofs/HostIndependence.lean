import Snippet.Proofs.Parallel
import Snippet.Proofs.ReportSize

/-!
# What a run sees of its host

A script asks its host for the invoker and for the accent colour, and for nothing else. So its run
depends on no other part of the context, and not on what becomes of its replies: contexts that agree
on these two answers give runs that count the same steps, execute the same tasks and end in the same
way, whether or not the reply channels accept messages (`run_alike`).

The channel is told from the calls of the run, which are the same as well: behind the run it holds
the texts of all calls of `emitReply` in their order, or, if it refuses messages, what it held
before.
-/

namespace Snippet

/-- What has become of a channel to which some texts have been sent. -/
structure Outbox.Delivered (o : Outbox) (texts : List String) (o' : Outbox) : Prop where
  accepted : o.accepts = true → o'.sent.toList = o.sent.toList ++ texts.map Message.ofText
  refused : o.accepts = false → o' = o

theorem Outbox.delivered_emitAll (o : Outbox) (texts : List String) :
    o.Delivered texts (o.emitAll texts) where
  accepted h := emitAll_of_accepts h texts
  refused h := emitAll_of_refuses h texts

namespace Run

open Script (Builtin Program)

variable {setting : Setting} {c : Context} {program : Program} {outbox outbox' : Outbox}
  {trace : List Execution} {r : Ended Flow} {made : List Call}

/-- Two states that differ in their reply channel only. -/
structure SameUpToReplies (m m' : Machine) : Prop where
  steps : m'.steps = m.steps
  scopes : m'.scopes = m.scopes

/-- Nothing that a run does depends on the reply channel. -/
theorem twins_sameUpToReplies : Twins (fun _ ↦ True) fun _ ↦ SameUpToReplies where
  steps h := h.steps
  find h _ := by rw [h.scopes]
  type name h := by rw [h.scopes]
  tick h := ⟨congrArg (· + 1) h.steps, h.scopes⟩
  emit _ h := ⟨h.steps, h.scopes⟩
  store name value h := ⟨h.steps, congrArg (setSlot name value) h.scopes⟩
  declare slot h := ⟨h.steps, congrArg (addSlot slot) h.scopes⟩
  enter h := ⟨h.steps, congrArg ([] :: ·) h.scopes⟩
  leave h := ⟨h.steps, congrArg List.tail h.scopes⟩

theorem abreast_of_alike (h : setting.context.Alike c) :
    Abreast (fun _ ↦ True) (fun _ ↦ SameUpToReplies) setting { setting with context := c } where
  twins := twins_sameUpToReplies
  limits := rfl
  cancelled := rfl
  late := rfl
  context := h

/-- A run goes on beside one in another context and with another channel. -/
theorem RunsOf.alike (h : setting.context.Alike c) (hrun : RunsOf setting program outbox trace r)
    (outbox' : Outbox) :
    ∃ trace' r', RunsOf { setting with context := c } program outbox' trace' r' ∧
      trace'.map Execution.stamp = trace.map Execution.stamp ∧
      EndAlike SameUpToReplies (run setting program outbox)
        (run { setting with context := c } program outbox') ∧
      callsIn { setting with context := c } trace' ++
          tailCalls { setting with context := c } program.tail r' =
        callsIn setting trace ++ tailCalls setting program.tail r ∧
      Sends setting.limits.maxElements (callsIn setting trace ++ tailCalls setting program.tail r)
        (.start outbox) (run setting program outbox).machine := by
  have habreast := abreast_of_alike h
  have hstart : SameUpToReplies (.start outbox) (.start outbox') := ⟨rfl, rfl⟩
  obtain ⟨trace', r', hrun', hstamps, htogether⟩ :=
    Runs.parallel habreast (k := 0) hrun (fun _ _ ↦ trivial) hstart
  refine ⟨trace', r', hrun', hstamps, ?_⟩
  rw [hrun.run_eq, RunsOf.run_eq hrun']
  exact Together.conclude habreast (k := 0) (fun _ _ _ _ ↦ trivial) htogether

/-- The channel behind a run is told from the calls that the run makes. -/
theorem Makes.delivered (h : Makes setting program outbox made) :
    outbox.Delivered (linesOf setting.limits.maxElements made)
      (run setting program outbox).machine.outbox := by
  obtain ⟨trace, r, hrun, rfl⟩ := h
  obtain ⟨_, _, -, -, -, -, hsends⟩ := hrun.alike ⟨rfl, rfl⟩ outbox
  rw [hsends]
  exact Outbox.delivered_emitAll outbox _

/-- Two runs of a script do the same. -/
structure SameRun (setting setting' : Setting) (program : Program) (outbox outbox' : Outbox) :
    Prop where
  result : (run setting' program outbox').result = (run setting program outbox).result
  steps : (run setting' program outbox').machine.steps = (run setting program outbox).machine.steps
  /-- They execute the same tasks, with the same number of steps before and behind each. -/
  executions : ∃ trace r trace' r', RunsOf setting program outbox trace r ∧
    RunsOf setting' program outbox' trace' r' ∧
    trace'.map Execution.stamp = trace.map Execution.stamp
  /-- They make the same calls, and the channels hold the lines of these calls. -/
  replies : ∃ made, Makes setting program outbox made ∧ Makes setting' program outbox' made ∧
    outbox.Delivered (linesOf setting.limits.maxElements made)
      (run setting program outbox).machine.outbox ∧
    outbox'.Delivered (linesOf setting.limits.maxElements made)
      (run setting' program outbox').machine.outbox

/-- **Nothing ambient.** Contexts that agree on the invoker and on the accent colour give the same
run of every script, under all limits and whatever the channels do with the replies. -/
theorem run_alike (h : setting.context.Alike c) (program : Program) (outbox outbox' : Outbox) :
    SameRun setting { setting with context := c } program outbox outbox' := by
  obtain ⟨trace, r, hrun⟩ := exists_runs setting program outbox
  obtain ⟨trace', r', hrun', hstamps, hends, hcalls, -⟩ := hrun.alike h outbox'
  have hmakes : Makes setting program outbox _ := ⟨trace, r, hrun, rfl⟩
  have hmakes' : Makes { setting with context := c } program outbox' _ :=
    ⟨trace', r', hrun', hcalls.symm⟩
  exact ⟨hends.result, hends.machine.steps, ⟨trace, r, trace', r', hrun, hrun', hstamps⟩,
    _, hmakes, hmakes', hmakes.delivered, hmakes'.delivered⟩

/-- The host at another time, with a new picture of its bot. -/
def movedHost : Context :=
  { plainHost with
    traceId := "later"
    invokedAt := { plainHost.invokedAt with seconds := 60 }
    bot := .ok ⟨3, "abyss", none⟩ }

/-- The script `emitReply("one"); emitReply(1 / 0); emitReply("two")`. -/
def failingBetween : Program where
  statements :=
    [.expression ⟨0, 17⟩
        (.call ⟨0, 16⟩ (.name ⟨0, 9⟩ "emitReply") [.literal ⟨10, 15⟩ (.string "one")]),
      .expression ⟨18, 35⟩
        (.call ⟨18, 34⟩ (.name ⟨18, 27⟩ "emitReply")
          [.binary ⟨28, 33⟩ .div (.literal ⟨28, 29⟩ (.int 1)) (.literal ⟨32, 33⟩ (.int 0))])]
  tail := some (.call ⟨36, 52⟩ (.name ⟨36, 45⟩ "emitReply") [.literal ⟨46, 51⟩ (.string "two")])

/-- The first run sends one line before it fails, and the second one fails in the same way. -/
theorem run_alike_failingBetween :
    plainHost.Alike movedHost ∧
      (run { Setting.untimed ⟨10, 1, 9⟩ with context := plainHost } failingBetween
          (.fresh true)).machine.outbox.sent.toList = [.ofText "one"] ∧
      SameRun { Setting.untimed ⟨10, 1, 9⟩ with context := plainHost }
        { Setting.untimed ⟨10, 1, 9⟩ with context := movedHost } failingBetween (.fresh true)
        (.fresh false) :=
  have halike : plainHost.Alike movedHost := ⟨rfl, rfl⟩
  ⟨halike, rfl, run_alike halike failingBetween _ _⟩

end Run

end Snippet
