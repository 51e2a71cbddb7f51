import Snippet.Command
import Snippet.Proofs.Execution
import Snippet.Proofs.ReportSize

/-!
# Hosts that break down

A script may ask the host for its colour, and every report asks for the bot and its colour. Where
one of these two look-ups breaks down, there is no report on anything (`respond_eq_error`), so a
script is answered with its own response or not at all. The command `eval` answers even then: with
the wording of the breakdown, whatever became of the script (`call_eval_of_breaksDown`).

A breakdown takes no reply back. The channel of the answer is the one behind the run, and what has
been sent at any point of a run is still sent at its end (`Runs.progress_of_mem`).
-/

namespace Snippet

/-- A host of which one of the two look-ups breaks down, with one text whatever it is asked. -/
inductive Context.BreaksDown (text : String) : Context → Prop
  | bot {c : Context} (hbot : c.bot = .error text)
      (hbrand : ∀ i, ∃ color, c.brandColor i = .ok color) : BreaksDown text c
  | brand {c : Context} {i : Identity} (hbot : c.bot = .ok i)
      (hbrand : ∀ i, c.brandColor i = .error text) : BreaksDown text c

/-- Either way no colour is to be had. -/
theorem Context.BreaksDown.accent_eq {text : String} {context : Context}
    (h : context.BreaksDown text) : context.accent = .error text := by
  cases h with
  | bot hbot _ =>
    rw [Context.accent, hbot]
    rfl
  | brand hbot hbrand =>
    rw [Context.accent, hbot]
    exact hbrand _

/-! ### Replies -/

namespace Run

variable {setting : Setting} {m : Machine} {t : Task} {trace : List Execution} {r : Ended Flow}

/-- Doing a task leads to a later state. -/
theorem Runs.progress (h : Runs setting t m trace r) : Progress m (after r) := by
  rw [h.result_eq]
  exact passage_progress.perform setting t m

/-- The end of a run is later than the end of anything that is executed on the way. -/
theorem Runs.progress_of_mem (h : Runs setting t m trace r) {e : Execution} (he : e ∈ trace) :
    Progress (after e.result) (after r) := by
  have hrefl (m : Machine) : Progress m m := passage_progress.refl m
  -- the record of the task itself comes first, and ends as the whole does
  have hcons {e' : Execution} {trace : List Execution} {m : Machine} (he : e ∈ e' :: trace)
      (heq : after e'.result = m) (h : e ∈ trace → Progress (after e.result) m) :
      Progress (after e.result) m := by
    obtain rfl | he := List.mem_cons.1 he
    · rw [heq]
      exact hrefl m
    · exact h he
  induction h with
  | done => exact hcons he rfl nofun
  | stmt _ _ ih => exact hcons he rfl ih
  | stmtHalts _ => exact hcons he rfl nofun
  | inner _ ih =>
    refine hcons he rfl fun he ↦ ?_
    rw [after_leaving]
    exact ih he
  | bound _ _ ih => exact hcons he rfl ih
  | boundHalts _ => exact hcons he rfl nofun
  | listEnds => exact hcons he rfl nofun
  | listNext _ _ h' ih ih' =>
    refine hcons he rfl fun he ↦ ?_
    obtain he | he := List.mem_append.1 he
    · exact passage_progress.trans (ih he) h'.progress
    · exact ih' he
  | listLeft _ _ ih => exact hcons he rfl ih
  | listHalts _ ih => exact hcons he rfl ih
  | loopEnds _ => exact hcons he rfl nofun
  | loopHalts _ => exact hcons he rfl nofun
  | loopNext _ _ _ h' ih ih' =>
    refine hcons he rfl fun he ↦ ?_
    obtain he | he := List.mem_append.1 he
    · exact passage_progress.trans (ih he) h'.progress
    · exact ih' he
  | loopLeft _ _ _ ih => exact hcons he rfl ih
  | loopBroken _ _ ih => exact hcons he rfl ih

/-- Whatever has been sent when something is taken up in a run is still sent behind the run. -/
theorem RunsOf.sent_prefix {program : Script.Program} {outbox : Outbox}
    (h : RunsOf setting program outbox trace r) {e : Execution} (he : e ∈ trace) :
    e.start.outbox.sent.toList <+: (after e.result).outbox.sent.toList ∧
      (after e.result).outbox.sent.toList <+:
        (run setting program outbox).machine.outbox.sent.toList := by
  obtain ⟨trace', hpart⟩ := h.of_mem he
  rw [h.run_eq]
  exact ⟨hpart.progress.2,
    (passage_progress.trans (h.progress_of_mem he)
      (passage_progress.toCourse.conclude setting _ r)).2⟩

end Run

/-! ### Answers -/

variable {settings : Settings} {context : Context} {clock : Clock} {outcome : Outcome}
  {source text : String} {outbox : Outbox}

namespace Outcome

/-- A ready response is its own answer: the host is not asked. -/
theorem respond_of_response {r : Response} (h : outcome.value? = some (.response r)) :
    outcome.respond settings context source = .ok r := by
  rw [respond, classified, h]
  rfl

/-- Where one look-up breaks down, there is a report on nothing. -/
theorem report_eq_error (h : context.BreaksDown text) (form : Classified) :
    outcome.report settings context source form = .error text := by
  have haccent := h.accent_eq
  unfold report
  cases h with
  | bot hbot _ =>
    rw [Context.avatar, hbot]
    rfl
  | brand hbot _ =>
    rw [Context.avatar, hbot, haccent]
    rfl

/-- So what is not a ready response is answered with the breakdown. -/
theorem respond_eq_error (h : context.BreaksDown text)
    (hvalue : ∀ r, outcome.value? ≠ some (.response r)) :
    outcome.respond settings context source = .error text := by
  rw [respond]
  split
  · next r hr => exact absurd hr (classified_ne_response hvalue r)
  · rw [report_eq_error h]
    rfl

end Outcome

namespace Command

/-- The wording of a breakdown. -/
theorem answer_internal (text : String) :
    answer (.error (.internal text)) =
      .badRequest ("Generic error: InternalError: " ++ text) := by
  have hhead : "Generic error: " ++ ("InternalError" ++ ": ") =
      "Generic error: InternalError: " := by decide
  have htext : "Generic error: " ++ ("InternalError" ++ ": " ++ text) =
      "Generic error: InternalError: " ++ text := by
    rw [← hhead, String.append_assoc, String.append_assoc, String.append_assoc]
  exact congrArg Response.badRequest htext

/-- The command `eval` answers with the outcome of the evaluation, and keeps its channel. -/
theorem call_eval (settings : Settings) (context : Context) (clock : Clock) (source : String)
    (outbox : Outbox) :
    call settings context clock "eval" source outbox =
      (answer (((Evaluation.evaluate settings context clock source outbox).1.respond settings
          context source).mapError .internal),
        (Evaluation.evaluate settings context clock source outbox).2) := by
  have hname : ofName? "eval" = .ok .eval := ofName?_name .eval
  rw [call, hname]
  rfl

/-- An outcome without a ready response is answered with the wording of the breakdown. -/
theorem answer_of_breaksDown (h : context.BreaksDown text)
    (hvalue : ∀ r, outcome.value? ≠ some (.response r)) :
    answer ((outcome.respond settings context source).mapError .internal) =
      .badRequest ("Generic error: InternalError: " ++ text) := by
  rw [Outcome.respond_eq_error h hvalue]
  exact answer_internal text

end Command

namespace Evaluation

/-- The setting in which a script is evaluated. The host cannot cancel it. -/
def setting (settings : Settings) (context : Context) (clock : Clock) : Run.Setting :=
  ⟨settings.limits, context, false, clock.late⟩

/-- A run completes within its time, with a ready response. -/
structure Completes (clock : Clock) (ending : Run.Ending) (r : Response) : Prop where
  inTime : clock.overran = false
  result : ending.result = .ok (some (.response r))

/-- A settled result is a ready response exactly if the run completed with it. -/
theorem settle_eq_response_iff {ending : Run.Ending} {r : Response} :
    settle settings clock ending.result = .ok (some (.response r)) ↔
      Completes clock ending r := by
  have hmap : ending.result.mapError (ofHalt clock.job) = .ok (some (.response r)) ↔
      ending.result = .ok (some (.response r)) := by
    cases ending.result with
    | ok value =>
      exact ⟨fun h ↦ congrArg Except.ok (Except.ok.inj h),
        fun h ↦ congrArg Except.ok (Except.ok.inj h)⟩
    | error halt => exact iff_of_false (fun h ↦ by cases h) fun h ↦ by cases h
  rw [settle]
  constructor
  · intro h
    split at h
    · cases h
    · exact ⟨Bool.eq_false_iff.2 ‹_›, hmap.1 h⟩
  · intro h
    rw [h.inTime, if_neg Bool.false_ne_true, hmap]
    exact h.result

/-- A source text that does not compile has no value. -/
theorem evaluate_of_error {complaints : List Script.Complaint}
    (h : Script.Checked.ofSource source = .error complaints) :
    evaluate settings context clock source outbox =
      (.ofDiagnostics (complaints.map (·.diagnostic)) clock.compileTime, outbox) := by
  rw [evaluate, h]

/-- The value of a script is a ready response exactly if its run completed with it. Either way the
channel is the one behind the run. -/
theorem evaluate_of_ok {script : Script.Checked} {ending : Run.Ending}
    (h : Script.Checked.ofSource source = .ok script)
    (hrun : Run.run (setting settings context clock) script.program outbox = ending) :
    (∀ r, (evaluate settings context clock source outbox).1.value? = some (.response r) ↔
        Completes clock ending r) ∧
      (evaluate settings context clock source outbox).2 = ending.machine.outbox := by
  subst hrun
  have hsettle {r : Response} := @settle_eq_response_iff settings clock
    (Run.run (setting settings context clock) script.program outbox) r
  simp only [evaluate, h, ← hsettle]
  rw [setting]
  rcases settle settings clock _ with exception | value
  · exact ⟨fun r ↦ iff_of_false nofun nofun, rfl⟩
  · exact ⟨fun r ↦ (Except.ok.injEq _ _).symm ▸ Iff.rfl, rfl⟩

end Evaluation

/-- How the command `eval` answers where a look-up of the host breaks down with a text. -/
structure Command.Withstands (settings : Settings) (context : Context) (clock : Clock)
    (text source : String) (outbox : Outbox) : Prop where
  uncompiled : ∀ complaints, Script.Checked.ofSource source = .error complaints →
    call settings context clock "eval" source outbox =
      (.badRequest ("Generic error: InternalError: " ++ text), outbox)
  completed : ∀ script ending, Script.Checked.ofSource source = .ok script →
    Run.run (Evaluation.setting settings context clock) script.program outbox = ending →
    ∀ r, Evaluation.Completes clock ending r →
      call settings context clock "eval" source outbox = (r, ending.machine.outbox)
  /-- The run halts, breaks down itself, takes too long, or has any other value or none. -/
  otherwise : ∀ script ending, Script.Checked.ofSource source = .ok script →
    Run.run (Evaluation.setting settings context clock) script.program outbox = ending →
    (∀ r, ¬ Evaluation.Completes clock ending r) →
      call settings context clock "eval" source outbox =
        (.badRequest ("Generic error: InternalError: " ++ text), ending.machine.outbox)
  /-- What has been sent at any point of the run is in the channel of the answer. -/
  replies : ∀ script, Script.Checked.ofSource source = .ok script →
    ∀ trace r,
      Run.RunsOf (Evaluation.setting settings context clock) script.program outbox trace r →
      ∀ e ∈ trace, e.start.outbox.sent.toList <+: (Run.after e.result).outbox.sent.toList ∧
        (Run.after e.result).outbox.sent.toList <+:
          (call settings context clock "eval" source outbox).2.sent.toList

/-- **The boundary of `eval`.** Where one look-up of the host breaks down, a script whose run
completes in time with a response is answered with that response, and everything else with the
wording of the breakdown. No reply is lost. -/
theorem call_eval_of_breaksDown (h : context.BreaksDown text) (settings : Settings) (clock : Clock)
    (source : String) (outbox : Outbox) :
    Command.Withstands settings context clock text source outbox where
  uncompiled complaints hsource := by
    have hvalue : (Outcome.ofDiagnostics (complaints.map (·.diagnostic)) clock.compileTime).value? =
        none := rfl
    rw [Command.call_eval, Evaluation.evaluate_of_error hsource, Command.answer_of_breaksDown h]
    rw [hvalue]
    nofun
  completed script ending hsource hrun r hr := by
    obtain ⟨hvalue, hchannel⟩ := Evaluation.evaluate_of_ok hsource hrun
    rw [Command.call_eval, Outcome.respond_of_response ((hvalue r).2 hr), hchannel]
    rfl
  otherwise script ending hsource hrun hnone := by
    obtain ⟨hvalue, hchannel⟩ := Evaluation.evaluate_of_ok hsource hrun
    rw [Command.call_eval, hchannel,
      Command.answer_of_breaksDown h fun r hr ↦ hnone r ((hvalue r).1 hr)]
  replies script hsource trace r htrace e he := by
    rw [Command.call_eval, (Evaluation.evaluate_of_ok hsource rfl).2]
    exact htrace.sent_prefix he

/-- A host that knows its bot but has lost its colours. -/
def colorlessHost : Context :=
  { plainHost with brandColor := fun _ ↦ .error "palette offline" }

/-- A script that sends a reply and then asks for a colour. -/
theorem call_eval_of_breaksDown_colorlessHost :
    colorlessHost.BreaksDown "palette offline" ∧
      Command.Withstands .standard colorlessHost ⟨some 1, some 2, fun _ ↦ false, false, 7⟩
        "palette offline" "emitReply(\"hello\"); brandingAccent()" (.fresh true) :=
  have hbreaks : colorlessHost.BreaksDown "palette offline" := .brand rfl fun _ ↦ rfl
  ⟨hbreaks, call_eval_of_breaksDown hbreaks _ _ _ _⟩

end Snippet
