import Snippet.Command
import Snippet.Proofs.HostIndependence

/-!
# What a command sends

A command only writes to its reply channel. What it comes to and what it sends do not depend on
what has become of the channel before: on every channel it has the same response and sends the same
texts (`Outbox.Writes`, `exists_writes_call`), behind those that were sent already.

For scripts this is what `run_alike` says of one context. Templates are followed here, part by part
(`Template.Steady`).
-/

namespace Snippet

open Template

/-- On every channel an action has this answer and sends these texts. -/
def Outbox.Writes {α : Type} (action : Outbox → α × Outbox) (answer : α) (texts : List String) :
    Prop :=
  ∀ o, action o = (answer, o.emitAll texts)

/-! ### Templates -/

namespace Template

section Steady

variable {α β : Type}

/-- The end of a rendering, on a channel. -/
def atEnd (end? : Except RenderError α) (o : Outbox) : EStateM.Result RenderError Outbox α :=
  match end? with
  | .ok a => .ok a o
  | .error e => .error e o

/-- On every channel a rendering ends in the same way and sends the same texts. -/
def Steady (x : Rendering α) : Prop :=
  ∃ end? texts, ∀ o, x o = atEnd end? (o.emitAll texts)

theorem steady_pure (a : α) : Steady (pure a : Rendering α) :=
  ⟨.ok a, [], fun _ ↦ rfl⟩

theorem steady_throw (e : RenderError) : Steady (throw e : Rendering α) :=
  ⟨.error e, [], fun _ ↦ rfl⟩

theorem steady_emit (text : String) :
    Steady (modify fun o ↦ o.emit text : Rendering PUnit) :=
  ⟨.ok ⟨⟩, [text], fun _ ↦ rfl⟩

theorem Steady.bind {x : Rendering α} {f : α → Rendering β} (hx : Steady x)
    (hf : ∀ a, Steady (f a)) : Steady (x >>= f) := by
  obtain ⟨end?, texts, hx⟩ := hx
  have happly (o : Outbox) : (x >>= f) o = EStateM.bind x f o := rfl
  match end? with
  | .error e =>
    refine ⟨.error e, texts, fun o ↦ ?_⟩
    rw [happly, EStateM.bind, hx]
    rfl
  | .ok a =>
    obtain ⟨end', texts', hfa⟩ := hf a
    refine ⟨end', texts ++ texts', fun o ↦ ?_⟩
    rw [happly, EStateM.bind, hx, Outbox.emitAll_append]
    exact hfa _

theorem Steady.ite {c : Prop} [Decidable c] {x y : Rendering α} (hx : Steady x) (hy : Steady y) :
    Steady (if c then x else y) := by
  split
  · exact hx
  · exact hy

theorem steady_mapM {f : α → Rendering β} (hf : ∀ a, Steady (f a)) (as : List α) :
    Steady (as.mapM f) := by
  induction as with
  | nil => exact steady_pure []
  | cons a rest ih =>
    rw [List.mapM_cons]
    exact (hf a).bind fun b ↦ ih.bind fun bs ↦ steady_pure (b :: bs)

end Steady

/-! ### Helpers -/

theorem steady_param (h : Helper) (params : List Found) (index : Nat) :
    Steady (h.param params index) := by
  rw [Helper.param]
  split
  · exact steady_pure _
  · exact steady_throw _

theorem steady_apply (h : Helper) (params : List Found) (options : List (String × Found)) :
    Steady (h.apply params options) := by
  have hfirst {f : Json → Found} : Steady (do return f (← h.param params 0)) :=
    (steady_param h params 0).bind fun _ ↦ steady_pure _
  have hboth {f : Json → Json → Found} :
      Steady (do return f (← h.param params 0) (← h.param params 1)) :=
    (steady_param h params 0).bind fun _ ↦ (steady_param h params 1).bind fun _ ↦ steady_pure _
  match h with
  | .choose _ | .each | .inside | .negation | .size => exact hfirst
  | .lookup | .relation _ => exact hboth
  | .raw | .all | .any | .join | .shorten => exact steady_pure _
  | .send => exact (steady_emit _).bind fun _ ↦ steady_pure _
  | .log =>
    rw [Helper.apply]
    dsimp only
    split
    · exact steady_pure _
    · exact steady_throw _

theorem steady_renderBlock (h : Helper) (params : List Found) (options : List (String × Found))
    (names : List String) (frames : List Frame) {body : List Frame → Rendering String}
    {otherwise : Rendering String} (hbody : ∀ frames, Steady (body frames))
    (hotherwise : Steady otherwise) :
    Steady (h.renderBlock params options names frames body otherwise) := by
  have happly : Steady (do return rendered (← h.apply params options).json) :=
    (steady_apply h params options).bind fun _ ↦ steady_pure _
  have hbranch (holds : Found → Bool) :
      Steady (do if holds (← h.apply params options) then body frames else otherwise) :=
    (steady_apply h params options).bind fun _ ↦ (hbody frames).ite hotherwise
  match h with
  | .choose _ => exact (steady_param _ params 0).bind fun _ ↦ (hbody frames).ite hotherwise
  | .inside => exact (steady_param _ params 0).bind fun _ ↦ (hbody _).ite hotherwise
  | .each =>
    refine (steady_param _ params 0).bind fun value ↦ ?_
    split
    · exact hotherwise
    · exact (steady_mapM (fun round ↦ hbody _) _).bind fun _ ↦ steady_pure _
  | .raw => exact hbody frames
  | .relation _ | .all | .any | .negation => exact hbranch (isTruthy ·.json)
  | .log | .lookup | .size | .send | .join | .shorten => exact happly

/-! ### Parts of a template -/

mutual

theorem steady_eval (data : Json) (frames : List Frame) :
    ∀ param : Param, Steady (param.eval data frames)
  | .path path => by
    rw [Param.eval]
    split
    · exact steady_pure _
    · exact steady_throw _
  | .literal value => steady_pure _
  | .call helper params options => by
    rw [Param.eval]
    refine (steady_evalParams data frames params).bind fun params ↦ ?_
    refine (steady_evalOptions data frames options).bind fun options ↦ ?_
    split
    · exact steady_apply _ params options
    · exact steady_throw _

theorem steady_evalParams (data : Json) (frames : List Frame) :
    ∀ params : List Param, Steady (evalParams data frames params)
  | [] => steady_pure _
  | param :: rest =>
    (steady_eval data frames param).bind fun _ ↦
      (steady_evalParams data frames rest).bind fun _ ↦ steady_pure _

theorem steady_evalOptions (data : Json) (frames : List Frame) :
    ∀ options : List (String × Param), Steady (evalOptions data frames options)
  | [] => steady_pure _
  | (_, param) :: rest =>
    (steady_eval data frames param).bind fun _ ↦
      (steady_evalOptions data frames rest).bind fun _ ↦ steady_pure _

end

theorem steady_call (data : Json) (frames : List Frame) (call : Call) :
    Steady (call.eval data frames) := by
  refine (steady_evalParams data frames call.params).bind fun params ↦ ?_
  refine (steady_evalOptions data frames call.options).bind fun options ↦ ?_
  split
  · exact steady_pure _
  · exact steady_throw _

theorem steady_renderValue (data : Json) (frames : List Frame) (source : Param) :
    Steady (renderValue data frames source) := by
  have hnamed (h : Helper) : Steady (do return rendered (← h.apply [] []).json) :=
    (steady_apply h [] []).bind fun _ ↦ steady_pure _
  have hsource := steady_eval data frames source
  rw [renderValue.eq_def]
  split
  · split
    · exact hnamed _
    · exact hsource.bind fun _ ↦ steady_pure _
  · refine hsource.bind fun name ↦ hsource.bind fun found ↦ ?_
    split
    · exact hnamed _
    · exact steady_pure _

theorem steady_checkDecorator (data : Json) (frames : List Frame) (call : Call) (hasBody : Bool) :
    Steady (checkDecorator data frames call hasBody) := by
  refine (steady_evalParams data frames call.params).bind fun params ↦ ?_
  refine (steady_evalOptions data frames call.options).bind fun _ ↦ ?_
  have hbody : Steady (if hasBody then return () else throw .badPartial) :=
    (steady_pure ()).ite (steady_throw _)
  split
  · exact ((steady_throw _).bind fun _ ↦ hbody).ite hbody
  · exact ((steady_throw _).bind fun _ ↦ steady_throw _).ite (steady_throw _)

mutual

theorem steady_render (data : Json) :
    ∀ (frames : List Frame) (element : Element), Steady (element.render data frames)
  | _, .text _ | _, .comment | _, .inclusion _ => steady_pure _
  | frames, .value _ source _ _ => steady_renderValue data frames source
  | frames, .call _ call _ _ =>
    (steady_call data frames call).bind fun (h, params, options) ↦
      (steady_apply h params options).bind fun _ ↦ steady_pure _
  | frames, .block call names body otherwise =>
    (steady_call data frames call).bind fun (h, params, options) ↦
      steady_renderBlock h params options names frames
        (fun frames ↦ steady_renderNested data frames body)
        (steady_renderNested data frames otherwise)
  | frames, .decorator call body =>
    (steady_checkDecorator data frames call body.isSome).bind fun _ ↦ steady_pure ""

theorem steady_renderNested (data : Json) :
    ∀ (frames : List Frame) (elements : Option (List Element)),
      Steady (renderNested data frames elements)
  | _, none => steady_pure _
  | frames, some elements => steady_renderAll data frames elements

theorem steady_renderAll (data : Json) :
    ∀ (frames : List Frame) (elements : List Element), Steady (renderAll data frames elements)
  | _, [] => steady_pure _
  | frames, e :: rest =>
    (steady_render data frames e).bind fun _ ↦
      (steady_renderAll data frames rest).bind fun _ ↦ steady_pure _

end

/-- A template is evaluated in the same way on every channel. -/
theorem exists_writes_evaluate (context : Context) (source : String) :
    ∃ answer texts, Outbox.Writes (Template.evaluate context source) answer texts := by
  rcases hcompile : compileWith standardParser source with e | elements
  · exact ⟨_, [], fun o ↦ by rw [Template.evaluate, evaluateWith, hcompile]; rfl⟩
  rcases hdata : context.snapshot with text | data
  · exact ⟨_, [], fun o ↦ by rw [Template.evaluate, evaluateWith, hcompile, hdata]; rfl⟩
  obtain ⟨end?, texts, hrender⟩ := steady_renderAll data [] elements
  refine ⟨.ok (end?.mapError .render), texts, fun o ↦ ?_⟩
  rw [Template.evaluate, evaluateWith, hcompile, hdata]
  dsimp only
  rcases end? with e | text
  · split
    · next heq => nomatch heq.symm.trans (hrender o)
    · next heq =>
      obtain ⟨rfl, rfl⟩ := EStateM.Result.error.inj (heq.symm.trans (hrender o))
      rfl
  · split
    · next heq =>
      obtain ⟨rfl, rfl⟩ := EStateM.Result.ok.inj (heq.symm.trans (hrender o))
      rfl
    · next heq => nomatch heq.symm.trans (hrender o)

end Template

/-! ### Scripts -/

/-- A script is run in the same way on every channel. -/
theorem Run.exists_lines (setting : Setting) (program : Script.Program) :
    ∃ result lines, ∀ o, (run setting program o).result = result ∧
      (run setting program o).machine.outbox = o.emitAll lines := by
  obtain ⟨trace, r, hrun⟩ := exists_runs setting program (.fresh true)
  refine ⟨(run setting program (.fresh true)).result, linesOf setting.limits.maxElements
    (callsIn setting trace ++ tailCalls setting program.tail r), fun o ↦ ?_⟩
  obtain ⟨trace', r', hrun', -, hends, hcalls, -⟩ := hrun.alike ⟨rfl, rfl⟩ o
  obtain ⟨-, -, -, -, -, -, hsends⟩ := RunsOf.alike ⟨rfl, rfl⟩ hrun' o
  refine ⟨hends.result, ?_⟩
  rw [← hcalls]
  exact hsends

theorem Evaluation.exists_writes_evaluate (settings : Settings) (context : Context) (clock : Clock)
    (source : String) :
    ∃ outcome texts, Outbox.Writes (evaluate settings context clock source) outcome texts := by
  match hscript : Script.Checked.ofSource source with
  | .error complaints =>
    exact ⟨_, [], fun o ↦ by rw [evaluate, hscript]; rfl⟩
  | .ok script =>
    obtain ⟨result, lines, hlines⟩ :=
      Run.exists_lines ⟨settings.limits, context, false, clock.late⟩ script.program
    match hsettle : settle settings clock result with
    | .ok value =>
      refine ⟨.success value clock.compileTime clock.execTime, lines, fun o ↦ ?_⟩
      obtain ⟨hresult, hchannel⟩ := hlines o
      rw [evaluate, hscript]
      dsimp only
      rw [hresult, hsettle, hchannel]
    | .error exception =>
      refine ⟨.runtimeFailure exception clock.compileTime, lines, fun o ↦ ?_⟩
      obtain ⟨hresult, hchannel⟩ := hlines o
      rw [evaluate, hscript]
      dsimp only
      rw [hresult, hsettle, hchannel]

/-! ### Commands -/

namespace Command

theorem exists_writes_evalScript (settings : Settings) (context : Context) (clock : Clock)
    (source : String) :
    ∃ result texts, Outbox.Writes (evalScript settings context clock source) result texts := by
  obtain ⟨outcome, texts, h⟩ := Evaluation.exists_writes_evaluate settings context clock source
  exact ⟨_, texts, fun o ↦ by rw [evalScript, h]⟩

theorem exists_writes_renderTemplate (settings : Settings) (context : Context) (clock : Clock)
    (source : String) :
    ∃ result texts, Outbox.Writes (renderTemplate settings context clock source) result texts := by
  obtain ⟨answer, texts, h⟩ := Template.exists_writes_evaluate context source
  exact ⟨_, texts, fun o ↦ by rw [renderTemplate, h]⟩

theorem exists_writes_run (c : Command) (settings : Settings) (context : Context) (clock : Clock)
    (text : String) :
    ∃ result texts, Outbox.Writes (c.run settings context clock text) result texts := by
  match c with
  | eval => exact exists_writes_evalScript settings context clock text
  | inspect => exact exists_writes_evalScript settings context clock (inspection text)
  | render => exact exists_writes_renderTemplate settings context clock text
  | fault => exact ⟨_, [], fun _ ↦ rfl⟩

/-- A command has the same response and sends the same texts on every channel, whether its run ends
with a value, with an error, or with the breakdown of its host. -/
theorem exists_writes_call (settings : Settings) (context : Context) (clock : Clock)
    (name text : String) :
    ∃ response texts, Outbox.Writes (call settings context clock name text) response texts := by
  match hname : ofName? name with
  | .error e => exact ⟨_, [], fun o ↦ by rw [call, hname]; rfl⟩
  | .ok c =>
    obtain ⟨result, texts, h⟩ := exists_writes_run c settings context clock text
    exact ⟨answer result, texts, fun o ↦ by rw [call, hname]; dsimp only; rw [h]⟩

end Command

end Snippet
