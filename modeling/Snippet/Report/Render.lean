import Snippet.Host.Context
import Snippet.Outcome
import Snippet.Report.Basic
import Snippet.Report.Classified
import Snippet.Settings.Basic

/-!
# Answering with an outcome

A response that a script made itself is its answer. Every other outcome is answered with a report,
and a rendered template with its text. Reports ask the host for the bot's picture and colour, and
fail with it.
-/

namespace Snippet

/-- The limits of the chat. -/
def Settings.sizeLimits (s : Settings) : SizeLimits :=
  ⟨s.fieldLimit, s.messageLimit⟩

namespace Outcome

/-- The form in which the value of an outcome is displayed. -/
def classified (settings : Settings) (o : Outcome) : Classified :=
  Classified.ofOption settings.messageLimit o.value?

/-- A text as a block of code. -/
def fenced (settings : Settings) (text : String) : String :=
  "```" ++ settings.codeLanguage ++ "\n" ++ text ++ "```"

/-- Whether a text is a block of code already. -/
def isFenced (text : String) : Bool :=
  Text.fence.isPrefixOf text.toList && Text.fence.isSuffixOf text.toList

/-- What is shown where there is nothing to show. -/
def noResults : String := "No results returned."

/-- The output block of a report, and whether it leaves the report a document. -/
def outputBlock (settings : Settings) : Classified → String × Bool
  | .scalar text => if isFenced text then (text, false) else (fenced settings text, true)
  | form =>
    match form.displayText? with
    | some text => (text, false)
    | none => (noResults, true)

/-- One segment of the line under a report. -/
def timeSegment (name : String) (t : Time) : Option String :=
  if t.shown = notMeasured then none else some (name ++ " time: " ++ toString t.shown ++ "ms")

/-- The line under a report. Times that were not taken are left out. -/
def footer? (o : Outcome) : Option String :=
  match [timeSegment "Compilation" o.compileTime, timeSegment "Execution" o.execTime].filterMap id
  with
  | [] => none
  | segments => some (" | ".intercalate segments)

/-- What a report says about one message of the compiler. -/
def diagnosticText (source : String) (d : Diagnostic) : String :=
  ((d.location.excerpt? source).elim "" fun excerpt ↦ "`" ++ excerpt ++ "`\n") ++
    " - ``" ++ d.id ++ "`` (" ++ d.location.text ++ "): **" ++ d.message ++ "**\n\n"

/-- The line under the title of a report. -/
def description (o : Outcome) : String :=
  match o.failedStage?, o.value? with
  | some stage, _ => "Scripting failed during stage **" ++ stage.name ++ "**"
  | none, some v => if v.isNull then "" else "Type: `" ++ v.typeName ++ "`"
  | none, none => ""

/-- The report on an outcome, whose value is displayed in the given form. -/
def report (settings : Settings) (context : Context) (source : String) (form : Classified)
    (o : Outcome) : HostAnswer Report := do
  -- the host is asked for both, in this order, also where neither is shown
  let icon ← context.avatar
  let color ← context.accent
  let (output, rich) := outputBlock settings form
  return {
    title := settings.title
    description := o.description
    input := fenced settings source
    output := if o.isSuccess then some output else none
    diagnostics :=
      match o with
      | .compileFailure ds _ => some (String.join (ds.map (diagnosticText source)))
      | _ => none
    exception := o.exception?.map fun e ↦ "``" ++ e.typeName ++ "``: ``" ++ e.message ++ "``"
    footer := o.footer?
    footerIcon := icon
    color := color
    timestamp := context.invokedAt
    rich := !o.isSuccess || rich }

/-- The answer to a script with this outcome. -/
def respond (settings : Settings) (context : Context) (source : String) (o : Outcome) :
    HostAnswer Response :=
  match o.classified settings with
  | .response r => .ok r
  | form => do
    let report ← o.report settings context source form
    return .ok (report.deliver settings.sizeLimits).message

end Outcome

/-- The answer to a template: its text, cut to one message. -/
def respondText (settings : Settings) (text : String) : Response :=
  if text.isEmpty then .empty else .ofText (Text.shortenPlain text settings.messageLimit)

end Snippet
