import Snippet.Evaluation
import Snippet.Report.Render
import Snippet.Template.Render
import Snippet.Text.Blank

/-!
# Commands

A command is called by its name, in letters of either case, with a text. Every call has a
response: an error in it is answered with its wording, and so is a host that breaks down. Replies
that were sent before the error stay sent.
-/

namespace Snippet

/-- The commands of the group. -/
inductive Command where
  /-- Evaluates a script. -/
  | eval
  /-- Evaluates an expression and shows its value in detail. -/
  | inspect
  /-- Renders a template. -/
  | render
  /-- Fails. -/
  | fault
  deriving DecidableEq, Repr, Inhabited

/-- Why a command has no response of its own. -/
inductive CommandError where
  | invalidOperation (message : String)
  | unknownCommand (name : String)
  /-- The host broke down, with this text. -/
  | internal (text : String)
  deriving DecidableEq, Repr, Inhabited

/-- The wording of an error. -/
def CommandError.message : CommandError → String
  | invalidOperation message => "InvalidOperationError: " ++ message
  | unknownCommand name => "UnknownCommandError: no command named '" ++ name ++ "'"
  | internal text => Evaluation.internalError ++ ": " ++ text

namespace Command

/-- Every command. -/
def all : List Command :=
  [.eval, .inspect, .render, .fault]

/-- The name of a command. -/
def name : Command → String
  | eval => "eval"
  | inspect => "inspect"
  | render => "hb"
  | fault => "throwex"

/-- What a command is for. -/
def description : Command → String
  | eval => "Evaluates a piece of script code."
  | inspect => "Evaluates and then inspects a value."
  | render =>
    "Evaluates and compiles a Handlebars template against the current execution context."
  | fault => "Throws an invalid-operation fault. For testing purposes."

/-- The command of a name. -/
def ofName? (name : String) : Except CommandError Command :=
  match all.find? fun c ↦ c.name.toList == name.toList.map Char.toLower with
  | some c => .ok c
  | none => .error (.unknownCommand name)

/-- Evaluates a script and answers with its outcome. -/
def evalScript (settings : Settings) (context : Context) (clock : Clock) (source : String)
    (outbox : Outbox) : Except CommandError Response × Outbox :=
  let (outcome, outbox) := Evaluation.evaluate settings context clock source outbox
  ((outcome.respond settings context source).mapError .internal, outbox)

/-- The call that inspects the value of an expression. -/
def inspection (source : String) : String :=
  "inspect(" ++ source ++ ")"

/-- Renders a template and answers with its text. -/
def renderTemplate (settings : Settings) (context : Context) (clock : Clock) (source : String)
    (outbox : Outbox) : Except CommandError Response × Outbox :=
  let (answer, outbox) := Template.evaluate context source outbox
  let response : Except CommandError Response :=
    -- replies sent before the time was up stay sent
    if clock.overran then
      .ok (.badRequest ("Template failed: rendering exceeded the time limit of " ++
        toString settings.timeout ++ " ms."))
    else
      match answer with
      | .ok (.ok text) => .ok (respondText settings text)
      | .ok (.error failure) => .ok (.badRequest failure.message)
      | .error text =>
        .error (.internal ("Template rendering aborted: " ++ Evaluation.brokenJob clock.job text))
  (response, outbox)

/-- The message of the command that fails. -/
def faultMessage (text : String) : String :=
  let message := Text.trim text
  if message.isEmpty then "Test exception." else message

/-- Runs a command. -/
def run (c : Command) (settings : Settings) (context : Context) (clock : Clock) (text : String)
    (outbox : Outbox) : Except CommandError Response × Outbox :=
  match c with
  | eval => evalScript settings context clock text outbox
  | inspect => evalScript settings context clock (inspection text) outbox
  | render => renderTemplate settings context clock text outbox
  | fault => (.error (.invalidOperation (faultMessage text)), outbox)

/-- The response to a result: an error is a complaint to the user. -/
def answer : Except CommandError Response → Response
  | .ok response => response
  | .error e => .badRequest ("Generic error: " ++ e.message)

/-- Calls the command of a name. -/
def call (settings : Settings) (context : Context) (clock : Clock) (name text : String)
    (outbox : Outbox) : Response × Outbox :=
  match ofName? name with
  | .error e => (answer (.error e), outbox)
  | .ok c =>
    let (result, outbox) := c.run settings context clock text outbox
    (answer result, outbox)

/-- The command of each name is found. -/
@[simp]
theorem ofName?_name (c : Command) : ofName? c.name = .ok c := by
  cases c <;> rfl

end Command

end Snippet
