import Snippet.Outcome
import Snippet.Run.Exec
import Snippet.Script.Checked
import Snippet.Settings.Basic
import Snippet.Text.Quoted

/-!
# Evaluating a script

A script is compiled and then run under a time limit. Whatever goes wrong with the script is part
of the outcome. The clock belongs to the host; what it answers during one evaluation is given as a
`Clock`.
-/

namespace Snippet

/-- What the host's clock says during one evaluation. -/
structure Clock where
  compileTime : Time
  execTime : Time
  /-- Whether the time limit has passed at the step with this number. -/
  late : Nat → Bool
  /-- Whether the time limit passed before the run was over. -/
  overran : Bool
  /-- The number under which the host runs the script. -/
  job : Nat

namespace Evaluation

/-- The kind of exception of a host that breaks down. -/
def internalError : String := "InternalError"

/-- What the host says of a job that broke down. -/
def brokenJob (job : Nat) (text : String) : String :=
  "task " ++ toString job ++ " panicked with message " ++ String.ofList (Text.quoted text)

/-- A fault as an exception. -/
def ofFault (f : Run.Fault) : Exception :=
  ⟨f.typeName, f.message⟩

/-- What ended a run as an exception. -/
def ofHalt (job : Nat) : Run.Halt → Exception
  | .fault f => ofFault f
  | .breakdown text => ⟨internalError, "Script execution aborted: " ++ brokenJob job text⟩

/-- The value of a run, or the exception that ended it. A run that overran its time ends so, even
if it would have had a value. -/
def settle (settings : Settings) (clock : Clock) (result : Except Run.Halt (Option Value)) :
    Except Exception (Option Value) :=
  if clock.overran then .error (ofFault (.timeLimit settings.timeout))
  else result.mapError (ofHalt clock.job)

/-- Evaluates a script. The answer holds the reply channel behind the run. -/
def evaluate (settings : Settings) (context : Context) (clock : Clock) (source : String)
    (outbox : Outbox) : Outcome × Outbox :=
  match Script.Checked.ofSource source with
  | .error complaints =>
    (.ofDiagnostics (complaints.map (·.diagnostic)) clock.compileTime, outbox)
  | .ok script =>
    -- the host cannot cancel a run, so only the clock may
    let ending := Run.run ⟨settings.limits, context, false, clock.late⟩ script.program outbox
    match settle settings clock ending.result with
    | .ok value => (.success value clock.compileTime clock.execTime, ending.machine.outbox)
    | .error exception => (.runtimeFailure exception clock.compileTime, ending.machine.outbox)

end Evaluation

end Snippet
