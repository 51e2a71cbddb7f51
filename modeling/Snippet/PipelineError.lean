import Snippet.Host.Context
import Snippet.Lifecycle
import Snippet.Settings.Basic

/-!
# Errors of the pipeline

What can go wrong around a snippet, as opposed to in it: a message is refused, an evaluation takes
a step it cannot take, or the settings are unusable. The text of an error starts with the area in
which it arose.
-/

namespace Snippet

/-- The wording of a settings error. -/
def SettingsError.message : SettingsError → String
  | unreadable => "failed to read config file"
  | malformed => "invalid config"
  | invalidValue name value => "invalid value for " ++ name ++ ": " ++ value

/-- An error outside of any snippet. -/
inductive PipelineError where
  | delivery (error : DeliveryError)
  | badStep (step : Lifecycle.BadStep)
  | settings (error : SettingsError)
  deriving DecidableEq, Repr

/-- The wording of an error, behind the area in which it arose. -/
def PipelineError.message : PipelineError → String
  | delivery error => "DELIVERY/" ++ error.message
  | badStep step => "STATE/" ++ step.message
  | settings error => "CONFIG/" ++ error.message

end Snippet
