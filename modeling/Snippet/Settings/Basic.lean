import Snippet.Run.Machine

/-!
# Settings

The limits of the chat on fields and messages, what reports look like, and the bounds of a run.
`Settings.validate` admits settings under which a report can be made at all.
-/

namespace Snippet

/-- The settings of an installation. -/
structure Settings where
  /-- The greatest number of characters of a field of a document. -/
  fieldLimit : Nat
  /-- The greatest number of characters of a plain message. -/
  messageLimit : Nat
  /-- The title of reports. -/
  title : String
  /-- The language tag of blocks of code. -/
  codeLanguage : String
  /-- The time limit of an evaluation in milliseconds. -/
  timeout : Nat
  maxSteps : Nat
  /-- The greatest number of elements of a collection, and of characters of a text. -/
  maxElements : Nat
  deriving DecidableEq, Repr, Inhabited

/-- Why settings cannot be had. -/
inductive SettingsError where
  | unreadable
  | malformed
  | invalidValue (name value : String)
  deriving DecidableEq, Repr, Inhabited

namespace Settings

/-- What holds where nothing is set. -/
def standard : Settings where
  fieldLimit := 1024
  messageLimit := 2000
  title := "Scripting Result"
  codeLanguage := "cs"
  timeout := 5000
  maxSteps := 1000000
  maxElements := 100000

/-- The bounds of a run. -/
def limits (s : Settings) : Run.Limits :=
  ⟨s.maxSteps, s.timeout, s.maxElements⟩

/-- Admits settings whose fields hold an empty block of code, whose messages hold a field, and
which leave time to run. -/
def validate (s : Settings) : Except SettingsError Settings :=
  if s.fieldLimit < 16 then .error (.invalidValue "field_max_chars" (toString s.fieldLimit))
  else if s.messageLimit < s.fieldLimit then
    .error (.invalidValue "message_max_chars" (toString s.messageLimit))
  else if s.timeout = 0 then .error (.invalidValue "exec_timeout_ms" "0")
  else .ok s

/-- Exactly these settings are admitted. -/
theorem validate_eq_ok_iff {s t : Settings} :
    s.validate = .ok t ↔
      s = t ∧ 16 ≤ s.fieldLimit ∧ s.fieldLimit ≤ s.messageLimit ∧ s.timeout ≠ 0 := by
  unfold validate
  split
  · simp
    omega
  · split
    · simp
      omega
    · split
      · simp [*]
      · simp
        omega

end Settings

end Snippet
