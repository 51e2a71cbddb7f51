import Snippet.Decimal.Reader
import Snippet.Settings.Basic
import Snippet.Text.Blank
import Snippet.Yaml.Node

/-!
# Reading settings

Settings are written as a YAML mapping of their names. What it leaves out is as in
`Settings.standard`, and names that it does not know are passed over; but no setting may be given
twice. Any scalar is a text, and only an unquoted one is a number.

The time limit can be given in the environment, too, which then holds. It is read only when the
file is in order.
-/

namespace Snippet

/-- The number without a sign that digits of a base denote, if it fits 64 bits. -/
def natOfBase? (base : Nat) (digits : List Char) : Option Nat := do
  if digits.isEmpty then none
  let n ← digits.foldlM (fun n c ↦
    (Yaml.hexDigit? c).bind fun d ↦ if d < base then some (base * n + d) else none) 0
  if n < UInt64.size then return n else none

/-- The number that an unquoted scalar denotes. A leading zero makes a text of digits. -/
def naturalOfScalar? (text : String) : Option Nat :=
  let digits :=
    match text.toList with
    | '+' :: rest => rest
    | cs => cs
  match digits with
  | '0' :: 'x' :: rest => natOfBase? 16 rest
  | '0' :: 'o' :: rest => natOfBase? 8 rest
  | '0' :: 'b' :: rest => natOfBase? 2 rest
  | '0' :: _ :: _ => none
  | digits => natOfBase? 10 digits

namespace Yaml

/-- The text of a scalar. -/
def Node.text? : Node → Option String
  | .scalar text _ _ => some text
  | _ => none

/-- The number of a scalar that is not quoted, or is said to be a number. -/
def Node.natural? : Node → Option Nat
  | .scalar text .plain _ => naturalOfScalar? text
  | .scalar text .literal (some "tag:yaml.org,2002:int") => naturalOfScalar? text
  | _ => none

end Yaml

namespace Settings

/-- The names of settings. -/
def names : List String :=
  ["field_max_chars", "message_max_chars", "title", "code_language", "exec_timeout_ms",
    "max_steps", "max_collection_len"]

/-- Gives a setting its value. -/
def set? (s : Settings) (name : String) (value : Yaml.Node) : Option Settings :=
  match name with
  | "field_max_chars" => value.natural?.map fun n ↦ { s with fieldLimit := n }
  | "message_max_chars" => value.natural?.map fun n ↦ { s with messageLimit := n }
  | "title" => value.text?.map fun t ↦ { s with title := t }
  | "code_language" => value.text?.map fun t ↦ { s with codeLanguage := t }
  | "exec_timeout_ms" => value.natural?.map fun n ↦ { s with timeout := n }
  | "max_steps" => value.natural?.map fun n ↦ { s with maxSteps := n }
  | "max_collection_len" => value.natural?.map fun n ↦ { s with maxElements := n }
  | _ => some s

/-- The settings of a mapping's entries, when those in `given` have been given. -/
def ofEntries? (given : List String) (s : Settings) : List (Yaml.Node × Yaml.Node) → Option Settings
  | [] => some s
  | (key, value) :: rest => do
    let name ← key.text?
    if given.contains name then none
    let s ← s.set? name value
    ofEntries? (if names.contains name then name :: given else given) s rest

/-- The settings of a node. An empty one gives none. -/
def ofNode? : Yaml.Node → Option Settings
  | .mapping entries => ofEntries? [] standard entries
  | .scalar "" .plain _ => some standard
  | _ => none

/-- The settings of a text. -/
def ofText (text : String) : Except SettingsError Settings :=
  match Yaml.document? text with
  | none => .error .malformed
  | some none => standard.validate
  | some (some node) =>
    match ofNode? node with
    | some s => s.validate
    | none => .error .malformed

/-- The variable of the environment that holds the time limit. -/
def timeoutVariable : String := "ABYSS_EXEC_TIMEOUT_MS"

/-- The settings with a time limit from the environment. -/
def withTimeout (s : Settings) (raw : String) : Except SettingsError Settings :=
  match Decimal.natOfText? (Text.trim raw) with
  | some n => { s with timeout := n }.validate
  | none => .error (.invalidValue timeoutVariable raw)

/-- Where settings come from. -/
inductive Source where
  | standard
  | unreadable
  | text (text : String)
  deriving DecidableEq, Repr, Inhabited

/-- The settings of an installation, from its file and its environment. -/
def load (source : Source) (timeout : Option String) : Except SettingsError Settings := do
  let s ←
    match source with
    | .standard => .ok standard
    | .unreadable => .error .unreadable
    | .text text => ofText text
  match timeout with
  | some raw => s.withTimeout raw
  | none => s.validate

end Settings

end Snippet
