import Snippet.Script.Check
import Snippet.Script.Parse

/-!
# Scripts that may run

A source text becomes a script by being read and checked. Any error keeps it from running;
warnings stay with the script.
-/

namespace Snippet.Script

/-- A script without errors. -/
structure Checked where
  program : Program
  /-- What was found to say about it, in the order of discovery. -/
  warnings : List Complaint
  deriving Repr, Inhabited

/-- The script of a source text, or everything there is to say about the text. -/
def Checked.ofSource (source : String) : Except (List Complaint) Checked :=
  match parse source with
  | .error complaint => .error [complaint]
  | .ok program =>
    let complaints := check program
    if complaints.any (·.isError) then .error complaints else .ok ⟨program, complaints⟩

end Snippet.Script
