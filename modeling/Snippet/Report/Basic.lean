import Snippet.Message.Basic
import Snippet.Text.Shorten

/-!
# Reports

A report is sent as a document if every block of it fits into a field, and as one plain text
otherwise. The plain text keeps the limit on messages: the messages of the compiler, the exception
and the output lose their ends, in this order and only as far as needed. The input is never cut.
Where that is not enough, the whole text is cut.
-/

namespace Snippet

/-- What is said about an evaluation. -/
structure Report where
  title : String
  description : String
  input : String
  output : Option String
  diagnostics : Option String
  exception : Option String
  footer : Option String
  footerIcon : Option String
  color : Option Color
  timestamp : Instant
  /-- Whether the report may be sent as a document. -/
  rich : Bool
  deriving DecidableEq, Repr, Inhabited

/-- The limits of the chat. -/
structure SizeLimits where
  field : Nat
  message : Nat
  deriving DecidableEq, Repr, Inhabited

/-- A report in the form in which it is sent. -/
structure Delivery where
  message : Message
  /-- Whether the whole text had to be cut. -/
  hardCut : Bool
  deriving DecidableEq, Repr, Inhabited

/-- The blocks that may lose their ends, in this order. -/
inductive Part where
  | diagnostics
  | exception
  | output
  deriving DecidableEq, Repr, Inhabited

namespace Report

/-- The text of a part. -/
def part? (r : Report) : Part → Option String
  | .diagnostics => r.diagnostics
  | .exception => r.exception
  | .output => r.output

/-- The report with another text in a part. -/
def setPart (r : Report) (text : String) : Part → Report
  | .diagnostics => { r with diagnostics := some text }
  | .exception => { r with exception := some text }
  | .output => { r with output := some text }

/-- The blocks of a report by their headings, in the order in which they are shown. -/
def blocks (r : Report) : List (String × String) :=
  ("Input", r.input) :: [("Output", r.output), ("Compilation Errors", r.diagnostics),
    ("Exception", r.exception)].filterMap fun (heading, body) ↦ body.map (heading, ·)

/-- Whether every block fits into a field and nothing else forbids a document. -/
def isEmbeddable (limit : Nat) (r : Report) : Bool :=
  r.rich && r.blocks.all fun (_, body) ↦ decide (body.length ≤ limit)

/-- The report as a document. -/
def document (r : Report) : Document where
  title := r.title
  description := r.description
  fields := r.blocks.map fun (heading, body) ↦ ⟨heading, body, false⟩
  footer := r.footer.map fun text ↦ ⟨text, r.footerIcon⟩
  color := r.color
  timestamp := some r.timestamp

/-- A text without the line breaks at its end. -/
def trimBreaks (s : List Char) : List Char :=
  (s.reverse.dropWhile (· == '\n')).reverse

/-- A heading in bold face. -/
def heading (text : String) : List Char :=
  ['*', '*'] ++ text.toList ++ ['*', '*']

/-- The lines of the plain text. -/
def plainLines (r : Report) : List (List Char) :=
  heading r.title ::
    ((if r.description.isEmpty then [] else [r.description.toList]) ++
      r.blocks.flatMap (fun (name, body) ↦ [heading name, trimBreaks body.toList]) ++
      (r.footer.map String.toList).toList)

/-- The report as one text. -/
def plain (r : Report) : List Char :=
  ['\n'].intercalate r.plainLines

/-- Cuts one part by as much as the plain text passes a limit. -/
def shrink (limit : Nat) (r : Report) (part : Part) : Report :=
  -- zero where the text fits: the subtraction ends there
  let excess := r.plain.length - limit
  match if excess = 0 then none else r.part? part with
  | none => r
  | some body =>
    let body := trimBreaks body.toList
    r.setPart (String.ofList (Text.cut body (body.length - excess))) part

/-- The plain text within a limit, and whether it had to be cut as a whole. -/
def plainBounded (limit : Nat) (r : Report) : List Char × Bool :=
  let text := ([Part.diagnostics, .exception, .output].foldl (shrink limit) r).plain
  if text.length ≤ limit then (text, false) else (Text.cutPlain text limit, true)

/-- The form in which a report is sent. -/
def deliver (limits : SizeLimits) (r : Report) : Delivery :=
  if r.isEmbeddable limits.field then ⟨.ofDocument r.document, false⟩
  else
    let (text, hardCut) := r.plainBounded limits.message
    ⟨.ofText (String.ofList text), hardCut⟩

end Report

end Snippet
