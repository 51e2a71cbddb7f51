import Snippet.Host.Snapshot
import Snippet.Template.Helper
import Snippet.Template.Parse

/-!
# Rendering a template

Elements are rendered in their order, and so are the arguments of a call before the call itself:
a reply is sent as soon as the call that sends it is reached. A name that is not a helper's is
looked up in the data, and what is missing there has no text.
-/

namespace Snippet.Template

mutual

/-- What a parameter comes to. -/
def Param.eval (data : Json) (frames : List Frame) : Param → Rendering Found
  | .path path =>
    match path.find data frames with
    | .ok found => return found
    | .error name => throw (.badIndex name)
  | .literal value => return .value value
  | .call helper params options => do
    let params ← evalParams data frames params
    let options ← evalOptions data frames options
    match Helper.ofName? helper with
    | some h => h.apply params options
    | none => throw (.unknownHelper helper)

/-- What parameters come to. -/
def evalParams (data : Json) (frames : List Frame) : List Param → Rendering (List Found)
  | [] => return []
  | param :: rest => do
    let found ← param.eval data frames
    return found :: (← evalParams data frames rest)

/-- What parameters with names come to. -/
def evalOptions (data : Json) (frames : List Frame) :
    List (String × Param) → Rendering (List (String × Found))
  | [] => return []
  | (name, param) :: rest => do
    let found ← param.eval data frames
    return (name, found) :: (← evalOptions data frames rest)

end

/-- The helper of a call, with what its arguments come to. -/
def Call.eval (data : Json) (frames : List Frame) (call : Call) :
    Rendering (Helper × List Found × List (String × Found)) := do
  let params ← evalParams data frames call.params
  let options ← evalOptions data frames call.options
  match Helper.ofName? call.helper with
  | some h => return (h, params, options)
  | none => throw (.unknownHelper call.helper)

/-- The text of a tag without arguments. A call in its place is made twice: once for the name of a
helper, and once for the value. -/
def renderValue (data : Json) (frames : List Frame) (source : Param) : Rendering String := do
  match source with
  | .path path =>
    match Helper.ofName? path.text with
    | some h => return rendered (← h.apply [] []).json
    | none => return rendered (← source.eval data frames).json
  | _ =>
    let name := rendered (← source.eval data frames).json
    let found ← source.eval data frames
    match Helper.ofName? name with
    | some h => return rendered (← h.apply [] []).json
    | none => return rendered found.json

/-- A decorator defines a partial, which no template can use, or it is unknown. -/
def checkDecorator (data : Json) (frames : List Frame) (call : Call) (hasBody : Bool) :
    Rendering Unit := do
  let params ← evalParams data frames call.params
  let _ ← evalOptions data frames call.options
  -- arguments are worked out before the name is looked at
  if call.helper != "inline" then throw (.unknownDecorator call.helper)
  match params.head?.map Found.json with
  | some (.string _) => if hasBody then return () else throw .badPartial
  | _ => throw .badPartial

mutual

/-- The text of an element. -/
def Element.render (data : Json) (frames : List Frame) : Element → Rendering String
  | .text text => return text
  -- nothing is escaped, markup or not
  | .value _ source _ _ => renderValue data frames source
  | .call _ call _ _ => do
    let (h, params, options) ← call.eval data frames
    return rendered (← h.apply params options).json
  | .block call names body otherwise => do
    let (h, params, options) ← call.eval data frames
    h.renderBlock params options names frames (fun frames ↦ renderNested data frames body)
      (renderNested data frames otherwise)
  | .comment => return ""
  | .decorator call body => do
    checkDecorator data frames call body.isSome
    return ""
  | .inclusion _ => return ""

/-- The text of elements, where there are any. -/
def renderNested (data : Json) (frames : List Frame) : Option (List Element) → Rendering String
  | none => return ""
  | some elements => renderAll data frames elements

/-- The text of elements. -/
def renderAll (data : Json) (frames : List Frame) : List Element → Rendering String
  | [] => return ""
  | e :: rest => do
    let text ← e.render data frames
    return text ++ (← renderAll data frames rest)

end

/-- Why there is no text. -/
inductive Failure where
  | compile (message : String)
  | render (error : RenderError)
  deriving DecidableEq, Repr, Inhabited

/-- The wording of a failure. -/
def Failure.message : Failure → String
  | compile message => "Template failed: " ++ message
  | render error => "Template failed: " ++ error.message

/-- Renders a template against the snapshot of a context. The answer holds the reply channel behind
the rendering. The host is asked only once the template is known to be one. -/
def evaluateWith (parser : Parser) (context : Context) (source : String) (outbox : Outbox) :
    HostAnswer (Except Failure String) × Outbox :=
  match compileWith parser source with
  | .error message => (.ok (.error (.compile message)), outbox)
  | .ok elements =>
    match context.snapshot with
    | .error text => (.error text, outbox)
    | .ok data =>
      match renderAll data [] elements outbox with
      | .ok text outbox => (.ok (.ok text), outbox)
      | .error e outbox => (.ok (.error (.render e)), outbox)

/-- Renders what is a template to the parser of this grammar. -/
def evaluate (context : Context) (source : String) (outbox : Outbox) :
    HostAnswer (Except Failure String) × Outbox :=
  evaluateWith standardParser context source outbox

end Snippet.Template
