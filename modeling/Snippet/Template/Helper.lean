import Snippet.Host.Context
import Snippet.Template.Comparison
import Snippet.Template.Scope

/-!
# Helpers

A tag with arguments calls a helper, which gives a value. A helper that opens a block may also
render the block's body or its other branch: the block helpers proper, which give the empty text
without a block, and the helpers that answer yes or no. All others give their value there, too.

Rendering sends replies on the way, and those sent before an error stay sent.
-/

namespace Snippet.Template

/-- What a template may call. -/
inductive Helper where
  /-- Renders the body if its argument counts as true, or only if it does not. -/
  | choose (whenTrue : Bool)
  | each
  | inside
  | raw
  | log
  | lookup
  | relation (relation : Relation)
  | all
  | any
  | negation
  | size
  | send
  | join
  | shorten
  deriving DecidableEq, Repr, Inhabited

namespace Helper

/-- The helpers by their names in templates. -/
def table : List (String × Helper) :=
  [("if", .choose true), ("unless", .choose false), ("each", .each), ("with", .inside),
    ("raw", .raw), ("log", .log), ("lookup", .lookup), ("eq", .relation .equal),
    ("ne", .relation .unequal), ("gt", .relation .greater), ("gte", .relation .atLeast),
    ("lt", .relation .less), ("lte", .relation .atMost), ("and", .all), ("or", .any),
    ("not", .negation), ("len", .size), ("create_message", .send), ("join", .join),
    ("truncate", .shorten)]

/-- The helper with a name. -/
def ofName? (name : String) : Option Helper :=
  table.lookup name

/-- The name of a helper. -/
def name (h : Helper) : String :=
  ((table.find? (·.2 == h)).map (·.1)).getD ""

end Helper

/-- Why a template cannot be rendered to its end. -/
inductive RenderError where
  | unknownHelper (name : String)
  | unknownDecorator (name : String)
  | missingParam (name : String) (index : Nat)
  | badPartial
  | badIndex (name : String)
  | badLogLevel (level : String)
  deriving DecidableEq, Repr, Inhabited

/-- The wording of an error. -/
def RenderError.message : RenderError → String
  | unknownHelper name => "helper not defined: " ++ name
  | unknownDecorator name => "decorator not defined: " ++ name
  | missingParam name index => "helper " ++ name ++ " needs a parameter at " ++ toString index
  | badPartial => "a partial needs a name and a body"
  | badIndex name => "invalid array index " ++ name
  | badLogLevel level => "invalid log level " ++ level

/-- A part of the rendering: it may send replies and fail. -/
abbrev Rendering (α : Type) :=
  EStateM RenderError Outbox α

/-- The levels at which a template may log. -/
def logLevels : List String :=
  ["error", "warn", "info", "debug", "trace"]

/-- The texts of the items of an array with a separator between them; nothing for other values. -/
def joined (separator : Json) : Json → String
  | .array items =>
    (separator.string?.getD ", ").intercalate (items.map argumentText)
  | _ => ""

/-- The first characters of a text, with three points where some are left out. -/
def firstChars (limit : Nat) (text : String) : String :=
  if limit < text.length then String.ofList (text.toList.take limit) ++ "..." else text

/-- The number of parts of a value, and of bytes of a text. -/
def sizeOfJson : Json → Nat
  | .array items => items.length
  | .object members => members.length
  | .string s => s.utf8ByteSize
  | _ => 0

/-- The part of a value that another value names; an array takes numbers and an object texts. -/
def partAt (value key : Json) : Found :=
  match value with
  | .array items => ((key.nat?.bind fun i ↦ items[i]?)).elim .missing .value
  | .object members => ((key.string?.bind fun name ↦ members.lookup name)).elim .missing .value
  | _ => .missing

namespace Helper

/-- A parameter that a helper cannot do without. -/
def param (h : Helper) (params : List Found) (index : Nat) : Rendering Json :=
  match params[index]? with
  | some found => return found.json
  | none => throw (.missingParam h.name index)

/-- What a helper gives without a block. -/
def apply (h : Helper) (params : List Found) (options : List (String × Found)) :
    Rendering Found := do
  let text (s : String) : Found := .value (.string s)
  match h with
  | choose _ | each | inside =>
    let _ ← h.param params 0
    return text ""
  | raw => return text ""
  | log =>
    let level := (((options.lookup "level").bind (·.json.string?))).getD "info"
    if logLevels.contains (level.map Char.toLower) then return text ""
    else throw (.badLogLevel level)
  | lookup => return partAt (← h.param params 0) (← h.param params 1)
  | relation r => return .value (.bool (r.holds (← h.param params 0) (← h.param params 1)))
  | all => return .value (.bool (params.all (isTruthy ·.json)))
  | any => return .value (.bool (params.any (isTruthy ·.json)))
  | negation => return .value (.bool !(isTruthy (← h.param params 0)))
  | size => return .value (.int (sizeOfJson (← h.param params 0)))
  | send =>
    modify fun outbox ↦ outbox.emit (" ".intercalate (params.map (argumentText ·.json)))
    return text ""
  | join =>
    let given (i : Nat) : Json := (params[i]?).elim .null Found.json
    return text (joined (given 1) (given 0))
  | shorten =>
    let given (i : Nat) : Json := (params[i]?).elim .null Found.json
    return text (firstChars ((given 1).nat?.getD 100) (argumentText (given 0)))

/-! ### Blocks -/

/-- One round of a block that is rendered for each part of a value. -/
structure Round where
  name : String
  value : Json
  /-- What tells the round from the others: the index or the name. -/
  key : Json
  locals : List (String × Json)

/-- The rounds for the parts of a value. -/
def rounds (value : Json) : List Round :=
  let place (i n : Nat) : List (String × Json) :=
    [("first", .bool (i == 0)), ("last", .bool (i + 1 == n)), ("index", .int i)]
  match value with
  | .array items => items.mapIdx fun i item ↦ ⟨toString i, item, .int i, place i items.length⟩
  | .object members => members.mapIdx fun i (name, member) ↦
      ⟨name, member, .string name, ("key", .string name) :: place i members.length⟩
  | _ => []

/-- The block of a round. Its first name stands for the part, and its second one for the key. -/
def Round.frame (round : Round) (found : Found) (names : List String) : Frame :=
  let base := found.partBase round.name round.value
  let given :=
    match names with
    | [part] => [(part, base)]
    | [part, key] => [(key, .value round.key), (part, base)]
    | _ => []
  ⟨base, round.locals, given⟩

/-- The block that stands for a value. It keeps the variables of the block around it. -/
def insideFrame (found : Found) (names : List String) (frames : List Frame) : Frame :=
  let given :=
    match names with
    | [name] => [(name, found.base)]
    | _ => []
  ⟨found.base, frames.head?.elim [] Frame.locals, given⟩

/-- The text of a block. `body` renders what is in it under further frames, and `otherwise` the
other branch. -/
def renderBlock (h : Helper) (params : List Found) (options : List (String × Found))
    (names : List String) (frames : List Frame) (body : List Frame → Rendering String)
    (otherwise : Rendering String) : Rendering String := do
  match h with
  | choose whenTrue =>
    let value ← h.param params 0
    -- `includeZero` makes every number count as true
    let zeroCounts := ((options.lookup "includeZero").map Found.json) matches some (.bool true)
    let truth := isTruthy value || zeroCounts && value matches .int _ | .float _
    if truth == whenTrue then body frames else otherwise
  | inside =>
    let value ← h.param params 0
    if isTruthy value then
      body (insideFrame (params.headD .missing) names frames :: frames)
    else otherwise
  | each =>
    let value ← h.param params 0
    match rounds value with
    | [] => otherwise
    | rounds =>
      let texts ← rounds.mapM fun round ↦
        body (round.frame (params.headD .missing) names :: frames)
      return String.join texts
  | raw => body frames
  | relation _ | all | any | negation =>
    -- an answer chooses the branch, and is not written itself
    if isTruthy (← h.apply params options).json then body frames else otherwise
  | _ => return rendered (← h.apply params options).json

end Helper

end Snippet.Template
