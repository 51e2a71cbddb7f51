import Snippet.Decimal.Reader
import Snippet.Json.Writer
import Snippet.Template.Tree

/-!
# Looking up names in a template

Names are looked up in the data of the innermost block, which is a part of the template's data, or
a value that was made up on the way. A block also has variables, its own or those of the block
around it, and names that its tag gave to what the block stands for; the names are seen from the
blocks inside it.

The empty list of blocks is the template itself, which looks names up in all of the data.
-/

namespace Snippet.Template

/-- What a block stands for: the value at a place of the template's data, or any other value. -/
inductive Base where
  | place (names : List String)
  | value (value : Json)
  deriving Repr, Inhabited

/-- A block that is being rendered. -/
structure Frame where
  base : Base
  /-- The variables, such as the number of the round. -/
  locals : List (String × Json)
  /-- What the names given by the tag stand for. -/
  names : List (String × Base)
  deriving Repr, Inhabited

/-- What a parameter came to. A value of the template's data keeps its place there. -/
inductive Found where
  | missing
  | at (names : List String) (value : Json)
  | value (value : Json)
  deriving Repr, Inhabited

namespace Found

/-- The value, or null if there is none. -/
def json : Found → Json
  | missing => .null
  | .at _ j | value j => j

/-- What a block over it stands for. -/
def base : Found → Base
  | missing => .value .null
  | .at names _ => .place names
  | value j => .value j

/-- What a block over a part of it stands for, given the part's name and value. -/
def partBase (name : String) (part : Json) : Found → Base
  | .at names _ => .place (names ++ [name])
  | _ => .value part

end Found

/-- The part of a value with a name; of an array, the item with that index. An array has no parts
with other names, and asking for one is an error, which is answered by the name. -/
def part (value : Json) (name : String) : Except String (Option Json) :=
  match value with
  | .array items =>
    match Decimal.natOfText? name with
    | some i => .ok items[i]?
    | none => .error name
  | .object members => .ok (members.lookup name)
  | _ => .ok none

/-- The value behind some names. -/
def follow (value : Json) : List String → Except String (Option Json)
  | [] => .ok (some value)
  | name :: rest =>
    match part value name with
    | .ok (some inner) => follow inner rest
    | .ok none => .ok none
    | .error bad => .error bad

/-- What is found behind some names from a base. -/
def Base.find (data : Json) (names : List String) : Base → Except String Found
  | .place outer => do
    let names := outer ++ names
    return match ← follow data names with
      | some j => .at names j
      | none => .missing
  | .value j => do
    return match ← follow j names with
      | some j => .value j
      | none => .missing

/-- What the innermost block that gives a name stands for under it. -/
def given? (frames : List Frame) (name : String) : Option Base :=
  frames.findSome? (·.names.lookup name)

/-- The template as a frame around all blocks. -/
def Frame.outermost : Frame :=
  ⟨.place [], [], []⟩

/-- The block some levels out, which is the innermost one if there are not so many. -/
def frameAt (frames : List Frame) (levels : Nat) : Frame :=
  let all := frames ++ [Frame.outermost]
  (all[levels]?).getD (all.headD Frame.outermost)

/-- What a path leads to, or the name that is no index. A name given by a tag is also seen behind
marks that lead outwards, but there it is looked up once more in what it stands for. -/
def Path.find (data : Json) (frames : List Frame) (path : Path) : Except String Found :=
  match path.start with
  | .root => Base.find data path.names (.place [])
  | .locals levels =>
    let locals := (frames[levels]?).elim [] (·.locals)
    .ok ((path.names.head?.bind fun name ↦ locals.lookup name).elim .missing .value)
  | .block levels =>
    match path.names with
    | first :: rest =>
      match given? frames first with
      | some base => base.find data (if levels = 0 then rest else path.names)
      | none => (frameAt frames levels).base.find data path.names
    | [] => (frameAt frames levels).base.find data []

/-! ### Values as text -/

mutual

/-- The text of a value in the output. -/
def rendered : Json → String
  | .string s => s
  | .null => ""
  | .array items => "[" ++ renderedItems items ++ "]"
  | .object _ => "[object]"
  | j => j.compact

/-- The items of an array, with commas between them. -/
def renderedItems : List Json → String
  | [] => ""
  | [j] => rendered j
  | j :: rest => rendered j ++ ", " ++ renderedItems rest

end

/-- The text of a value that is sent, joined or cut: strings stand for themselves, null for
nothing, and other values for their compact form. -/
def argumentText : Json → String
  | .string s => s
  | .null => ""
  | j => j.compact

end Snippet.Template
