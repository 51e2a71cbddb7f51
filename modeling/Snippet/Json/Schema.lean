import Snippet.Json.Reader

/-!
# Reading JSON of a given form

A schema says what a text is to hold. `readAs` reads a text by its schema in one pass and tells the
first thing that is wrong with it: the text is no JSON, or it is of another form.

A record is written as an object, whose members may stand in any order, or as an array with one
item for each field in the order of the fields. Members that the schema does not know may hold
anything. What a field is when it is left out belongs to the schema.
-/

namespace Snippet.Json

/-- What a text is to hold. -/
inductive Schema where
  | text
  /-- A whole number of 64 bits without a sign. -/
  | natural
  /-- This or null. -/
  | optional (schema : Schema)
  /-- Fields by their names, with the values of those that may be left out. -/
  | record (fields : List (String × Schema × Option Json))
  deriving Repr, Inhabited

/-- The fields of a record. -/
abbrev Fields :=
  List (String × Schema × Option Json)

/-- What is wrong with a text. -/
inductive Mismatch where
  | malformed
  | mistyped
  deriving DecidableEq, Repr, Inhabited

namespace Schema

/-- A record that is being read, with the fields that it has so far. -/
inductive Frame where
  /-- The record as an object. The member being read is the one named last. -/
  | members (fields : Fields) (found : List (String × Json)) (name : String)
  /-- The record as an array. Its fields still to come are `rest`; the next item is the first of
  them. -/
  | items (rest : Fields) (found : List (String × Json))
  deriving Repr, Inhabited

/-- What is read next. -/
inductive Phase where
  | value (schema : Schema)
  /-- A value that no field wants. -/
  | ignored (machine : Machine)
  | itemOrClose
  | name
  | nameOrClose
  | colon (schema : Option Schema)
  | commaOrClose
  | done (result : Json)
  deriving Repr, Inhabited

/-- A reader: the open records, innermost first, and its phase. -/
structure Reader where
  frames : List Frame
  phase : Phase
  deriving Repr, Inhabited

namespace Reader

/-- A value of the schema is complete. -/
def put (value : Json) : List Frame → Reader
  | [] => ⟨[], .done value⟩
  | .members fields found name :: rest =>
    ⟨.members fields ((name, value) :: found) name :: rest, .commaOrClose⟩
  | .items [] found :: rest => ⟨.items [] found :: rest, .commaOrClose⟩
  | .items ((name, _, _) :: fields) found :: rest =>
    ⟨.items fields ((name, value) :: found) :: rest, .commaOrClose⟩

/-- A record is complete: fields that were not found have what stands for them. -/
def close (fields : Fields) (found : List (String × Json)) (frames : List Frame) :
    Except Mismatch Reader := do
  let rest ← fields.filterMapM fun (name, _, default) ↦
    if (found.lookup name).isSome then .ok none
    else
      match default with
      | some value => .ok (some (name, value))
      | none => .error Mismatch.mistyped
  return put (.object (found.reverse ++ rest)) frames

/-- Takes the first token of a value. -/
def takeValue (frames : List Frame) (token : Token) : Schema → Except Mismatch Reader
  | .optional schema =>
    match token with
    | .scalar .null => .ok (put .null frames)
    | _ => takeValue frames token schema
  | .text =>
    match token with
    | .text s => .ok (put (.string s) frames)
    | .scalar _ | .punct '[' | .punct '{' => .error .mistyped
    | _ => .error .malformed
  | .natural =>
    match token with
    | .scalar (.int n) => if 0 ≤ n then .ok (put (.int n) frames) else .error .mistyped
    | .scalar _ | .text _ | .punct '[' | .punct '{' => .error .mistyped
    | _ => .error .malformed
  | .record fields =>
    match token with
    | .punct '[' => .ok ⟨.items fields [] :: frames, .itemOrClose⟩
    | .punct '{' => .ok ⟨.members fields [] "" :: frames, .nameOrClose⟩
    | .scalar _ | .text _ => .error .mistyped
    | _ => .error .malformed

/-- Takes a name of a member. A field may be named once. -/
def takeName (name : String) (fields : Fields) (found : List (String × Json))
    (frames : List Frame) : Except Mismatch Reader :=
  match fields.lookup name with
  | none => .ok ⟨.members fields found name :: frames, .colon none⟩
  | some (schema, _) =>
    if (found.lookup name).isSome then .error .mistyped
    else .ok ⟨.members fields found name :: frames, .colon (some schema)⟩

/-- Takes a token of a value that no field wants. -/
def takeIgnored (frames : List Frame) (machine : Machine) (token : Token) :
    Except Mismatch Reader :=
  let token : Token :=
    match token with
    | .hollow => .scalar .null
    | token => token
  match machine.step? token with
  | some ⟨_, .done _⟩ => .ok ⟨frames, .commaOrClose⟩
  | some machine => .ok ⟨frames, .ignored machine⟩
  | none => .error .malformed

/-- Takes a token. -/
def step (r : Reader) (token : Token) : Except Mismatch Reader :=
  match r.phase, token, r.frames with
  | .value schema, token, frames => takeValue frames token schema
  | .ignored machine, token, frames => takeIgnored frames machine token
  | .itemOrClose, .punct ']', .items fields found :: frames
  | .commaOrClose, .punct ']', .items fields found :: frames => close fields found frames
  | .itemOrClose, token, .items ((name, schema, default) :: fields) found :: frames =>
    takeValue (.items ((name, schema, default) :: fields) found :: frames) token schema
  | .commaOrClose, .punct ',', .items ((name, schema, default) :: fields) found :: frames =>
    .ok ⟨.items ((name, schema, default) :: fields) found :: frames, .value schema⟩
  | .nameOrClose, .punct '}', .members fields found _ :: frames
  | .commaOrClose, .punct '}', .members fields found _ :: frames => close fields found frames
  | .nameOrClose, .text name, .members fields found _ :: frames
  | .name, .text name, .members fields found _ :: frames => takeName name fields found frames
  | .colon (some schema), .punct ':', frames => .ok ⟨frames, .value schema⟩
  | .colon none, .punct ':', frames => .ok ⟨frames, .ignored .start⟩
  | .commaOrClose, .punct ',', .members fields found name :: frames =>
    .ok ⟨.members fields found name :: frames, .name⟩
  | _, _, _ => .error .malformed

end Reader

/-- What a text holds, or what is wrong with it. -/
def readAs (schema : Schema) (text : String) : Except Mismatch Json := do
  let reader ← (tokens text).foldlM Reader.step ⟨[], .value schema⟩
  match reader.phase with
  | .done value => return value
  | _ => throw .malformed

end Schema

end Snippet.Json
