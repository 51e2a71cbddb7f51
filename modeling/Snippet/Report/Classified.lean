import Snippet.Value.Display

/-!
# How a value is displayed

A value is a plain text, a list of texts, a list of texts under keys, an object, a ready response,
or nothing. The texts of a collection are taken up to the first that passes the limit; a report
could not show more of them.
-/

namespace Snippet

/-- The form in which a value is displayed. -/
inductive Classified where
  | scalar (text : String)
  | mapping (typeName : String) (entries : List (String × String))
  | sequence (typeName : String) (items : List String)
  | object (typeName text : String)
  | response (response : Response)
  | none
  deriving DecidableEq, Repr, Inhabited

namespace Classified

/-- Texts of items, as long as those in front of them do not pass a limit. -/
def textsWithin {α β : Type} (text : α → β) (size : β → Nat) (limit chars : Nat) :
    List α → List β
  | [] => []
  | item :: rest =>
    if limit < chars then []
    else
      let entry := text item
      entry :: textsWithin text size limit (chars + size entry) rest

/-- The form of a value. -/
def ofValue (limit : Nat) : Value → Classified
  | .null => .none
  | .response r => .response r
  | .string s => .scalar s
  | .map entries =>
    .mapping "map" (textsWithin (fun (k, v) ↦ (k, v.toText limit))
      (fun (k, v) ↦ k.length + v.length) limit 0 entries)
  | .list items => .sequence "list" (textsWithin (Value.toText limit) String.length limit 0 items)
  | .object kind _ text => .object kind.name text
  | v => .scalar (v.toText limit)

/-- The form of a value that may be missing. -/
def ofOption (limit : Nat) : Option Value → Classified
  | some v => ofValue limit v
  | Option.none => .none

/-- Only a plain text fits into a field of a document. -/
def fitsField : Classified → Bool
  | scalar _ => true
  | _ => false

/-- A line with one text. -/
def bullet (text : String) : String :=
  "- ``" ++ text ++ "``\n"

/-- A line with a key and a text. -/
def keyedBullet (entry : String × String) : String :=
  "- ``" ++ entry.1 ++ "``: ``" ++ entry.2 ++ "``\n"

/-- The text to show. Forms with parts have a line that names the type and a line for each part.
-/
def displayText? : Classified → Option String
  | scalar text => some text
  | mapping typeName entries =>
    some ("Dictionary of type ``" ++ typeName ++ "``\n" ++ String.join (entries.map keyedBullet))
  | sequence typeName items =>
    some ("Enumerable of type ``" ++ typeName ++ "``\n" ++ String.join (items.map bullet))
  | object typeName text => some ("Object of type ``" ++ typeName ++ "``\n" ++ bullet text)
  | response _ | none => Option.none

end Classified

end Snippet
