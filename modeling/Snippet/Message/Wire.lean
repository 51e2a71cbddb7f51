import Snippet.Json.Basic
import Snippet.Message.Basic

/-!
# The wire form of messages

Responses are JSON objects with a tag in `kind` and their content in `body`. Parts that are absent
are left out. Reading accepts members in any order and ignores those it does not know; a part that
may be absent may also be null.
-/

namespace Snippet

/-- The JSON form of an identity. -/
def Identity.toJson (i : Identity) : Json :=
  .ofMembers [("id", some (.int i.id.toNat)), ("name", some (.string i.name)),
    ("avatar_url", i.avatar.map .string)]

/-- The identity of a JSON form. -/
def Identity.ofJson? (j : Json) : Option Identity := do
  let id ← (← j.get? "id").nat?
  let name ← (← j.get? "name").string?
  guard (id < UInt64.size)
  match j.present? "avatar_url" with
  | none => return ⟨.ofNat id, name, none⟩
  | some avatar => return ⟨.ofNat id, name, some (← avatar.string?)⟩

/-- Reads a member that may be absent or null. -/
def optionalMember {α : Type} (name : String) (read : Json → Option α) (j : Json) :
    Option (Option α) :=
  match j.present? name with
  | none => some none
  | some value => (read value).map some

/-- The JSON form of a field. -/
def Field.toJson (f : Field) : Json :=
  .object [("name", .string f.name), ("value", .string f.value), ("inline", .bool f.inline)]

/-- The field of a JSON form. -/
def Field.ofJson? (j : Json) : Option Field := do
  let name ← (← j.get? "name").string?
  let value ← (← j.get? "value").string?
  match j.get? "inline" with
  | some (.bool inline) => return ⟨name, value, inline⟩
  | _ => none

/-- The JSON form of a footer. -/
def Footer.toJson (f : Footer) : Json :=
  .ofMembers [("text", some (.string f.text)), ("icon_url", f.icon.map .string)]

/-- The footer of a JSON form. -/
def Footer.ofJson? (j : Json) : Option Footer := do
  let text ← (← j.get? "text").string?
  return ⟨text, ← optionalMember "icon_url" Json.string? j⟩

/-- The colour of a JSON form. -/
def Color.ofJson? (j : Json) : Option Color := do
  let word ← j.nat?
  guard (word < UInt32.size)
  return ⟨.ofNat word⟩

/-- The instant of a JSON form. -/
def Instant.ofJson? (j : Json) : Option Instant := do
  Instant.ofText? (← j.string?)

/-- The JSON form of a document. -/
def Document.toJson (d : Document) : Json :=
  .ofMembers [("title", some (.string d.title)), ("description", some (.string d.description)),
    ("fields", some (.array (d.fields.map Field.toJson))), ("footer", d.footer.map Footer.toJson),
    ("color", d.color.map fun c ↦ .int c.word.toNat),
    ("timestamp", d.timestamp.map fun t ↦ .string t.text)]

/-- The document of a JSON form. -/
def Document.ofJson? (j : Json) : Option Document := do
  let title ← (← j.get? "title").string?
  let description ← (← j.get? "description").string?
  let fields ← (← (← j.get? "fields").array?).mapM Field.ofJson?
  return ⟨title, description, fields, ← optionalMember "footer" Footer.ofJson? j,
    ← optionalMember "color" Color.ofJson? j, ← optionalMember "timestamp" Instant.ofJson? j⟩

/-- The JSON form of a message. -/
def Message.toJson (m : Message) : Json :=
  .ofMembers [("content", m.content.map .string), ("embed", m.document.map Document.toJson)]

/-- The message of a JSON form. -/
def Message.ofJson? (j : Json) : Option Message := do
  return ⟨← optionalMember "content" Json.string? j,
    ← optionalMember "embed" Document.ofJson? j⟩

/-- The JSON form of a response. -/
def Response.toJson : Response → Json
  | .ok message => .object [("kind", .string "ok"), ("body", message.toJson)]
  | .badRequest reason => .object [("kind", .string "bad_request"), ("body", .string reason)]
  | .empty => .object [("kind", .string "empty")]

/-- The response of a JSON form. -/
def Response.ofJson? (j : Json) : Option Response := do
  match ← (← j.get? "kind").string? with
  | "ok" => return .ok (← Message.ofJson? (← j.get? "body"))
  | "bad_request" => return .badRequest (← (← j.get? "body").string?)
  | "empty" => return .empty
  | _ => none

end Snippet
