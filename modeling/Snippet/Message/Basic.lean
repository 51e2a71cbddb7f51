import Snippet.Host.Identity
import Snippet.Instant

/-!
# Messages and responses

A message is what is sent to the chat: a text, a document with titled fields, or both. A response
is what a command ends with: a message, a complaint to the user, or nothing.
-/

namespace Snippet

/-- A titled part of a document. -/
structure Field where
  name : String
  value : String
  inline : Bool
  deriving DecidableEq, Repr, Inhabited

/-- The line under a document. -/
structure Footer where
  text : String
  icon : Option String
  deriving DecidableEq, Repr, Inhabited

/-- A message in the rich format of the chat. -/
structure Document where
  title : String
  description : String
  fields : List Field
  footer : Option Footer
  color : Option Color
  timestamp : Option Instant
  deriving DecidableEq, Repr, Inhabited

/-- The first field with a name. -/
def Document.field? (d : Document) (name : String) : Option Field :=
  d.fields.find? (·.name == name)

/-- What is sent to the chat. -/
structure Message where
  content : Option String
  document : Option Document
  deriving DecidableEq, Repr, Inhabited

namespace Message

/-- A message of text only. -/
def ofText (text : String) : Message :=
  ⟨some text, none⟩

/-- A message of a document only. -/
def ofDocument (document : Document) : Message :=
  ⟨none, some document⟩

end Message

/-- What a command ends with. -/
inductive Response where
  | ok (message : Message)
  | badRequest (reason : String)
  | empty
  deriving DecidableEq, Repr, Inhabited

namespace Response

/-- A response of one text. -/
def ofText (text : String) : Response :=
  .ok (.ofText text)

/-- The message to send for a response. -/
def message? : Response → Option Message
  | ok message => some message
  | badRequest reason => some (.ofText ("Error: " ++ reason))
  | empty => none

/-- Whether the command did what it was asked for. -/
def isOk : Response → Bool
  | badRequest _ => false
  | _ => true

end Response

end Snippet
