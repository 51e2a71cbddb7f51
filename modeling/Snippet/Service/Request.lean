import Snippet.Command
import Snippet.Json.Schema
import Snippet.Message.Wire

/-!
# Requests

A request asks for one thing of the service by its method and path. The body of a command holds
the text that the command is called with, and who calls it.
-/

namespace Snippet.Service

/-- What a request asks for. -/
inductive Route where
  | command (command : Command)
  | health
  | counters
  deriving DecidableEq, Repr, Inhabited

namespace Route

/-- Every route. -/
def all : List Route :=
  Command.all.map .command ++ [.health, .counters]

/-- The path of a route. -/
def path : Route → String
  | command c => "/v1/sys/" ++ c.name
  | health => "/v1/health"
  | counters => "/metrics"

/-- The route of a path. A query behind the path is passed over. -/
def ofPath? (path : String) : Option Route :=
  let path := String.ofList (path.toList.takeWhile fun c ↦ c != '?' && c != '#')
  all.find? (·.path == path)

/-- The methods that a route answers to. -/
def methods : Route → List String
  | command _ => ["POST"]
  | health | counters => ["GET", "HEAD"]

end Route

/-- A request as it arrives. -/
structure Request where
  method : String
  path : String
  /-- Whether the body is said to be JSON. -/
  isJson : Bool
  body : String
  deriving Repr, Inhabited

/-- What a command is called with. -/
structure Order where
  source : String
  invoker : Identity
  deriving Repr, Inhabited

namespace Order

/-- Who calls a command that nobody is named for. -/
def anonymous : Identity :=
  ⟨0, "anonymous", none⟩

/-- The form of an identity. -/
def identitySchema : Json.Schema :=
  .record [("id", .natural, none), ("name", .text, none),
    ("avatar_url", .optional .text, some .null)]

/-- The form of the body of a command. -/
def schema : Json.Schema :=
  .record [("source", .text, some (.string "")),
    ("invoker", .optional identitySchema, some .null)]

/-- Reads the body of a command. -/
def ofBody (body : String) : Except Json.Mismatch Order := do
  let j ← schema.readAs body
  return ⟨((j.get? "source").bind Json.string?).getD "",
    ((j.present? "invoker").bind Identity.ofJson?).getD anonymous⟩

end Order

end Snippet.Service
