import Snippet.Service.Counters
import Snippet.Service.Request

/-!
# The service

The service answers requests one after the other. Only its counters are kept from one request to
the next: each command gets a reply channel of its own, and everything sent on it is part of the
answer.
-/

namespace Snippet

namespace Service

/-- What an answer holds beside its status. -/
inductive Content where
  | nothing
  | json (value : Json)
  | text (text : String)
  deriving Repr, Inhabited

/-- The answer to a request. -/
structure Answer where
  status : Nat
  content : Content
  deriving Repr, Inhabited

/-- The status of a response. -/
def Verdict.status : Verdict → Nat
  | ok | empty => 200
  | badRequest => 400

/-- The status of a body that cannot be read. -/
def mismatchStatus : Json.Mismatch → Nat
  | .malformed => 400
  | .mistyped => 422

/-- The JSON form of a response with the replies sent before it. -/
def resultJson (response : Response) (replies : List Message) : Json :=
  .object [("result", response.toJson), ("replies", .array (replies.map Message.toJson))]

/-- The version that the service reports. -/
def version : String := "1.0.0"

end Service

open Service

/-- A running service. -/
structure Service where
  settings : Settings
  /-- Who the service answers as. -/
  bot : Identity
  accent : Option Color
  counters : Counters
  deriving Repr, Inhabited

namespace Service

/-- A service that has not answered anything. -/
def start (settings : Settings) (bot : Identity) (accent : Option Color) : Service :=
  ⟨settings, bot, accent, .none⟩

/-- The outcome of one command. -/
structure Completed where
  command : Command
  response : Response
  replies : List Message
  deriving Repr, Inhabited

/-- What a command is counted as. -/
def Completed.verdict (c : Completed) : Verdict :=
  .ofResponse c.response

/-- The answer to a command. -/
def Completed.answer (c : Completed) : Answer :=
  ⟨c.verdict.status, .json (resultJson c.response c.replies)⟩

/-- Runs a command on a reply channel of its own. -/
def complete (s : Service) (clock : Clock) (now : Instant) (traceId : String) (command : Command)
    (order : Order) : Completed :=
  let context := Context.ofBot s.bot s.accent order.invoker now traceId
  let (response, outbox) :=
    Command.call s.settings context clock command.name order.source (.fresh true)
  ⟨command, response, outbox.drain.1⟩

/-- Counts a command. -/
def count (s : Service) (c : Completed) : Service :=
  { s with counters := s.counters.record c.command c.verdict c.replies.length }

/-- Answers a request. A question about what may be asked is answered for every path, and a
request for the head of an answer gets the status without the content. -/
def handle (s : Service) (clock : Command → Clock) (now : Instant) (traceId : String)
    (request : Request) : Answer × Service :=
  if request.method = "OPTIONS" then (⟨200, .text ""⟩, s)
  else
    match Route.ofPath? request.path with
    | none => (⟨404, .nothing⟩, s)
    | some route =>
      if !route.methods.contains request.method then (⟨405, .nothing⟩, s)
      else if request.method = "HEAD" then (⟨200, .text ""⟩, s)
      else
        match route with
        | .health => (⟨200, .json (.object [("status", .string "ok"),
            ("version", .string version)])⟩, s)
        | .counters => (⟨200, .text s.counters.text⟩, s)
        | .command command =>
          -- the kind of body is looked at before the body
          if !request.isJson then (⟨415, .nothing⟩, s)
          else
            match Order.ofBody request.body with
            | .error mismatch => (⟨mismatchStatus mismatch, .nothing⟩, s)
            | .ok order =>
              let completed := s.complete (clock command) now traceId command order
              (completed.answer, s.count completed)

end Service

end Snippet
