import Snippet.Message.Basic

/-!
# The host of an invocation

A snippet reaches the world through its context: the identities, the accent colour, and one
channel for replies. A look-up in the host may break down with a text, which is no fault of the
snippet.

The channel is a value. Sending returns the channel behind the send, so that what was sent, and
in which order, is part of every result.
-/

namespace Snippet

/-- Why the chat refused a message. -/
inductive DeliveryError where
  | missingPermission
  | channelClosed
  | rejected (reason : String)
  deriving DecidableEq, Repr, Inhabited

/-- The wording of a refusal. -/
def DeliveryError.message : DeliveryError → String
  | missingPermission => "missing permission to send messages"
  | channelClosed => "reply channel closed"
  | rejected reason => "delivery rejected: " ++ reason

/-- The reply channel: whether it accepts messages, and those it has accepted. -/
structure Outbox where
  accepts : Bool
  sent : Array Message
  deriving Repr, Inhabited

namespace Outbox

/-- A channel that has accepted nothing yet. -/
def fresh (accepts : Bool) : Outbox :=
  ⟨accepts, #[]⟩

/-- Sends a message, or says why it was refused. -/
def send (o : Outbox) (m : Message) : Except DeliveryError Outbox :=
  if o.accepts then .ok { o with sent := o.sent.push m } else .error .missingPermission

/-- Sends a text; a refusal is passed over. -/
def emit (o : Outbox) (text : String) : Outbox :=
  match o.send (.ofText text) with
  | .ok o => o
  | .error _ => o

/-- The texts sent so far, oldest first. -/
def texts (o : Outbox) : List String :=
  o.sent.toList.filterMap (·.content)

/-- Removes and returns everything sent so far, oldest first. -/
def drain (o : Outbox) : List Message × Outbox :=
  (o.sent.toList, { o with sent := #[] })

@[simp]
theorem emit_of_accepts {o : Outbox} (h : o.accepts = true) (text : String) :
    o.emit text = { o with sent := o.sent.push (.ofText text) } := by
  simp [emit, send, h]

@[simp]
theorem emit_of_refuses {o : Outbox} (h : o.accepts = false) (text : String) :
    o.emit text = o := by
  simp [emit, send, h]

end Outbox

/-- The answer of the host to a look-up, or the text with which the look-up broke down. -/
abbrev HostAnswer (α : Type) :=
  Except String α

/-- What an invocation knows of its host. -/
structure Context where
  traceId : String
  invokedAt : Instant
  invoker : Identity
  bot : HostAnswer Identity
  brandColor : Identity → HostAnswer (Option Color)

namespace Context

/-- The accent colour of the bot. -/
def accent (c : Context) : HostAnswer (Option Color) := do
  c.brandColor (← c.bot)

/-- The picture shown beside a report's footer. -/
def avatar (c : Context) : HostAnswer (Option String) := do
  return (← c.bot).avatar

/-- The context of a host that knows one bot and one colour for it. -/
def ofBot (bot : Identity) (accent : Option Color) (invoker : Identity) (invokedAt : Instant)
    (traceId : String) : Context where
  traceId := traceId
  invokedAt := invokedAt
  invoker := invoker
  bot := .ok bot
  brandColor i := .ok (if i.id = bot.id then accent else none)

end Context

end Snippet
