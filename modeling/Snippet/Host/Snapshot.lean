import Snippet.Host.Context
import Snippet.Message.Wire

/-!
# Snapshots of a context

What a template sees of its invocation: the trace, the time, the two identities and the accent
colour, with the names in alphabetical order.
-/

namespace Snippet

/-- The context as data. An accent colour that is missing is null. -/
def Context.snapshot (c : Context) : HostAnswer Json := do
  let bot ← c.bot
  let accent ← c.accent
  let data := Json.object [("trace_id", .string c.traceId),
    ("invoked_at", .string c.invokedAt.text),
    ("invoker", c.invoker.toJson), ("bot", bot.toJson),
    ("accent", (accent.map fun color ↦ Json.string color.text).getD .null)]
  return data.sorted

end Snippet
