import Snippet.Script.Problem

/-!
# The names in scope of every script

Context members reach the host of the invocation; helpers are functions of their arguments. All of
them can only be called. A helper may also be called as a method of its first argument.
-/

namespace Snippet.Script

/-- The functions that every script may call. -/
inductive Builtin where
  | emitReply
  | invokerIdentity
  | brandingAccent
  | inspect
  | len
  | str
  | typeOf
  | keys
  | values
  | range
  | join
  | upper
  | lower
  | abs
  | min
  | max
  | contains
  | respond
  | reject
  deriving DecidableEq, Repr, Inhabited

namespace Builtin

/-- Every builtin, in the order in which they are listed to users. -/
def all : List Builtin :=
  [.emitReply, .invokerIdentity, .brandingAccent, .inspect, .len, .str, .typeOf, .keys, .values,
    .range, .join, .upper, .lower, .abs, .min, .max, .contains, .respond, .reject]

/-- The name under which a builtin is called. -/
def name : Builtin → String
  | emitReply => "emitReply"
  | invokerIdentity => "invokerIdentity"
  | brandingAccent => "brandingAccent"
  | inspect => "inspect"
  | len => "len"
  | str => "str"
  | typeOf => "typeOf"
  | keys => "keys"
  | values => "values"
  | range => "range"
  | join => "join"
  | upper => "upper"
  | lower => "lower"
  | abs => "abs"
  | min => "min"
  | max => "max"
  | contains => "contains"
  | respond => "respond"
  | reject => "reject"

/-- The builtin of a name. -/
def ofName? (name : String) : Option Builtin :=
  all.find? (·.name == name)

/-- The least number of arguments. -/
def minArgs : Builtin → Nat
  | invokerIdentity | brandingAccent => 0
  | join | min | max | contains => 2
  | _ => 1

/-- The greatest number of arguments, if there is one. -/
def maxArgs : Builtin → Option Nat
  | emitReply => none
  | invokerIdentity | brandingAccent => some 0
  | range | join | min | max | contains => some 2
  | _ => some 1

/-- Whether a builtin can be called with this many arguments. -/
def accepts (b : Builtin) (count : Nat) : Bool :=
  decide (b.minArgs ≤ count) && b.maxArgs.all fun most ↦ decide (count ≤ most)

/-- Where a builtin comes from. -/
def origin : Builtin → Origin
  | emitReply | invokerIdentity | brandingAccent => .context
  | _ => .helper

/-- What a builtin does, as users are told. -/
def summary : Builtin → String
  | emitReply => "Send a reply now; arguments are joined with spaces"
  | invokerIdentity => "The user who invoked the command"
  | brandingAccent => "The bot's accent colour, or null"
  | inspect => "Structural dump of a value"
  | len => "Length of a string, list or map"
  | str => "String conversion"
  | typeOf => "Runtime type name"
  | keys => "Keys of a map or object"
  | values => "Values of a map or object"
  | range => "range(end) or range(start, end), end exclusive"
  | join => "join(list, separator)"
  | upper => "Uppercase a string"
  | lower => "Lowercase a string"
  | abs => "Absolute value"
  | min => "Smaller of two numbers"
  | max => "Larger of two numbers"
  | contains => "Membership in a list, map keys, or substring"
  | respond => "Build a command response that is sent as-is"
  | reject => "Build a bad-request command response"

/-- Each builtin is found under its name. -/
@[simp]
theorem ofName?_name (b : Builtin) : ofName? b.name = some b := by
  cases b <;> decide

end Builtin

end Snippet.Script
