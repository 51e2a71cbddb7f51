import Snippet.Run.Machine
import Snippet.Script.Builtin
import Snippet.Text.CaseMap

/-!
# What the builtins do

A helper is a function of its arguments and of the limit on texts and collections. An argument
that is missing reads as null. The three context members are computations: they ask the host or
send a reply.
-/

namespace Snippet.Run

open Script (Builtin)

/-- The argument at a position. -/
def argument (args : List Value) (i : Nat) : Value :=
  args[i]?.getD .null

/-- The lines of an inspection, one for each labelled element. -/
def inspectionLines (limit : Nat) (elements : List (String × Value)) : List String :=
  elements.map fun (label, v) ↦
    "- " ++ label ++ " (" ++ v.typeName ++ "): " ++ v.toText limit

/-- Adds lines to a text of `length` characters. Where the limit is passed a mark takes the place
of the remaining lines. -/
def addLines (limit length : Nat) (text : String) : List String → String
  | [] => text
  | line :: rest =>
    let length := length + line.length + 1
    if limit < length then text ++ "\n…" else addLines limit length (text ++ "\n" ++ line) rest

/-- The inspection of a value: what it is, and a line for each element. -/
def inspection (limit : Nat) (v : Value) : String :=
  let (header, elements) : String × List (String × Value) :=
    match v with
    | .list items =>
      ("Inspection of `list` (" ++ toString items.length ++ " items)",
        items.zipIdx.map fun (item, i) ↦ ("[" ++ toString i ++ "]", item))
    | .map entries =>
      ("Inspection of `map` (" ++ toString entries.length ++ " entries)", entries)
    | .object kind fields _ => ("Inspection of `" ++ kind.name ++ "`", fields)
    | v => ("Inspection of `" ++ v.typeName ++ "`: " ++ v.toText limit, [])
  addLines limit header.length header (inspectionLines limit elements)

/-- The number of characters, items or entries of a value. -/
def lengthOf : Value → Except Fault Value
  | .string s => .ok (.ofNat s.length)
  | .list items => .ok (.ofNat items.length)
  | .map entries => .ok (.ofNat entries.length)
  | .null => .error .nullReference
  | v => .error (.type (.noLength v.typeName))

/-- The entries of a map or the fields of an object. -/
def entriesOf (helper : String) : Value → Except Fault (List (String × Value))
  | .map entries => .ok entries
  | .object _ fields _ => .ok fields
  | .null => .error .nullReference
  | v => .error (.type (.notMap helper v.typeName))

/-- An integer, as the bound of a range. -/
def bound : Value → Except Fault Int
  | .int i => .ok i.toInt
  | v => .error (.type (.notBounds v.typeName))

/-- The integers from a bound up to, but not including, another one. -/
def rangeOf (limit : Nat) (args : List Value) : Except Fault Value := do
  let (start, stop) ←
    match ← args.mapM bound with
    | [stop] => .ok (0, stop)
    | [start, stop] => .ok (start, stop)
    | _ => .error .wrongBounds
  let count := (stop - start).toNat
  if limit < count then .error (.tooManyElements limit)
  else return .list ((List.range count).map fun (i : Nat) ↦ .int (.ofInt (start + i)))

/-- Joins the texts of items behind a text, with a separator before each. -/
def joinFrom (limit : Nat) (separator : String) (joined : String) (length : Nat) :
    List Value → Except Fault String
  | [] => .ok joined
  | item :: rest =>
    let piece := item.toText limit
    let length := length + separator.length + piece.length
    if limit < length then .error (.tooManyElements limit)
    else joinFrom limit separator (joined ++ separator ++ piece) length rest

/-- The texts of the items of a list, with a separator between them. -/
def joinOf (limit : Nat) (list separator : Value) : Except Fault Value := do
  match list with
  | .list [] => return .string ""
  | .list (item :: rest) =>
    let piece := item.toText limit
    if limit < piece.length then .error (.tooManyElements limit)
    else return .string (← joinFrom limit (separator.toText limit) piece piece.length rest)
  | .null => .error .nullReference
  | v => .error (.type (.notList "join" v.typeName))

/-- A function of strings as a helper. -/
def mapText (helper : String) (f : String → String) : Value → Except Fault Value
  | .string s => .ok (.string (f s))
  | v => .error (.type (.notText helper v.typeName))

/-- The number without its sign. -/
def absOf : Value → Except Fault Value
  | .int i => exactly i.toInt.natAbs
  | .float x => .ok (.float x.abs)
  | v => .error (.type (.notNumber "abs" v.typeName))

/-- The one of two numbers that is wanted. Unless the order is strict the wish for the larger one
takes the first. -/
def pick (helper : String) (wantLarger : Bool) (a b : Value) : Except Fault Value :=
  let choose (notLess : Bool) : Except Fault Value := .ok (if notLess = wantLarger then a else b)
  match a, b with
  | .int x, .int y => choose (decide (y ≤ x))
  | a, b =>
    match a.number?, b.number? with
    | some x, some y => choose (decide (x ≥ y))
    | _, _ => .error (.type (.notNumbers helper a.typeName b.typeName))

/-- Whether a text occurs in another one. -/
def occursIn (sought : List Char) : List Char → Bool
  | [] => sought.isEmpty
  | c :: rest => sought.isPrefixOf (c :: rest) || occursIn sought rest

/-- Membership in a list, among the keys of a map, or as a part of a string. -/
def containsOf (place sought : Value) : Except Fault Value :=
  match place, sought with
  | .list items, v => .ok (.bool (items.any (·.looseEq v)))
  | .map entries, v => .ok (.bool (v.key?.any fun k ↦ entries.any (·.1 == k)))
  | .string s, .string part => .ok (.bool (occursIn part.toList s.toList))
  | .null, _ => .error .nullReference
  | place, v => .error (.type (.notSearchable place.typeName v.typeName))

/-- A value as a response: a response is one already, anything else becomes a text. -/
def respondWith (limit : Nat) : Value → Value
  | .response r => .response r
  | v => .response (.ofText (v.toText limit))

/-- The value of a helper. The context members are no helpers and have none. -/
def helperValue (limit : Nat) (b : Builtin) (args : List Value) : Except Fault Value :=
  let first := argument args 0
  let second := argument args 1
  match b with
  | .inspect => .ok (.string (inspection limit first))
  | .len => lengthOf first
  | .str => .ok (.string (first.toText limit))
  | .typeOf => .ok (.string first.typeName)
  | .keys => do return .list ((← entriesOf "keys" first).map fun (k, _) ↦ .string k)
  | .values => do return .list ((← entriesOf "values" first).map Prod.snd)
  | .range => rangeOf limit args
  | .join => joinOf limit first second
  | .upper => mapText "upper" Text.upper first
  | .lower => mapText "lower" Text.lower first
  | .abs => absOf first
  | .min => pick "min" false first second
  | .max => pick "max" true first second
  | .contains => containsOf first second
  | .respond => .ok (respondWith limit first)
  | .reject => .ok (.response (.badRequest (first.toText limit)))
  | .emitReply | .invokerIdentity | .brandingAccent => .ok .null

/-- The line that a reply with these arguments is. -/
def replyText (limit : Nat) (args : List Value) : String :=
  " ".intercalate (args.map (Value.toText limit))

/-- Calls a builtin with arguments whose number has been looked at before. -/
def callBuiltin (setting : Setting) (b : Builtin) (args : List Value) : Step Value :=
  match b with
  | .emitReply => do
    let text := replyText setting.limits.maxElements args
    modify fun m ↦ { m with outbox := m.outbox.emit text }
    return .null
  | .invokerIdentity => return .user setting.context.invoker
  | .brandingAccent => do
    match ← ask setting.context.accent with
    | some c => return .color c
    | none => return .null
  | b => lift (helperValue setting.limits.maxElements b args)

end Snippet.Run
