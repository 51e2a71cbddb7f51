import Snippet.Run.Fault
import Snippet.Value.Basic

/-!
# Elements of collections

A path leads from a value to an element of an element of it. Reading follows one key; writing
follows a whole path and rebuilds the values along it. Only lists and maps can be written to. A
list keeps its length; a map may get a new key, but only as the last step of a path.
-/

namespace Snippet.Run

/-- One step of a path, its index evaluated. -/
inductive PathKey where
  | index (value : Value)
  | member (name : String)
  deriving Repr, Inhabited

/-- The position that an index denotes in a list or string of a length. -/
def listIndex (length : Nat) : Value → Except Fault Nat
  | .int i =>
    if 0 ≤ i.toInt ∧ i.toInt < length then .ok i.toInt.toNat else .error .indexOutOfRange
  | v => .error (.type (.notListIndex v.typeName))

/-- The key that a step denotes in a map. -/
def mapKey : PathKey → Except Fault String
  | .member name => .ok name
  | .index v =>
    match v.key? with
    | some key => .ok key
    | none => .error (.type (.notMapKey v.typeName))

/-- The value under a key. -/
def readEntry (key : String) (entries : List (String × Value)) : Except Fault Value :=
  match entries.lookup key with
  | some v => .ok v
  | none => .error (.keyNotFound key)

/-- The element of a list that an index denotes. -/
def readItem (items : List Value) (index : Value) : Except Fault Value := do
  let i ← listIndex items.length index
  match items[i]? with
  | some v => .ok v
  | none => .error .indexOutOfRange

/-- The length of a value that has one. -/
def lengthOf? : Value → Option Nat
  | .string s => some s.length
  | .list items => some items.length
  | .map entries => some entries.length
  | _ => none

/-- A member of a value, by name. Strings, lists and maps have their length as a member. -/
def readMember (v : Value) (name : String) : Except Fault Value :=
  let missing := Fault.type (.noMember v.typeName name)
  match if name = "length" then lengthOf? v else none with
  | some n => .ok (.ofNat n)
  | none =>
    match v with
    | .null => .error .nullReference
    | .map entries => readEntry name entries
    | .object _ fields _ => (fields.lookup name).elim (.error missing) .ok
    | _ => .error missing

/-- An element of a value, by an evaluated index. -/
def readIndex (v index : Value) : Except Fault Value :=
  match v with
  | .null => .error .nullReference
  | .list items => readItem items index
  | .string s => do
    let i ← listIndex s.length index
    match s.toList[i]? with
    | some c => .ok (.string (String.singleton c))
    | none => .error .indexOutOfRange
  | .map entries => do readEntry (← mapKey (.index index)) entries
  | v => .error (.type (.notIndexable v.typeName))

/-- Follows one step of a path. -/
def readKey (v : Value) : PathKey → Except Fault Value
  | .index i => readIndex v i
  | .member name => readMember v name

/-- Follows a path to its end. -/
def readPath (v : Value) : List PathKey → Except Fault Value
  | [] => .ok v
  | key :: rest => do readPath (← readKey v key) rest

/-- Replaces what stands at the end of a path. -/
def writePath (limit : Nat) (new : Value) : List PathKey → Value → Except Fault Value
  | [], _ => .ok new
  | key :: rest, target =>
    match target with
    | .null => .error .nullReference
    | .list items =>
      match key with
      | .member _ => .error (.type .lengthReadOnly)
      | .index index => do
        let i ← listIndex items.length index
        match items[i]? with
        | none => .error .indexOutOfRange
        | some v => return .list (items.set i (← writePath limit new rest v))
    | .map entries => do
      let k ← mapKey key
      match entries.lookup k with
      | some v => return .map (putEntry k (← writePath limit new rest v) entries)
      | none =>
        match rest with
        | [] =>
          if limit ≤ entries.length then .error (.tooManyElements limit)
          else return .map (putEntry k new entries)
        | _ :: _ => .error (.keyNotFound k)
    | .string _ => .error (.type .stringReadOnly)
    | v => .error (.type (.membersReadOnly v.typeName))

end Snippet.Run
