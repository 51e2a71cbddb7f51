import Snippet.Value.Basic

/-!
# The shape of a value

A value is measured by the number of its elements and by the depth to which its collections nest.
An element counts once for every way in which it is reached, shared or not. `checkShape` looks at
both limits in one walk and leaves off at the first that is exceeded; `elementCount` and `depth`
are the two measures themselves.
-/

namespace Snippet.Value

/-- The limit that a value exceeds. -/
inductive Oversize where
  | elements
  | depth
  deriving DecidableEq, Repr, Inhabited

mutual

/-- Counts on from `seen`, with room for `room` more levels. -/
def countFrom (maxElements room : Nat) : Value → Nat → Except Oversize Nat
  | list items, seen =>
    match room with
    | 0 => .error .depth
    | room + 1 => countItems maxElements room items seen
  | map entries, seen =>
    match room with
    | 0 => .error .depth
    | room + 1 => countEntries maxElements room entries seen
  | object _ fields _, seen =>
    match room with
    | 0 => .error .depth
    | room + 1 => countEntries maxElements room fields seen
  | _, seen => .ok seen

/-- Counts the items of a list. -/
def countItems (maxElements room : Nat) : List Value → Nat → Except Oversize Nat
  | [], seen => .ok seen
  | v :: rest, seen =>
    if maxElements < seen + 1 then .error .elements
    else
      match countFrom maxElements room v (seen + 1) with
      | .ok seen => countItems maxElements room rest seen
      | .error oversize => .error oversize

/-- Counts the values of a map or an object. -/
def countEntries (maxElements room : Nat) : List (String × Value) → Nat → Except Oversize Nat
  | [], seen => .ok seen
  | (_, v) :: rest, seen =>
    if maxElements < seen + 1 then .error .elements
    else
      match countFrom maxElements room v (seen + 1) with
      | .ok seen => countEntries maxElements room rest seen
      | .error oversize => .error oversize

end

/-- Admits a value of at most `maxElements` elements and `maxDepth` levels. -/
def checkShape (maxElements maxDepth : Nat) (v : Value) : Except Oversize Unit :=
  match countFrom maxElements maxDepth v 0 with
  | .ok _ => .ok ()
  | .error oversize => .error oversize

mutual

/-- The number of elements of all collections inside a value. -/
def elementCount : Value → Nat
  | list items => itemCount items
  | map entries => entryCount entries
  | object _ fields _ => entryCount fields
  | _ => 0

/-- The elements of a list and of what is inside them. -/
def itemCount : List Value → Nat
  | [] => 0
  | v :: rest => 1 + elementCount v + itemCount rest

/-- The values of a map and what is inside them. -/
def entryCount : List (String × Value) → Nat
  | [] => 0
  | (_, v) :: rest => 1 + elementCount v + entryCount rest

end

mutual

/-- The number of collections in the longest chain, the value itself included. -/
def depth : Value → Nat
  | list items => itemDepth items + 1
  | map entries => entryDepth entries + 1
  | object _ fields _ => entryDepth fields + 1
  | _ => 0

/-- The greatest depth among the items of a list. -/
def itemDepth : List Value → Nat
  | [] => 0
  | v :: rest => max (depth v) (itemDepth rest)

/-- The greatest depth among the values of a map. -/
def entryDepth : List (String × Value) → Nat
  | [] => 0
  | (_, v) :: rest => max (depth v) (entryDepth rest)

end

end Snippet.Value
