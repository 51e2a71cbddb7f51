import Snippet.Decimal.Reader
import Snippet.Json.Basic

/-!
# Comparing values in templates

Equality is that of values: an integer and a double are never equal. The other relations compare
numbers by what they stand for, exactly, texts by their characters and truth values with the false
one first. A number and a text are compared as doubles, if the text denotes one. All other pairs
are in no relation.
-/

namespace Snippet.Template

mutual

/-- Whether two values are equal. -/
def sameJson : Json → Json → Bool
  | .null, .null => true
  | .bool a, .bool b => a == b
  | .int a, .int b => a == b
  | .float a, .float b => a == b
  | .string a, .string b => a == b
  | .array as, .array bs => sameItems as bs
  | .object as, .object bs => sameMembers as bs
  | _, _ => false

/-- Whether the items of two arrays are equal. -/
def sameItems : List Json → List Json → Bool
  | [], [] => true
  | a :: as, b :: bs => sameJson a b && sameItems as bs
  | _, _ => false

/-- Whether the members of two objects are equal and stand in the same order. -/
def sameMembers : List (String × Json) → List (String × Json) → Bool
  | [], [] => true
  | (m, a) :: as, (n, b) :: bs => m == n && sameJson a b && sameMembers as bs
  | _, _ => false

end

/-- Compares an integer with a double. -/
def compareInt (n : Int) (x : Float) : Option Ordering :=
  (Decimal.Double.ofFloat? x).map fun d ↦
    let m : Int := if Decimal.isSigned x then -(d.m : Int) else d.m
    compare (n * (Nat.pow 2 (-d.q).toNat : Nat)) (m * (Nat.pow 2 d.q.toNat : Nat))

/-- Compares two doubles; what is no number is in no order. -/
def compareDoubles (x y : Float) : Option Ordering :=
  if x < y then some .lt
  else if x == y then some .eq
  else if y < x then some .gt
  else none

/-- The double nearest to a number. -/
def double? : Json → Option Float
  | .int n => some (Float.ofInt n)
  | .float x => some x
  | _ => none

/-- The order of two values, if they are in any. -/
def order? (a b : Json) : Option Ordering :=
  match a, b with
  | .int a, .int b => some (compare a b)
  | .float a, .float b => compareDoubles a b
  | .int a, .float b => compareInt a b
  | .float a, .int b => (compareInt b a).map Ordering.swap
  | .string a, .string b => some (compare a b)
  | .bool a, .bool b => some (compare a b)
  | a, .string b => do compareDoubles (← double? a) (← Decimal.ofText? b)
  | .string a, b => do compareDoubles (← Decimal.ofText? a) (← double? b)
  | _, _ => none

/-- What may be asked of two values. -/
inductive Relation where
  | equal
  | unequal
  | greater
  | atLeast
  | less
  | atMost
  deriving DecidableEq, Repr, Inhabited

/-- Whether two values are in a relation. -/
def Relation.holds (r : Relation) (a b : Json) : Bool :=
  match r with
  | equal => sameJson a b
  | unequal => !sameJson a b
  | greater => order? a b == some .gt
  | atLeast => order? a b == some .gt || order? a b == some .eq
  | less => order? a b == some .lt
  | atMost => order? a b == some .lt || order? a b == some .eq

/-- Whether a value counts as true. A number does unless it is zero, or a double so small that it
has lost digits. -/
def isTruthy : Json → Bool
  | .bool b => b
  | .int n => n != 0
  | .float x => (Decimal.Double.ofFloat? x).any (Decimal.leadingBit ≤ ·.m)
  | .null => false
  | .string s => s != ""
  | .array items => !items.isEmpty
  | .object members => !members.isEmpty

end Snippet.Template
