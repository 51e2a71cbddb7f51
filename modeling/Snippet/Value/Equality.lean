import Snippet.Value.Basic

/-!
# Equality of values

Numbers are compared across the two numeric types. Maps are equal when they hold equal values
under the same keys, in whatever order; so are the fields of objects.
-/

namespace Snippet.Value

mutual

/-- The equality of the script language. -/
def looseEq : Value → Value → Bool
  | null, null => true
  | bool a, bool b => a == b
  | int a, int b => a == b
  | int a, float b => a.toFloat == b
  | float a, int b => b.toFloat == a
  | float a, float b => a == b
  | string a, string b => a == b
  | list a, list b => itemsEq a b
  | map a, map b => a.length == b.length && entriesIn a b
  | object kind a text, object kind' b text' =>
    kind == kind' && (a.length == b.length && entriesIn a b) && text == text'
  | response a, response b => a == b
  | _, _ => false

/-- Equality item by item. -/
def itemsEq : List Value → List Value → Bool
  | [], [] => true
  | a :: as, b :: bs => looseEq a b && itemsEq as bs
  | _, _ => false

/-- Whether every entry has an equal one under its key. -/
def entriesIn : List (String × Value) → List (String × Value) → Bool
  | [], _ => true
  | (k, v) :: rest, b =>
    (match b.lookup k with
      | some w => looseEq v w
      | none => false) && entriesIn rest b

end

end Snippet.Value
