/-!
# Sets of characters as inversion lists

A set of code points is written as the increasing list of the points at which membership changes,
starting outside. A point belongs to the set exactly when an odd number of changes lies at or
before it.
-/

namespace Snippet.Text

/-- Whether `n` lies inside the set whose membership changes at the points of `flips`, given
whether the point before the first change lies inside. -/
def insideFrom (inside : Bool) (n : Nat) : List Nat → Bool
  | [] => inside
  | flip :: rest => if n < flip then inside else insideFrom (!inside) n rest

/-- Membership of a character in an inversion list. -/
def inSet (flips : List Nat) (c : Char) : Bool :=
  insideFrom false c.toNat flips

end Snippet.Text
