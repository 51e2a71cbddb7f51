/-!
# JSON values

An integer literal that fits 64 bits, signed or not, stays an integer; every other number is a
double. Members of an object keep the order in which they were written.
-/

namespace Snippet

/-- A JSON value. -/
inductive Json where
  | null
  | bool (value : Bool)
  | int (value : Int)
  | float (value : Float)
  | string (value : String)
  | array (items : List Json)
  | object (members : List (String × Json))
  deriving Repr, Inhabited

namespace Json

/-- The first member of an object with a name; nothing for other values. -/
def get? (name : String) : Json → Option Json
  | object members => members.lookup name
  | _ => none

/-- The text of a string. -/
def string? : Json → Option String
  | string s => some s
  | _ => none

/-- The items of an array. -/
def array? : Json → Option (List Json)
  | array items => some items
  | _ => none

/-- A number without a sign. -/
def nat? : Json → Option Nat
  | int n => if 0 ≤ n then some n.toNat else none
  | _ => none

/-- A member that is left out and one that is null are the same. -/
def present? (name : String) (j : Json) : Option Json :=
  match j.get? name with
  | some null => none
  | other => other

/-- An object of the members that have a value. -/
def ofMembers (members : List (String × Option Json)) : Json :=
  object (members.filterMap fun (name, value) ↦ value.map (name, ·))

/-- Of the neighbours with one name, the last. -/
def lastOfEach {α : Type} : List (String × α) → List (String × α)
  | [] => []
  | m :: rest =>
    match rest with
    | [] => [m]
    | n :: _ => if m.1 = n.1 then lastOfEach rest else m :: lastOfEach rest

mutual

/-- The value with the members of every object in the order of their names, and only the last of
those with one name. -/
def sorted : Json → Json
  | array items => array (sortedItems items)
  | object members =>
    object (lastOfEach ((sortedMembers members).mergeSort fun a b ↦ decide (a.1 ≤ b.1)))
  | j => j

/-- The items of an array, sorted inside. -/
def sortedItems : List Json → List Json
  | [] => []
  | j :: rest => j.sorted :: sortedItems rest

/-- The members of an object, sorted inside. -/
def sortedMembers : List (String × Json) → List (String × Json)
  | [] => []
  | (name, j) :: rest => (name, j.sorted) :: sortedMembers rest

end

end Json

end Snippet
