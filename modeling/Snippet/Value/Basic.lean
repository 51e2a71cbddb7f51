import Snippet.Message.Basic
import Snippet.Word

/-!
# Values of the script language

Lists and maps are plain values, with no identity of their own. A map keeps its keys in the
order in which they were first written. Objects come from the host and can only be read.
-/

namespace Snippet

/-- What the host hands out. -/
inductive ObjectKind where
  | user
  | color
  | entry
  deriving DecidableEq, Repr, Inhabited

/-- The type name of an object. -/
def ObjectKind.name : ObjectKind → String
  | user => "User"
  | color => "Color"
  | entry => "Entry"

/-- A value of the script language. -/
inductive Value where
  | null
  | bool (value : Bool)
  | int (value : Int64)
  | float (value : Float)
  | string (value : String)
  | list (items : List Value)
  | map (entries : List (String × Value))
  | object (kind : ObjectKind) (fields : List (String × Value)) (display : String)
  | response (response : Response)
  deriving Repr, Inhabited

namespace Value

/-- The type name of a value. -/
def typeName : Value → String
  | null => "null"
  | bool _ => "bool"
  | int _ => "int"
  | float _ => "double"
  | string _ => "string"
  | list _ => "list"
  | map _ => "map"
  | object kind _ _ => kind.name
  | response _ => "ActionResult"

/-- Whether this is the value null. -/
def isNull : Value → Bool
  | null => true
  | _ => false

/-- Whether a value holds other values. -/
def isCollection : Value → Bool
  | list _ | map _ | object _ _ _ => true
  | _ => false

/-- The key that a value stands for in a map. -/
def key? : Value → Option String
  | string s => some s
  | int i => some (toString i.toInt)
  | bool b => some (toString b)
  | _ => none

/-- A number as a double. -/
def number? : Value → Option Float
  | int i => some i.toFloat
  | float x => some x
  | _ => none

/-- A count as a value. -/
def ofNat (n : Nat) : Value :=
  int (.ofNat n)

/-- An optional text as a value. -/
def ofText? : Option String → Value
  | some s => string s
  | none => null

/-- A chat user as an object. A number that no signed word holds is given as its digits. -/
def user (i : Identity) : Value :=
  let id := if i.id.toNat < intBound then ofNat i.id.toNat else string (toString i.id.toNat)
  object .user [("id", id), ("name", string i.name), ("avatarUrl", ofText? i.avatar)] i.text

/-- A colour as an object. -/
def color (c : Color) : Value :=
  object .color
    [("r", ofNat c.red), ("g", ofNat c.green), ("b", ofNat c.blue), ("value", ofNat c.word.toNat)]
    c.text

end Value

/-- Writes a key of a map: in its place if the key is there, and at the end otherwise. -/
def putEntry (key : String) (value : Value) : List (String × Value) → List (String × Value)
  | [] => [(key, value)]
  | (k, v) :: rest => if k = key then (k, value) :: rest else (k, v) :: putEntry key value rest

@[simp]
theorem lookup_putEntry_self (key : String) (value : Value) (entries : List (String × Value)) :
    (putEntry key value entries).lookup key = some value := by
  induction entries with
  | nil => simp [putEntry]
  | cons e rest ih =>
    obtain ⟨k, v⟩ := e
    by_cases h : k = key
    · simp [putEntry, h]
    · simp [putEntry, h, List.lookup_cons, beq_eq_false_iff_ne.2 (Ne.symm h), ih]

/-- Writing one key leaves every other one as it was. -/
theorem lookup_putEntry_of_ne {key other : String} (h : other ≠ key) (value : Value)
    (entries : List (String × Value)) :
    (putEntry key value entries).lookup other = entries.lookup other := by
  induction entries with
  | nil => simp [putEntry, List.lookup_cons, beq_eq_false_iff_ne.2 h]
  | cons e rest ih =>
    obtain ⟨k, v⟩ := e
    by_cases hk : k = key
    · simp [putEntry, hk, List.lookup_cons, beq_eq_false_iff_ne.2 h]
    · simp [putEntry, hk, List.lookup_cons, ih]

end Snippet
