import Snippet.Decimal.Shortest
import Snippet.Text.Bounded
import Snippet.Text.Quoted
import Snippet.Value.Basic

/-!
# The text of a value

`Value.display` is the whole text. Strings are quoted inside collections and stand for themselves
outside. A value may share its parts, so its text can be far larger than the value; what programs
use is therefore `Value.toText`, which writes into a text with a budget and leaves off when that
is spent.
-/

namespace Snippet.Value

/-- The text of a response. -/
def responseText : Response → String
  | .ok message => message.content.getD ""
  | .badRequest reason => reason
  | .empty => ""

mutual

/-- The text of a value; `nested` inside a collection. -/
def displayFrom (nested : Bool) : Value → List Char
  | null => "null".toList
  | bool b => (toString b).toList
  | int i => (toString i.toInt).toList
  | float x => (Decimal.textOf x).toList
  | string s => if nested then Text.quoted s else s.toList
  | list items => '[' :: (displayItems true items ++ [']'])
  | map entries => '\x7b' :: (displayEntries true entries ++ ['\x7d'])
  | object _ _ text => text.toList
  | response r => (responseText r).toList

/-- The items of a list with commas between them. -/
def displayItems (first : Bool) : List Value → List Char
  | [] => []
  | v :: rest =>
    (if first then [] else [',', ' ']) ++ displayFrom true v ++ displayItems false rest

/-- The entries of a map with commas between them. -/
def displayEntries (first : Bool) : List (String × Value) → List Char
  | [] => []
  | (k, v) :: rest =>
    (if first then [] else [',', ' ']) ++ Text.quoted k ++ [':', ' '] ++ displayFrom true v ++
      displayEntries false rest

end

/-- The whole text of a value. -/
def display (v : Value) : List Char :=
  displayFrom false v

mutual

/-- Writes the text of a value; `nested` inside a collection. -/
def writeFrom (nested : Bool) : Value → Text.Bounded → Text.Bounded
  | list items, b => (writeItems true items (b.put '[')).put ']'
  | map entries, b => (writeEntries true entries (b.put '\x7b')).put '\x7d'
  | null, b => b.write "null".toList
  | bool v, b => b.write (toString v).toList
  | int i, b => b.write (toString i.toInt).toList
  | float x, b => b.write (Decimal.textOf x).toList
  | string s, b => b.write (if nested then Text.quoted s else s.toList)
  | object _ _ text, b => b.write text.toList
  | response r, b => b.write (responseText r).toList

/-- Writes the items of a list while there is room. -/
def writeItems (first : Bool) : List Value → Text.Bounded → Text.Bounded
  | [], b => b
  | v :: rest, b =>
    if b.full then b
    else writeItems false rest (writeFrom true v (b.write (if first then [] else [',', ' '])))

/-- Writes the entries of a map while there is room. -/
def writeEntries (first : Bool) : List (String × Value) → Text.Bounded → Text.Bounded
  | [], b => b
  | (k, v) :: rest, b =>
    if b.full then b
    else
      let b := b.write (if first then [] else [',', ' '])
      writeEntries false rest (writeFrom true v (b.write (Text.quoted k ++ [':', ' '])))

end

/-- The text of a value, cut behind `limit` characters. A string that fits is not written anew. -/
def toText (limit : Nat) (v : Value) : String :=
  match v with
  | string s =>
    if s.length ≤ limit then s else String.ofList (s.toList.take limit ++ [Text.ellipsis])
  | v => (writeFrom false v (.ofLimit limit)).close

/-- The text of a value is what its writer writes within the budget. -/
theorem toText_eq_close (limit : Nat) (v : Value) :
    v.toText limit = (writeFrom false v (.ofLimit limit)).close := by
  unfold toText
  split
  · next s =>
    simp only [writeFrom, Bool.false_eq_true, ↓reduceIte, Text.Bounded.close_write_ofLimit,
      String.length_toList]
    split <;> simp
  · rfl

/-- A key and its value, as a loop over a map hands them out. -/
def entry (key : String) (value : Value) (limit : Nat) : Value :=
  object .entry [("key", string key), ("value", value)]
    ("[" ++ key ++ ", " ++ value.toText limit ++ "]")

end Snippet.Value
