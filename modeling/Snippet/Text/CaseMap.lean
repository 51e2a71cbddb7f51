import Snippet.Text.CaseTable

/-!
# Upper and lower case of whole texts

A character may become several. Lower case looks around itself in one place: a capital sigma at
the end of a word has a form of its own. It ends a word when a cased character stands in front of
it and none behind it, where characters that case ignores are looked through.
-/

namespace Snippet.Text

/-- The upper case of one character. -/
def upperChar (c : Char) : List Char :=
  match upperSequences.lookup c.toNat with
  | some sequence => sequence.map Char.ofNat
  | none => [Char.ofNat ((caseImage? upperRuns c.toNat).getD c.toNat)]

/-- The lower case of one character, away from its surroundings. The capital I with a dot keeps
its dot as a mark behind it. -/
def lowerChar (c : Char) : List Char :=
  if c = 'İ' then ['i', '\u0307']
  else [Char.ofNat ((caseImage? lowerRuns c.toNat).getD c.toNat)]

/-- The upper case of a text. -/
def upper (s : String) : String :=
  String.ofList (s.toList.flatMap upperChar)

/-- Whether the first character that case does not ignore is cased. -/
def meetsCased (s : List Char) : Bool :=
  match s.dropWhile (inSet caseIgnorableSet) with
  | [] => false
  | c :: _ => inSet casedSet c

/-- The lower case of a text, behind the characters `before` in reverse order. -/
def lowerFrom (before : List Char) : List Char → List Char
  | [] => []
  | c :: rest =>
    let image :=
      if c = 'Σ' then (if meetsCased before && !meetsCased rest then ['ς'] else ['σ'])
      else lowerChar c
    image ++ lowerFrom (c :: before) rest

/-- The lower case of a text. -/
def lower (s : String) : String :=
  String.ofList (lowerFrom [] s.toList)

end Snippet.Text
