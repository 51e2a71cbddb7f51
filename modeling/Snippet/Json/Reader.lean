import Snippet.Json.Number

/-!
# Reading JSON

A text is cut into tokens, and the tokens drive a machine with one frame for each open array or
object. The machine takes a token at a time, so reading is a fold over the tokens and a reader of
another kind can watch the same tokens.

Blanks are the four ASCII ones. A string must not hold a control character or one half of a
surrogate pair.
-/

namespace Snippet.Json

/-- A token. A `hollow` one is written as it should be and has no value: a number beyond all
doubles, or a string with one half of a surrogate pair. The list of tokens ends with `bad` where
the text stops being JSON. -/
inductive Token where
  | punct (c : Char)
  | scalar (value : Json)
  | text (value : String)
  | hollow
  | bad
  deriving Repr, Inhabited

/-- The number that four hexadecimal digits denote. -/
def hex4? (a b c d : Char) : Option Nat := do
  let digit (c : Char) : Option Nat :=
    if c.isDigit then some (c.toNat - '0'.toNat)
    else if 'a' ≤ c ∧ c ≤ 'f' then some (c.toNat - 'a'.toNat + 10)
    else if 'A' ≤ c ∧ c ≤ 'F' then some (c.toNat - 'A'.toNat + 10)
    else none
  return (((← digit a) * 16 + (← digit b)) * 16 + (← digit c)) * 16 + (← digit d)

/-- The character that stands behind a backslash for another one. -/
def unescape? : Char → Option Char
  | '"' => some '"'
  | '\\' => some '\\'
  | '/' => some '/'
  | 'b' => some '\x08'
  | 'f' => some '\x0c'
  | 'n' => some '\n'
  | 'r' => some '\r'
  | 't' => some '\t'
  | _ => none

/-- The characters of a string up to its closing quote, and the length of their written form with
that quote. -/
def stringBody? : List Char → Option (List Char × Nat)
  | '"' :: _ => some ([], 1)
  | '\\' :: 'u' :: a :: b :: c :: d :: rest =>
    match hex4? a b c d with
    | none => none
    | some n =>
      if 0xdc00 ≤ n ∧ n < 0xe000 then none
      else if 0xd800 ≤ n ∧ n < 0xdc00 then
        match rest with
        | '\\' :: 'u' :: e :: f :: g :: h :: rest =>
          match hex4? e f g h with
          | none => none
          | some m =>
            if 0xdc00 ≤ m ∧ m < 0xe000 then
              -- two halves make one character beyond the first plane
              let char := Char.ofNat (0x10000 + (n - 0xd800) * 0x400 + (m - 0xdc00))
              (stringBody? rest).map fun (body, length) ↦ (char :: body, length + 12)
            else none
        | _ => none
      else (stringBody? rest).map fun (body, length) ↦ (Char.ofNat n :: body, length + 6)
  | '\\' :: c :: rest =>
    match unescape? c with
    | none => none
    | some char => (stringBody? rest).map fun (body, length) ↦ (char :: body, length + 2)
  | c :: rest =>
    -- a backslash that got here has nothing it may stand in front of
    if c.toNat < 0x20 ∨ c = '\\' then none
    else (stringBody? rest).map fun (body, length) ↦ (c :: body, length + 1)
  | [] => none

/-- The length of a string behind its opening quote, up to and with the closing one. -/
def stringLength? : List Char → Option Nat
  | '"' :: _ => some 1
  | '\\' :: 'u' :: a :: b :: c :: d :: rest =>
    if (hex4? a b c d).isSome then (stringLength? rest).map (· + 6) else none
  | '\\' :: c :: rest =>
    if (unescape? c).isSome then (stringLength? rest).map (· + 2) else none
  | c :: rest => if c.toNat < 0x20 ∨ c = '\\' then none else (stringLength? rest).map (· + 1)
  | [] => none

/-- The token at the front of a text that starts with `c`, and its length. -/
def tokenAt (c : Char) (rest : List Char) : Token × Nat :=
  let word (w : String) (value : Json) : Token × Nat :=
    if w.toList.isPrefixOf (c :: rest) then (.scalar value, w.length) else (.bad, 1)
  match c with
  | '[' | ']' | '{' | '}' | ',' | ':' => (.punct c, 1)
  | '"' =>
    match stringBody? rest with
    | some (body, length) => (.text (String.ofList body), length + 1)
    | none =>
      match stringLength? rest with
      | some length => (.hollow, length + 1)
      | none => (.bad, 1)
  | 't' => word "true" (.bool true)
  | 'f' => word "false" (.bool false)
  | 'n' => word "null" .null
  | _ =>
    match Literal.scan? (c :: rest) with
    | none => (.bad, 1)
    | some l =>
      match l.value? with
      | some value => (.scalar value, l.length)
      | none => (.hollow, l.length)

/-- The tokens of a text of which `inside` characters still belong to the last token. -/
def tokensFrom (inside : Nat) : List Char → List Token
  | [] => []
  | c :: rest =>
    match inside with
    | n + 1 => tokensFrom n rest
    | 0 =>
      if c = ' ' ∨ c = '\t' ∨ c = '\n' ∨ c = '\r' then tokensFrom 0 rest
      else
        match tokenAt c rest with
        | (.bad, _) => [.bad]
        | (token, length) => token :: tokensFrom (length - 1) rest

/-- The tokens of a text. -/
def tokens (s : String) : List Token :=
  tokensFrom 0 s.toList

/-- An open array or object, with what it holds so far, latest first. -/
inductive Frame where
  | array (items : List Json)
  | object (members : List (String × Json)) (name : String)
  deriving Repr, Inhabited

/-- What the machine waits for. -/
inductive Phase where
  | value
  | valueOrClose
  | name
  | nameOrClose
  | colon
  | commaOrClose
  | done (result : Json)
  deriving Repr, Inhabited

/-- The machine: its open frames, innermost first, and its phase. -/
structure Machine where
  frames : List Frame
  phase : Phase
  deriving Repr, Inhabited

namespace Machine

/-- Nothing has been read. -/
def start : Machine :=
  ⟨[], .value⟩

/-- A value is complete. -/
def put (value : Json) : List Frame → Machine
  | [] => ⟨[], .done value⟩
  | .array items :: rest => ⟨.array (value :: items) :: rest, .commaOrClose⟩
  | .object members name :: rest => ⟨.object ((name, value) :: members) "" :: rest, .commaOrClose⟩

/-- Takes one token; nothing if it is out of place. -/
def step? (m : Machine) (token : Token) : Option Machine :=
  match m.phase, token, m.frames with
  | .value, .scalar value, frames | .valueOrClose, .scalar value, frames => some (put value frames)
  | .value, .text s, frames | .valueOrClose, .text s, frames => some (put (.string s) frames)
  | .value, .punct '[', frames | .valueOrClose, .punct '[', frames =>
    some ⟨.array [] :: frames, .valueOrClose⟩
  | .value, .punct '{', frames | .valueOrClose, .punct '{', frames =>
    some ⟨.object [] "" :: frames, .nameOrClose⟩
  | .valueOrClose, .punct ']', .array items :: frames
  | .commaOrClose, .punct ']', .array items :: frames => some (put (.array items.reverse) frames)
  | .nameOrClose, .punct '}', .object members _ :: frames
  | .commaOrClose, .punct '}', .object members _ :: frames =>
    some (put (.object members.reverse) frames)
  | .name, .text name, .object members _ :: frames
  | .nameOrClose, .text name, .object members _ :: frames =>
    some ⟨.object members name :: frames, .colon⟩
  | .colon, .punct ':', frames => some ⟨frames, .value⟩
  | .commaOrClose, .punct ',', .array items :: frames => some ⟨.array items :: frames, .value⟩
  | .commaOrClose, .punct ',', .object members name :: frames =>
    some ⟨.object members name :: frames, .name⟩
  | _, _, _ => none

end Machine

/-- The value that a text denotes. -/
def parse? (s : String) : Option Json :=
  match (tokens s).foldlM Machine.step? Machine.start with
  | some ⟨_, .done value⟩ => some value
  | _ => none

/-- The most arrays and objects that a text may have open at once. -/
def maxLevels : Nat := 127

/-- The value that a text denotes, unless it nests too deeply. -/
def parseBounded? (s : String) : Option Json :=
  let step (m : Machine) (token : Token) : Option Machine :=
    (m.step? token).filter (·.frames.length ≤ maxLevels)
  match (tokens s).foldlM step Machine.start with
  | some ⟨_, .done value⟩ => some value
  | _ => none

end Snippet.Json
