import Snippet.Decimal.Shortest
import Snippet.Json.Basic
import Snippet.Word

/-!
# JSON numbers

A number is read by taking as many digits as fit 64 bits and scaling them once by a power of ten,
in double arithmetic. Digits beyond those count only by their places. A number that would be
infinite is refused.

A double is written with its shortest digits: positionally when the point stands among the first
sixteen places or at most four zeros behind it, and with an exponent otherwise. A whole number
keeps a zero behind the point, so that it is read back as a double.
-/

namespace Snippet.Json

/-- Appends decimal digits to a number while it fits 64 bits. The answer counts the digits that
were taken. -/
def absorb (n : Nat) : List Char → Nat × Nat
  | [] => (n, 0)
  | c :: rest =>
    let next := 10 * n + (c.toNat - '0'.toNat)
    if next < UInt64.size then
      let (value, taken) := absorb next rest
      (value, taken + 1)
    else (n, 0)

/-- Divides by `10 ^ 308` while the exponent is too small for one power of ten. -/
def scaleDown : Nat → Float → Nat → Float
  | 0, x, _ => x
  | steps + 1, x, k =>
    if k ≤ 308 then x / OfScientific.ofScientific 1 false k
    else scaleDown steps (x / OfScientific.ofScientific 1 false 308) (k - 308)

/-- The double `n * 10 ^ k`, computed in double arithmetic; nothing if it is infinite. -/
def scaled? (n : Nat) (k : Int) : Option Float :=
  let x := Float.ofNat n
  if k < 0 then
    if n = 0 then some x
    -- the quotient would be below every double
    else if k < -700 then some 0.0
    else some (scaleDown 4 x (-k).toNat)
  else if k ≤ 308 then
    let y := x * OfScientific.ofScientific 1 false k.toNat
    if y.isInf then none else some y
  else if n = 0 then some x
  else none

/-- The parts of a number literal and its length. -/
structure Literal where
  negative : Bool
  whole : List Char
  fraction : Option (List Char)
  exponent : Option Int
  length : Nat

/-- The digits at the front of a text. -/
def digitsAt (s : List Char) : List Char :=
  s.takeWhile Char.isDigit

/-- The number that digits denote. -/
def natOfDigits (digits : List Char) : Nat :=
  digits.foldl (fun n c ↦ 10 * n + (c.toNat - '0'.toNat)) 0

/-- The exponent at the front of a text, with its length. -/
def exponentAt? : List Char → Option (Option Int × Nat)
  | c :: rest =>
    if c = 'e' ∨ c = 'E' then
      let (sign, rest, extra) : Int × List Char × Nat :=
        match rest with
        | '-' :: rest => (-1, rest, 2)
        | '+' :: rest => (1, rest, 2)
        | rest => (1, rest, 1)
      match digitsAt rest with
      | [] => none
      | digits => some (some (sign * natOfDigits digits), extra + digits.length)
    else some (none, 0)
  | [] => some (none, 0)

/-- The number literal at the front of a text. A leading zero stands alone. -/
def Literal.scan? (s : List Char) : Option Literal :=
  let negative := s.head? == some '-'
  let s := if negative then s.drop 1 else s
  let signLength := if negative then 1 else 0
  match digitsAt s with
  | [] => none
  | '0' :: _ :: _ => none
  | whole => do
    let rest := s.drop whole.length
    let (fraction, rest, fractionLength) ←
      match rest with
      | '.' :: rest =>
        match digitsAt rest with
        | [] => none
        | digits => some (some digits, rest.drop digits.length, digits.length + 1)
      | rest => some (none, rest, 0)
    let (exponent, exponentLength) ← exponentAt? rest
    return ⟨negative, whole, fraction, exponent,
      signLength + whole.length + fractionLength + exponentLength⟩

/-- The number of a literal. A negative zero is a double, and so is an integer that does not
fit. -/
def Literal.value? (l : Literal) : Option Json :=
  let (n, taken) := absorb 0 l.whole
  let dropped := l.whole.length - taken
  let signed : Float → Json := fun x ↦ .float (if l.negative then -x else x)
  match l.fraction, l.exponent with
  | none, none =>
    if dropped = 0 then
      if !l.negative then some (.int n)
      -- a negative zero, or more than a signed word holds
      else if n = 0 ∨ intBound < n then some (signed (Float.ofNat n))
      else some (.int (-n))
    else (scaled? n dropped).map signed
  | fraction, exponent =>
    let (n, taken) := absorb n (fraction.getD [])
    let k : Int := (dropped : Int) - taken + exponent.getD 0
    (scaled? n k).map signed

/-- A finite double in JSON. -/
def floatText (x : Float) : String :=
  match Decimal.Double.ofFloat? x with
  | none => "null"
  | some d =>
    let sign := if Decimal.isSigned x then "-" else ""
    if d.m = 0 then sign ++ "0.0"
    else
      let shortest := d.shortest
      let digits := (Nat.repr shortest.digits).toList
      let point : Int := digits.length + shortest.exponent
      if 0 ≤ shortest.exponent ∧ point ≤ 16 then sign ++ shortest.positional ++ ".0"
      else if -5 < point ∧ point ≤ 16 then sign ++ shortest.positional
      else
        let mantissa :=
          match digits with
          | first :: second :: rest => String.ofList (first :: '.' :: second :: rest)
          | digits => String.ofList digits
        sign ++ mantissa ++ "e" ++ toString (point - 1)

end Snippet.Json
