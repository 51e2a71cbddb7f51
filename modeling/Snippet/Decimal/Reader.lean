import Snippet.Decimal.Double

/-!
# Reading decimal numbers

A number is written with digits, perhaps a point among or beside them, and an exponent of ten. The
double nearest to it is its value. Infinity and what is no number may be spelled out, in letters
of either case.
-/

namespace Snippet.Decimal

/-- The number that decimal digits denote. -/
def ofDigits (digits : List Char) : Nat :=
  digits.foldl (fun n c ↦ 10 * n + (c.toNat - '0'.toNat)) 0

/-- The whole number of 64 bits that a text denotes: digits, perhaps behind a plus. -/
def natOfText? (s : String) : Option Nat :=
  let digits :=
    match s.toList with
    | '+' :: rest => rest
    | cs => cs
  if digits.isEmpty || !digits.all Char.isDigit then none
  else if ofDigits digits < UInt64.size then some (ofDigits digits) else none

/-- The double nearest to `n * 10 ^ k`. Numbers beyond all doubles are infinite, and those too
small for any are zero; neither is computed. -/
def nearest (n : Nat) (k : Int) : Float :=
  let digits : Int := (Nat.repr n).length
  if n = 0 ∨ digits + k < -330 then 0.0
  else if 310 < digits + k then 1.0 / 0.0
  else OfScientific.ofScientific n (k < 0) k.natAbs

/-- The exponent at the end of a number; none stands for zero. -/
def exponent? : List Char → Option Int
  | [] => some 0
  | c :: rest =>
    if c = 'e' ∨ c = 'E' then
      let (negative, digits) :=
        match rest with
        | '-' :: digits => (true, digits)
        | '+' :: digits => (false, digits)
        | digits => (false, digits)
      if digits.isEmpty || !digits.all Char.isDigit then none
      else some (if negative then -(ofDigits digits : Int) else ofDigits digits)
    else none

/-- The number without a sign that a text denotes. -/
def unsigned? (s : List Char) : Option Float :=
  let word := s.map Char.toLower
  if word = "inf".toList ∨ word = "infinity".toList then some (1.0 / 0.0)
  else if word = "nan".toList then some (0.0 / 0.0)
  else
    let whole := s.takeWhile Char.isDigit
    let rest := s.drop whole.length
    let (fraction, rest) :=
      match rest with
      | '.' :: rest => (rest.takeWhile Char.isDigit, rest.dropWhile Char.isDigit)
      | rest => ([], rest)
    if whole.isEmpty && fraction.isEmpty then none
    else (exponent? rest).map fun k ↦ nearest (ofDigits (whole ++ fraction)) (k - fraction.length)

/-- The double that a text denotes. -/
def ofText? (s : String) : Option Float :=
  match s.toList with
  | '-' :: rest => (unsigned? rest).map fun x ↦ -x
  | '+' :: rest => unsigned? rest
  | rest => unsigned? rest

end Snippet.Decimal
