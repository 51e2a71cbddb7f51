import Snippet.Decimal.Double

/-!
# The shortest decimal that reads back

The reals that round to a double form an interval around it, with its ends exactly when the
significand is even. Among the decimals of that interval the shortest is chosen, and of two
shortest ones the nearer. Digits are tried in increasing number: on each grid of powers of ten
only the two neighbours of the double can be in the interval first.

All comparisons are between natural numbers.
-/

namespace Snippet.Decimal

/-- The number `digits * 10 ^ exponent`. -/
structure Dec where
  digits : Nat
  exponent : Int
  deriving DecidableEq, Repr, Inhabited

/-- Compares `a * 10 ^ i` with `b * 2 ^ j`. -/
def compareScaled (a : Nat) (i : Int) (b : Nat) (j : Int) : Ordering :=
  compare (a * Nat.pow 10 i.toNat * Nat.pow 2 (-j).toNat)
    (b * Nat.pow 2 j.toNat * Nat.pow 10 (-i).toNat)

/-- Whether a decimal lies among the reals that round to a double. -/
def Double.readsBack (x : Double) (d : Dec) : Bool :=
  -- in quarters of a unit: below a power of two the neighbour is half as far
  let low := if x.narrowBelow then 4 * x.m - 1 else 4 * x.m - 2
  let ends := x.m % 2 == 0
  let below := compareScaled d.digits d.exponent low (x.q - 2)
  let above := compareScaled d.digits d.exponent (4 * x.m + 2) (x.q - 2)
  (below == .gt || ends && below == .eq) && (above == .lt || ends && above == .eq)

/-- The greatest multiple of `10 ^ k` up to a double, in units of `10 ^ k`. -/
def Double.floorAt (x : Double) (k : Int) : Nat :=
  x.m * Nat.pow 2 x.q.toNat * Nat.pow 10 (-k).toNat /
    (Nat.pow 2 (-x.q).toNat * Nat.pow 10 k.toNat)

/-- The one of the two neighbours on the grid of `10 ^ k` that reads back. If both do, the nearer
one is taken, and of two that are equally near the greater. -/
def Double.onGrid? (x : Double) (k : Int) : Option Dec :=
  let c := x.floorAt k
  match x.readsBack ⟨c, k⟩, x.readsBack ⟨c + 1, k⟩ with
  | false, false => none
  | true, false => some ⟨c, k⟩
  | false, true => some ⟨c + 1, k⟩
  | true, true =>
    if compareScaled (2 * c + 1) k (2 * x.m) x.q == .gt then some ⟨c, k⟩ else some ⟨c + 1, k⟩

/-- The least `k` with `x < 10 ^ k`, from an estimate that is off by at most one. -/
def Double.scale (x : Double) : Int :=
  let estimate := ((x.m.log2 : Int) + x.q) * 30103 / 100000
  if compareScaled 1 estimate x.m x.q == .gt then estimate
  else if compareScaled 1 (estimate + 1) x.m x.q == .gt then estimate + 1
  else estimate + 2

/-- Searches the grids of `digits`, `digits + 1`, … digits. -/
def Double.search (x : Double) (scale : Int) (digits : Nat) : Nat → Dec
  -- all digits; never reached, since seventeen of them always read back
  | 0 => ⟨x.m * Nat.pow 2 x.q.toNat * Nat.pow 5 (-x.q).toNat, -(-x.q).toNat⟩
  | n + 1 =>
    match x.onGrid? (scale - digits) with
    | some d => d
    | none => x.search scale (digits + 1) n

/-- Moves trailing zeros of the digits into the exponent, at most `n` of them. -/
def Dec.strip : Nat → Dec → Dec
  | 0, d => d
  | n + 1, d =>
    if d.digits % 10 = 0 ∧ d.digits ≠ 0 then strip n ⟨d.digits / 10, d.exponent + 1⟩ else d

/-- The shortest decimal that reads back to a double. -/
def Double.shortest (x : Double) : Dec :=
  if x.m = 0 then ⟨0, 0⟩ else (x.search x.scale 1 17).strip 17

/-- The digits of a decimal without a sign, with no exponent and no more digits than needed. -/
def Dec.positional (d : Dec) : String :=
  let digits := (Nat.repr d.digits).toList
  if 0 ≤ d.exponent then String.ofList (digits ++ List.replicate d.exponent.toNat '0')
  else
    let places := (-d.exponent).toNat
    let padded := List.replicate (places + 1 - digits.length) '0' ++ digits
    let whole := padded.length - places
    String.ofList (padded.take whole ++ '.' :: padded.drop whole)

/-- A double is written with the fewest digits that read back and never with an exponent. -/
def textOf (x : Float) : String :=
  match Double.ofFloat? x with
  | some d => (if isSigned x then "-" else "") ++ d.shortest.positional
  | none => if x.isNaN then "NaN" else if isSigned x then "-inf" else "inf"

end Snippet.Decimal
