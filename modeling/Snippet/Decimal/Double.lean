/-!
# Doubles as exact numbers

A finite double is `m * 2 ^ q` with a sign. Everything that has to be exact about doubles, such as
their shortest text and their remainder, is computed on `m` and `q` with natural numbers.
-/

namespace Snippet.Decimal

/-- A finite double without its sign. -/
structure Double where
  /-- The significand. -/
  m : Nat
  /-- The exponent of two. -/
  q : Int
  /-- Whether the gap to the double below is half the gap to the one above. -/
  narrowBelow : Bool
  deriving DecidableEq, Repr

/-- The significand of a power of two: its leading bit alone. A normal double has this bit. -/
def leadingBit : Nat := 0x10000000000000

/-- The number of exponents that fit the bits of a double, the one of infinity included. -/
def exponentCount : Nat := 0x800

namespace Double

/-- The magnitude of a finite double; nothing for an infinity or no number. -/
def ofFloat? (x : Float) : Option Double :=
  let bits := x.toBits.toNat
  let exponent := bits / leadingBit % exponentCount
  let fraction := bits % leadingBit
  if exponent = exponentCount - 1 then none
  else if exponent = 0 then some ⟨fraction, -1074, false⟩
  else some ⟨leadingBit + fraction, (exponent : Int) - 1075, fraction = 0 ∧ 1 < exponent⟩

/-- The double with this magnitude, for a significand that fits. -/
def toFloat (m : Nat) (q : Int) : Float :=
  (Float.ofNat m).scaleB q

end Double

/-- Whether the sign bit is set, also on a zero. -/
def isSigned (x : Float) : Bool :=
  x.toBits.toNat / (leadingBit * exponentCount) = 1

/-- Both significands at the lower of two exponents. -/
def align (a b : Double) : Nat × Nat × Int :=
  let q := min a.q b.q
  (a.m * Nat.pow 2 (a.q - q).toNat, b.m * Nat.pow 2 (b.q - q).toNat, q)

/-- Drops factors of two from a significand while it does not fit 53 bits, at most `n` of them. -/
def narrow : Nat → Nat → Int → Nat × Int
  | 0, m, q => (m, q)
  | n + 1, m, q => if m < 2 * leadingBit then (m, q) else narrow n (m / 2) (q + 1)

/-- The exact remainder of the division that rounds to zero. It has the sign of the dividend. -/
def remainder (x y : Float) : Float :=
  match Double.ofFloat? x, Double.ofFloat? y with
  | some a, some b =>
    let (m, n, q) := align a b
    if n = 0 then 0.0 / 0.0
    else
      let (r, q) := narrow 2200 (m % n) q
      let r := Double.toFloat r q
      if isSigned x then -r else r
  | some _, none => if y.isNaN then y else x
  | none, _ => 0.0 / 0.0

end Snippet.Decimal
