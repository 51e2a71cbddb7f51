import Snippet.Decimal.Double
import Snippet.Run.Fault
import Snippet.Value.Display
import Snippet.Value.Equality
import Snippet.Value.Shape
import Snippet.Word

/-!
# Operators and conversions

Integer arithmetic is exact or a fault; division rounds to zero. An integer beside a double
becomes a double. A string on either side of `+` makes it a concatenation of texts.
-/

namespace Snippet.Run

open Script (BinaryOp DeclType UnaryOp)

/-- The number of levels to which collections may nest. -/
def maxNesting : Nat := 256

/-- The truth of a condition of a construct. -/
def truth (construct : String) : Value → Except Fault Bool
  | .bool b => .ok b
  | v => .error (.type (.notCondition construct v.typeName))

/-- What a variable holds that is declared without a value. -/
def defaultFor : DeclType → Value
  | .int | .long => .int 0
  | .double => .float 0.0
  | .bool => .bool false
  | _ => .null

/-- Whether a variable of this type may hold this value as it is. -/
def admits : DeclType → Value → Bool
  | .var, _ | .let, _ | .object, _ => true
  | .int, .int _ | .long, .int _ => true
  | .double, .float _ => true
  | .bool, .bool _ => true
  | .string, .string _ | .string, .null => true
  | .list, .list _ | .list, .null => true
  | .map, .map _ | .map, .null => true
  | _, _ => false

/-- Admits a value into a variable. An integer becomes a double where one is asked for. -/
def coerce (type : DeclType) (v : Value) : Except Fault Value :=
  match type, v with
  | .double, .int i => .ok (.float i.toFloat)
  | _, _ =>
    if admits type v then .ok v else .error (.type (.noConversion v.typeName type))

/-- What a conversion lets through is admitted. -/
theorem admits_of_coerce {type : DeclType} {v w : Value} (h : coerce type v = .ok w) :
    admits type w = true := by
  unfold coerce at h
  split at h
  · cases h
    rfl
  · split at h
    · cases h
      assumption
    · cases h

/-- An integer that fits a signed word. -/
def exactly (n : Int) : Except Fault Value :=
  if -(intBound : Int) ≤ n ∧ n < intBound then .ok (.int (.ofInt n)) else .error .overflow

/-- The value of a unary operator. -/
def applyUnary : UnaryOp → Value → Except Fault Value
  | .not, .bool b => .ok (.bool !b)
  | .neg, .int i => exactly (-i.toInt)
  | .neg, .float x => .ok (.float (-x))
  | op, v => .error (.type (.noUnary op v.typeName))

/-- Holds a collection to the limits on elements and levels. -/
def shaped (limit : Nat) (v : Value) : Except Fault Value :=
  match v.checkShape limit maxNesting with
  | .ok () => .ok v
  | .error .elements => .error (.tooManyElements limit)
  | .error .depth => .error (.tooDeep maxNesting)

/-- The order of two doubles, unless one of them is no number. -/
def compareFloat? (a b : Float) : Option Ordering :=
  if a < b then some .lt else if a > b then some .gt else if a == b then some .eq else none

/-- The order of two values of comparable types; nothing inside if one is no number. -/
def compare? (a b : Value) : Option (Option Ordering) :=
  match a, b with
  | .int a, .int b => some (some (compare a.toInt b.toInt))
  | .string a, .string b => some (some (compareOfLessAndEq a b))
  | a, b =>
    match a.number?, b.number? with
    | some a, some b => some (compareFloat? a b)
    | _, _ => none

/-- The text of a value in a concatenation, where null is empty. -/
def concatText (limit : Nat) : Value → String
  | .null => ""
  | v => v.toText limit

/-- The concatenation of two texts within a limit. -/
def concat (limit : Nat) (a b : Value) : Except Fault Value :=
  let joined := concatText limit a ++ concatText limit b
  if limit < joined.length then .error (.tooManyElements limit) else .ok (.string joined)

/-- The concatenation of two lists within a limit. -/
def append (limit : Nat) (a b : List Value) : Except Fault Value :=
  if limit < a.length + b.length then .error (.tooManyElements limit)
  else shaped limit (.list (a ++ b))

/-- Arithmetic on integers. -/
def applyInt (op : BinaryOp) (a b : Int64) : Except Fault Value :=
  let x := a.toInt
  let y := b.toInt
  match op with
  | .add => exactly (x + y)
  | .sub => exactly (x - y)
  | .mul => exactly (x * y)
  | .div => if y = 0 then .error .divideByZero else exactly (x.tdiv y)
  | .rem =>
    if y = 0 then .error .divideByZero
    else do
      let _ ← exactly (x.tdiv y)
      exactly (x.tmod y)
  | _ => .error (.type (.noBinary op "int" "int"))

/-- Arithmetic on doubles. -/
def applyFloat? (op : BinaryOp) (a b : Float) : Option Float :=
  match op with
  | .add => some (a + b)
  | .sub => some (a - b)
  | .mul => some (a * b)
  | .div => some (a / b)
  | .rem => some (Decimal.remainder a b)
  | _ => none

/-- The value of an arithmetic operator. -/
def applyArithmetic (limit : Nat) (op : BinaryOp) (a b : Value) : Except Fault Value :=
  let mismatch := Fault.type (.noBinary op a.typeName b.typeName)
  match op, a, b with
  | .add, .string _, _ | .add, _, .string _ => concat limit a b
  | .add, .list x, .list y => append limit x y
  | op, .int x, .int y => applyInt op x y
  | op, a, b =>
    match a.number?, b.number? with
    | some x, some y => (applyFloat? op x y).elim (.error mismatch) (.ok ∘ .float)
    | _, _ => .error mismatch

/-- The value of a binary operator whose operands are both evaluated. -/
def apply (limit : Nat) (op : BinaryOp) (a b : Value) : Except Fault Value :=
  let ordered (holds : Ordering → Bool) : Except Fault Value :=
    match compare? a b with
    | some order => .ok (.bool (order.any holds))
    | none => .error (.type (.noBinary op a.typeName b.typeName))
  match op with
  | .eq => .ok (.bool (a.looseEq b))
  | .ne => .ok (.bool !(a.looseEq b))
  | .lt => ordered Ordering.isLT
  | .le => ordered Ordering.isLE
  | .gt => ordered Ordering.isGT
  | .ge => ordered Ordering.isGE
  | op => applyArithmetic limit op a b

end Snippet.Run
