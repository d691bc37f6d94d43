import EntityRules.Decimal.Arithmetic
import EntityRules.Leaf.Basic

/-!
# `EntityRules.Leaf.Arithmetic`: operators on leaves

Both operands are first read as the kind of the operator. A zero divisor and a
result that the kind cannot hold are errors; no value is wrapped or clamped.
-/

set_option autoImplicit false

namespace EntityRules

namespace ArithmeticOp

/-- The operator on numbers; `none` if the result is out of range. The divisor
is not zero. -/
def onNumbers? : ArithmeticOp → Number → Number → Option Number
  | add => Number.add?
  | subtract => Number.sub?
  | multiply => Number.mul?
  | divide => Number.div?
  | modulus => Number.mod?

/-- The operator on decimals; `none` if the result is out of range. The divisor
is not zero. -/
def onDecimals? : ArithmeticOp → Decimal → Decimal → Option Decimal
  | add => Decimal.add?
  | subtract => Decimal.sub?
  | multiply => Decimal.mul?
  | divide => Decimal.div?
  | modulus => Decimal.mod?

/-- The result of an operator, or why there is none. -/
def checked {α : Type} (op : ArithmeticOp) (zeroDivisor : Bool) (result : Option α) :
    Except EvalError α :=
  if op.divides && zeroDivisor then .error (.arithmetic (.byZero op))
  else match result with
    | some x => .ok x
    | none => .error (.arithmetic (.overflow op))

end ArithmeticOp

namespace Leaf

/-- One step of arithmetic in a kind. The left operand is read first. -/
def arithmetic (op : ArithmeticOp) (kind : NumericKind) (l r : Leaf) : Except EvalError Leaf :=
  match kind with
  | .number => do
    let a ← l.asNumber
    let b ← r.asNumber
    let n ← op.checked (b.toInt == 0) (op.onNumbers? a b)
    return number n
  | .decimal => do
    let a ← l.asDecimal
    let b ← r.asDecimal
    let d ← op.checked b.isZero (op.onDecimals? a b)
    return decimal d

/-- How two texts are ordered: by their characters, first difference first. -/
def textOrder (l r : String) : Ordering := if l < r then .lt else if l = r then .eq else .gt

/-- A comparison in a kind. The left side is read first. -/
def compare (op : ComparatorOp) (kind : ScalarKind) (l r : Leaf) : Except EvalError Bool :=
  match kind with
  | .number => do
    let a ← l.asNumber
    let b ← r.asNumber
    return op.holds (a.order b)
  | .decimal => do
    let a ← l.asDecimal
    let b ← r.asDecimal
    return op.holds (a.order b)
  | .text => return op.holds (textOrder l.asText r.asText)

end Leaf

end EntityRules
