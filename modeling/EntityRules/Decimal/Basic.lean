import EntityRules.Number

/-!
# `EntityRules.Decimal.Basic`: scaled decimals of 96 bits

A decimal is a sign, a mantissa below `2 ^ 96` and a scale of at most 28: the
value is `± mantissa / 10 ^ scale`. The scale is part of what a decimal shows
(`1.5` and `1.50` are two decimals of one value), so equality of digits and
equality of values are kept apart: `=` compares the parts, `sameValue` and
`order` compare `units`, the value counted in `10 ^ -28`.
-/

set_option autoImplicit false

namespace EntityRules

/-- A decimal `± mantissa / 10 ^ scale`. -/
structure Decimal where
  negative : Bool
  mantissa : Nat
  scale : Nat
  mantissa_lt : mantissa < 2 ^ 96
  scale_le : scale ≤ 28
deriving DecidableEq

namespace Decimal

/-- The greatest number of digits after the point. -/
def maxScale : Nat := 28

/-- The bound that every mantissa stays under. -/
def mantissaLimit : Nat := 2 ^ 96

/-- Zero without digits after the point. -/
def zero : Decimal := ⟨false, 0, 0, by decide, by decide⟩

instance : Inhabited Decimal := ⟨zero⟩

/-- The decimal with these parts, if they fit. A zero keeps the sign it is
given. -/
def signedParts? (negative : Bool) (mantissa scale : Nat) : Option Decimal :=
  if h : mantissa < 2 ^ 96 ∧ scale ≤ 28 then
    some ⟨negative, mantissa, scale, h.1, h.2⟩
  else none

/-- The decimal with these parts, if they fit. A zero loses its sign. -/
def ofParts? (negative : Bool) (mantissa scale : Nat) : Option Decimal :=
  signedParts? (negative && mantissa != 0) mantissa scale

/-- Whether the value is zero, whatever the scale. -/
def isZero (d : Decimal) : Bool := d.mantissa == 0

/-- The mantissa with its sign. -/
def signed (d : Decimal) : Int := if d.negative then -(d.mantissa : Int) else d.mantissa

/-- The value counted in units of `10 ^ -28`, the finest that a decimal can
show. -/
def units (d : Decimal) : Int := d.signed * 10 ^ (28 - d.scale)

/-- Whether two decimals have one value; their scales may differ. -/
def sameValue (l r : Decimal) : Bool := l.units == r.units

/-- How the values of two decimals are ordered. -/
def order (l r : Decimal) : Ordering := compare l.units r.units

/-- The opposite decimal; a zero stays as it is. -/
def neg (d : Decimal) : Decimal :=
  if d.isZero then d else { d with negative := !d.negative }

/-! ### Text -/

/-- The digits of the mantissa, with zeros in front until one digit stands
before the point. -/
def digits (d : Decimal) : List Char := (Nat.toDigits 10 d.mantissa).leftpad (d.scale + 1) '0'

/-- The digits before the point. -/
def wholeDigits (d : Decimal) : List Char := d.digits.take (d.digits.length - d.scale)

/-- The digits after the point, as many as the scale. -/
def fractionDigits (d : Decimal) : List Char := d.digits.drop (d.digits.length - d.scale)

/-- The characters of a decimal: its sign, the digits before the point, and the
point with the digits after it if there are any. -/
def chars (d : Decimal) : List Char :=
  (if d.negative then ['-'] else []) ++ d.wholeDigits ++
    (if d.scale = 0 then [] else '.' :: d.fractionDigits)

/-- The text of a decimal, all digits of its scale included. -/
def text (d : Decimal) : String := String.ofList d.chars

/-! ### Whole numbers -/

/-- A whole number as a decimal without digits after the point. -/
def ofNumber (n : Number) : Decimal where
  negative := decide (n.toInt < 0)
  mantissa := n.toInt.natAbs
  scale := 0
  mantissa_lt := by
    have := n.lower
    have := n.upper
    omega
  scale_le := by decide

/-- The value without its fraction, so rounded toward zero. -/
def truncate (d : Decimal) : Int :=
  let whole : Nat := d.mantissa / 10 ^ d.scale
  if d.negative then -(whole : Int) else whole

/-- The whole number that a decimal truncates to, if it is in range. -/
def toNumber? (d : Decimal) : Option Number := Number.ofInt? d.truncate

end Decimal

end EntityRules
