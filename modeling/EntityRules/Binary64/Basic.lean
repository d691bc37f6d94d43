import EntityRules.Power

/-!
# `EntityRules.Binary64.Basic`: 64-bit floating point, by its bits

Floating point enters only as numbers of a JSON document, and leaves only as
their text. A `Binary64` is therefore its 64 bits, so that equality is decided
on them and the signed zeros differ.

`ofDigits?` is how a numeral becomes one: the digits that fit an unsigned word
are taken exactly and scaled by one correctly rounded power of ten. The last bit
can differ from the nearest number; that scaling is the rule of the format.
-/

set_option autoImplicit false

namespace EntityRules

/-- A 64-bit floating-point number. -/
structure Binary64 where
  bits : UInt64
deriving DecidableEq

namespace Binary64

/-- The number of a runtime value. -/
def ofFloat (f : Float) : Binary64 := ⟨f.toBits⟩

/-- Whether the sign bit is set. -/
def isNegative (x : Binary64) : Bool := x.bits.toNat / 2 ^ 63 == 1

/-- The power of ten nearest to `10 ^ n`. -/
def powerOfTen (n : Nat) : Float := Float.ofScientific 1 false n

/-- Scales by a power of ten, in steps of at most 308; nothing above the largest
finite number is a number. The fuel bounds the steps down. -/
def scaled? : Nat → Float → Int → Option Float
  | 0, _, _ => none
  | fuel + 1, f, exponent =>
    if exponent.natAbs ≤ 308 then
      if 0 ≤ exponent then
        let g := f * powerOfTen exponent.natAbs
        if g.isInf then none else some g
      else some (f / powerOfTen exponent.natAbs)
    else if f == 0 then some f
    else if 0 ≤ exponent then none
    else scaled? fuel (f / powerOfTen 308) (exponent + 308)

/-- The number `± mantissa * 10 ^ exponent` for a mantissa of 64 bits; `none` if
it is too large. Below `10 ^ -1000` every mantissa has come down to zero. -/
def ofDigits? (negative : Bool) (mantissa : UInt64) (exponent : Int) : Option Binary64 := do
  let f ← scaled? 8 mantissa.toFloat (max exponent (-2000))
  return ofFloat (if negative then -f else f)

end Binary64

end EntityRules
