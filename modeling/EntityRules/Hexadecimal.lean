/-!
# `EntityRules.Hexadecimal`: reading base sixteen

Both kinds of document write characters by their numbers in base sixteen, in
digits of either case.
-/

set_option autoImplicit false

namespace EntityRules

namespace Hexadecimal

/-- The value of a digit. -/
def digit? (c : Char) : Option Nat :=
  if c.isDigit then some (c.toNat - '0'.toNat)
  else if 'a' ≤ c ∧ c ≤ 'f' then some (c.toNat - 'a'.toNat + 10)
  else if 'A' ≤ c ∧ c ≤ 'F' then some (c.toNat - 'A'.toNat + 10)
  else none

/-- The value of a sequence of digits, the first one the most significant. -/
def value? (digits : List Char) : Option Nat :=
  digits.foldl (fun acc c => do
    let n ← acc
    let d ← digit? c
    return n * 16 + d) (some 0)

end Hexadecimal

end EntityRules
