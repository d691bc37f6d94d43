/-!
# `EntityRules.Power`: powers of whole numbers

The bounds of words, mantissas and scales are powers of two and of ten. A module
that knows numbers as monoids would read such a power as the power of a monoid,
and one that does not would read it as the power that the numbers are born with.
The instance below goes before both, so that a bound is one term wherever it is
written.
-/

set_option autoImplicit false

namespace EntityRules

/-- The power of a number as its own type has it. -/
@[default_instance 20000]
instance (priority := 20000) powNat {α : Type} [NatPow α] : Pow α Nat := instPowNat

end EntityRules
