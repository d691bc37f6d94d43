import EntityRules.Power

/-!
# `EntityRules.Number`: whole numbers that fit a 64-bit word

A `Number` is an integer from `-2 ^ 63` to `2 ^ 63 - 1`. Its arithmetic is
checked: a result outside that range is refused, never wrapped or clamped.
Division truncates toward zero and a remainder has the sign of its dividend.
-/

set_option autoImplicit false

namespace EntityRules

/-- An integer that fits a signed 64-bit word. -/
structure Number where
  toInt : Int
  lower : -2 ^ 63 ≤ toInt
  upper : toInt < 2 ^ 63
deriving DecidableEq

namespace Number

/-- The number for an integer, if it fits. -/
def ofInt? (n : Int) : Option Number :=
  if h : -2 ^ 63 ≤ n ∧ n < 2 ^ 63 then some ⟨n, h.1, h.2⟩ else none

/-- Zero. -/
def zero : Number := ⟨0, by decide, by decide⟩

instance : Inhabited Number := ⟨zero⟩

/-- The number in base ten. -/
def text (n : Number) : String := toString n.toInt

/-- An integer is a number exactly when it is in range, and then it is kept. -/
theorem ofInt?_eq_some_iff {n : Int} {m : Number} : ofInt? n = some m ↔ m.toInt = n := by
  unfold ofInt?
  constructor
  · intro h
    split at h
    · cases h; rfl
    · cases h
  · intro h
    subst h
    rw [dif_pos ⟨m.lower, m.upper⟩]

/-- A number is its integer. -/
@[simp] theorem ofInt?_toInt (n : Number) : ofInt? n.toInt = some n :=
  ofInt?_eq_some_iff.mpr rfl

/-- The least number over minus one has no quotient in range, and its remainder
is refused with it. -/
def isLeastByMinusOne (l r : Number) : Bool := l.toInt = -2 ^ 63 ∧ r.toInt = -1

/-- The sum, if it is in range. -/
def add? (l r : Number) : Option Number := ofInt? (l.toInt + r.toInt)

/-- The difference, if it is in range. -/
def sub? (l r : Number) : Option Number := ofInt? (l.toInt - r.toInt)

/-- The product, if it is in range. -/
def mul? (l r : Number) : Option Number := ofInt? (l.toInt * r.toInt)

/-- The quotient, truncated toward zero, if it is in range. -/
def div? (l r : Number) : Option Number := ofInt? (l.toInt.tdiv r.toInt)

/-- The remainder with the sign of `l`. It is refused together with the
quotient. -/
def mod? (l r : Number) : Option Number :=
  if isLeastByMinusOne l r then none else ofInt? (l.toInt.tmod r.toInt)

/-- How two numbers are ordered. -/
def order (l r : Number) : Ordering := compare l.toInt r.toInt

end Number

end EntityRules
