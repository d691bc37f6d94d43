import EntityRules.Binary64.Basic

/-!
# `EntityRules.Binary64.Shortest`: the fewest digits that read back

Every finite number is the nearest one to a whole interval of reals. Among the
decimals inside that interval, `shortest` takes one with the fewest digits, and
of those the one nearest to the number. All of it is exact arithmetic on natural
numbers: the interval is a triple of numerators over one denominator, and on
each grid of decimals only the two neighbours of the number can be inside and
nearest.
-/

set_option autoImplicit false

namespace EntityRules

namespace Binary64

/-- The digits of a positive decimal `0.d₁d₂… * 10 ^ point`. -/
structure Digits where
  digits : List Char
  point : Int

namespace Shortest

/-- A number and the ends of its rounding interval, over one denominator;
`closed` says whether the ends themselves round to the number. -/
structure Interval where
  value : Nat
  low : Nat
  high : Nat
  denominator : Nat
  closed : Bool

/-- The interval of the number with these bits, its sign left out. -/
def Interval.ofBits (bits : UInt64) : Interval :=
  let fraction := bits.toNat % 2 ^ 52
  let exponent := bits.toNat / 2 ^ 52 % 2 ^ 11
  let mantissa := if exponent = 0 then fraction else fraction + 2 ^ 52
  let power : Int := (max exponent 1 : Nat) - 1075
  -- Four units to the mantissa's one, so that half a unit and, below a power of
  -- two, a quarter of one are whole.
  let value := 4 * mantissa
  let below := if fraction = 0 ∧ 1 < exponent then 1 else 2
  let up := 2 ^ power.toNat
  { value := value * up
    low := (value - below) * up
    high := (value + 2) * up
    denominator := 4 * 2 ^ (-power).toNat
    closed := mantissa % 2 = 0 }

/-- The position of the point before the first digit: the least `k` with
`value < 10 ^ k`. -/
def Interval.point (i : Interval) : Int :=
  let whole := i.value / i.denominator
  if whole = 0 then
    let isBefore (zeros : Nat) : Bool := i.denominator ≤ i.value * 10 ^ (zeros + 1)
    let zeros : Nat := ((List.range 400).find? isBefore).getD 0
    0 - zeros
  else (Nat.toDigits 10 whole).length

/-- The interval scaled by a power of ten. -/
def Interval.scale (i : Interval) (power : Int) : Interval :=
  let up := 10 ^ power.toNat
  { i with value := i.value * up, low := i.low * up, high := i.high * up
           denominator := i.denominator * 10 ^ (-power).toNat }

/-- Whether the whole number `n` is inside. -/
def Interval.holds (i : Interval) (n : Nat) : Bool :=
  let place := n * i.denominator
  if i.closed then i.low ≤ place && place ≤ i.high else i.low < place && place < i.high

/-- The whole number inside that is nearest to the value, if one of the value's
two neighbours is inside; of two equally near the even one. -/
def Interval.nearest? (i : Interval) : Option Nat :=
  let below := i.value / i.denominator
  let rest := 2 * (i.value % i.denominator)
  let upFirst := i.denominator < rest || (rest == i.denominator && below % 2 == 1)
  let (first, second) := if upFirst then (below + 1, below) else (below, below + 1)
  if i.holds first then some first else if i.holds second then some second else none

end Shortest

/-- The digits of a positive whole number, zeros at the end left out. -/
def significantDigits (n : Nat) : List Char :=
  ((Nat.toDigits 10 n).reverse.dropWhile (· == '0')).reverse

/-- The fewest digits that read back as the number, its sign left out. Seventeen
always suffice. -/
def shortest (x : Binary64) : Digits :=
  let i := Shortest.Interval.ofBits x.bits
  let point := i.point
  let onGrid (n : Nat) : Option (Nat × Int) :=
    let exponent := point - (n + 1 : Nat)
    (i.scale (-exponent)).nearest?.map fun digits => (digits, exponent)
  match (List.range 17).findSome? onGrid with
  | some (digits, exponent) =>
    ⟨significantDigits digits, exponent + (Nat.toDigits 10 digits).length⟩
  | none => ⟨['0'], 1⟩

end Binary64

end EntityRules
