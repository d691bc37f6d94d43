import EntityRules.Decimal.Basic

/-!
# `EntityRules.Decimal.Arithmetic`: the five operations on decimals

Sums, differences and products are exact and then fitted: `fit?` drops the
fewest digits after the point that bring mantissa and scale within bounds, and
rounds once, half to even. A quotient grows digit by digit until it is exact or
full (`Quotient`). A remainder is taken by long division in words of 32 bits,
and is exact unless the divisor is wide and a rest has its leading word
(`bringDown`). `none` is a result that no scale can hold.

The scales of the results are part of the contract, so each operation says
which scale it leaves: an addition with zero returns the other operand as it
is, a quotient keeps the zeros it did not need to strip.
-/

set_option autoImplicit false

namespace EntityRules

namespace Decimal

/-! ### Rounding and fitting -/

/-- The quotient rounded to nearest, a half to the even neighbour. -/
def roundHalfEven (n d : Nat) : Nat :=
  let q := n / d
  let r := n % d
  if d < 2 * r ∨ (2 * r = d ∧ q % 2 = 1) then q + 1 else q

/-- Drops the fewest digits after the point that make a mantissa and its scale
fit, rounding once; `none` if even the whole part is too long. -/
def fit? (mantissa scale : Nat) : Option (Nat × Nat) :=
  (List.range' (scale - maxScale) (scale + 1 - (scale - maxScale))).findSome? fun dropped =>
    let rounded := roundHalfEven mantissa (10 ^ dropped)
    if rounded < mantissaLimit then some (rounded, scale - dropped) else none

/-- The decimal nearest to `± mantissa / 10 ^ scale`. -/
def fitted? (negative : Bool) (mantissa scale : Nat) : Option Decimal := do
  let (m, s) ← fit? mantissa scale
  ofParts? negative m s

/-! ### Sums and differences -/

/-- The mantissa with its sign at a scale at least as fine as the decimal's. -/
def signedAt (d : Decimal) (scale : Nat) : Int := d.signed * 10 ^ (scale - d.scale)

/-- The sum. Beside a zero the other operand is returned with its own scale. -/
def add? (l r : Decimal) : Option Decimal :=
  if l.isZero then some r
  else if r.isZero then some l
  else
    let scale := max l.scale r.scale
    let sum := l.signedAt scale + r.signedAt scale
    fitted? (decide (sum < 0)) sum.natAbs scale

/-- The difference: the sum with the opposite. -/
def sub? (l r : Decimal) : Option Decimal := l.add? r.neg

/-! ### Products -/

/-- Whether a mantissa needs more than one 32-bit word. -/
def isLong (d : Decimal) : Bool := 2 ^ 32 ≤ d.mantissa

/-- The product at the sum of the scales, fitted. Two short mantissas with more
than 47 digits after the point between them are too small to show. A negative
product of a long mantissa that rounds to zero keeps its sign. -/
def mul? (l r : Decimal) : Option Decimal := do
  let negative := l.negative != r.negative
  let long := l.isLong || r.isLong
  let scale := l.scale + r.scale
  if l.isZero || r.isZero then return zero
  if !long && 47 < scale then return zero
  let (m, s) ← fit? (l.mantissa * r.mantissa) scale
  signedParts? (negative && (long || m != 0)) m s

/-! ### Quotients -/

/-- Whether a divisor takes more than 64 bits. -/
def isWide (divisor : Nat) : Bool := 2 ^ 64 ≤ divisor

/-- A quotient in the making: the digits found, what is left of the dividend,
the scale of the digits (negative while the point lies to their right), and
whether a remainder was ever carried on. -/
structure Quotient where
  digits : Nat
  remainder : Nat
  scale : Int
  carried : Bool

namespace Quotient

/-- The most digits, up to a bound, that can be appended without leaving 96
bits. -/
def room (digits : Nat) : Nat → Nat
  | 0 => 0
  | n + 1 => if digits * 10 ^ (n + 1) < mantissaLimit then n + 1 else room digits n

/-- Appends `count` digits of the division by `divisor`. -/
def extend (q : Quotient) (divisor count : Nat) (carried : Bool) : Quotient :=
  { digits := q.digits * 10 ^ count + q.remainder * 10 ^ count / divisor
    remainder := q.remainder * 10 ^ count % divisor
    scale := q.scale + count
    carried := carried }

/-- Rounds by the remainder, half to even. -/
def rounded (q : Quotient) (divisor : Nat) : Quotient :=
  { q with digits := roundHalfEven (q.digits * divisor + q.remainder) divisor }

/-- Gives up the last digit of a quotient that outgrew 96 bits, rounding half to
even; a remainder still outstanding breaks the tie upward, and so does a wide
divisor, even where nothing remains. -/
def shortened (q : Quotient) (divisor : Nat) : Quotient :=
  let last := q.digits % 10
  let up := 5 < last ∨
    (last = 5 ∧ (isWide divisor ∨ q.remainder ≠ 0 ∨ q.digits / 10 % 2 = 1))
  { q with digits := if up then q.digits / 10 + 1 else q.digits / 10
           scale := q.scale - 1 }

/-- Carries a division on until it is exact or full. Each step appends at least
one digit, so the fuel is the number of digits that can be missing. -/
def complete (divisor : Nat) : Nat → Quotient → Option Quotient
  | 0, _ => none
  | fuel + 1, q =>
    if q.remainder = 0 then
      if 0 ≤ q.scale then some q
      else
        let next := q.extend divisor (min 9 (-q.scale).toNat) q.carried
        if next.digits < mantissaLimit then complete divisor fuel next else none
    else
      let count := room q.digits (min 9 (maxScale - q.scale).toNat)
      if count = 0 then
        let full := { q with carried := true }.rounded divisor
        if full.digits < mantissaLimit then some full else some (full.shortened divisor)
      else
        let next := q.extend divisor count true
        if next.digits < mantissaLimit then complete divisor fuel next
        else some (next.shortened divisor)

/-- Removes `count` zeros from the end, if they are there and the scale allows
it. -/
def dropZeros (count : Nat) (q : Nat × Nat) : Nat × Nat :=
  if count ≤ q.2 ∧ q.1 % 10 ^ count = 0 then (q.1 / 10 ^ count, q.2 - count) else q

/-- Removes eight zeros at a time while the lowest 32 bits are clear. The fuel
bounds the rounds: a scale has room for three. -/
def dropEights : Nat → Nat × Nat → Nat × Nat
  | 0, q => q
  | fuel + 1, q =>
    if q.1 % 2 ^ 32 = 0 ∧ 8 ≤ q.2 ∧ q.1 % 10 ^ 8 = 0 then
      dropEights fuel (q.1 / 10 ^ 8, q.2 - 8)
    else q

/-- Strips zeros by eights, then at most one block each of four, two and one:
up to one zero can be left. -/
def strip (digits scale : Nat) : Nat × Nat :=
  dropZeros 1 (dropZeros 2 (dropZeros 4 (dropEights 4 (digits, scale))))

end Quotient

/-- The quotient, for a divisor other than zero. Zeros are stripped only if a
remainder had to be carried on: `10.00 / 2` stays `5.00`. -/
def div? (l r : Decimal) : Option Decimal := do
  if l.isZero then return zero
  let start : Quotient :=
    ⟨l.mantissa / r.mantissa, l.mantissa % r.mantissa, l.scale - r.scale, false⟩
  let q ← start.complete r.mantissa 64
  if q.scale < 0 then none
  let (digits, scale) :=
    if q.carried then Quotient.strip q.digits q.scale.toNat else (q.digits, q.scale.toNat)
  ofParts? (l.negative != r.negative) digits scale

/-! ### Remainders -/

/-- The lowest `count` words of 32 bits of a number, the highest first. -/
def words : Nat → Nat → List Nat
  | 0, _ => []
  | count + 1, n => n / 2 ^ (32 * count) % 2 ^ 32 :: words count n

/-- Brings the next word of the dividend down to the rest of a long division. A
rest whose leading word is the divisor's own loses that word first; any other
rest is the remainder of the words seen so far. -/
def bringDown (divisor rest word : Nat) : Nat :=
  let kept := if rest / 2 ^ 64 = divisor / 2 ^ 64 then rest % 2 ^ 64 else rest
  (kept * 2 ^ 32 + word) % divisor

/-- The rest of the long division by a wide divisor of at most 96 bits. Both
numbers are first doubled until the divisor fills its 96 bits. Seven words hold
every dividend: 96 bits, scaled by at most `10 ^ 28` and doubled at most 31
times. -/
def longRest (dividend divisor : Nat) : Nat :=
  let unit := 2 ^ (95 - divisor.log2)
  (words 7 (dividend * unit)).foldl (bringDown (divisor * unit)) 0 / unit

/-- The remainder of the truncated quotient, with the sign of `l`, for a divisor
other than zero; by a wide divisor it is the rest of the long division. An `l`
smaller than `r` is returned as it is. -/
def mod? (l r : Decimal) : Option Decimal :=
  if l.isZero then some zero
  else
    let scale := max l.scale r.scale
    let dividend := (l.signedAt scale).natAbs
    let divisor := (r.signedAt scale).natAbs
    if dividend = divisor then some zero
    else if dividend < divisor then some l
    else
      let rest := if isWide divisor then longRest dividend divisor else dividend % divisor
      ofParts? l.negative rest scale

end Decimal

end EntityRules
