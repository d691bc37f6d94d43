import EntityRules.Decimal.Basic

/-!
# `EntityRules.Decimal.Numeral`: reading a decimal from its text

A plain numeral is an optional sign and digits with at most one point; an
underscore may stand anywhere after the first digit. A text with an `e` or `E`
is a plain numeral, the mark, and an exponent of ten.

Digits that no longer fit are treated by where they stand. Before the point a
mantissa of more than 96 bits is refused. After the point, the first digit that
finds no room (scale 28 is reached, or the mantissa would outgrow its 96 bits)
rounds the digits before it, half up, and what follows has to be digits and
underscores but counts no more. An underscore at scale 28 is passed over like
any other if the digits before the last one make a long mantissa
(`longMantissa`); after fewer digits it stands for a zero there.

An exponent that shifts digits beyond scale 28 rounds too, and what it rounds to
zero keeps its sign: `-0.4e-28` is a zero with a minus.

* `readPlain`: a numeral without an exponent.
* `read`: a numeral of either form; `NumeralError` is why it was refused.
-/

set_option autoImplicit false

namespace EntityRules

/-- Why a text is not a decimal. -/
inductive NumeralError
  /-- No numeral at all, or an exponent that cannot be read. -/
  | malformed
  /-- Nothing before the exponent mark. -/
  | empty
  | unknownCharacter
  | secondPoint
  /-- An underscore before the first digit. -/
  | leadingUnderscore
  | noDigits
  /-- More than 96 bits before the point. -/
  | tooManyDigits
  /-- Rounding carried a whole number over 96 bits. -/
  | roundedTooFar
  /-- An exponent beyond 28 either way. -/
  | exponentTooLarge (exponent : Nat)
  /-- The exponent carries the mantissa over 96 bits. -/
  | tooLarge
deriving DecidableEq, Repr

namespace NumeralError

/-- The text of a refusal. -/
def message : NumeralError → String
  | malformed => "Failed to parse"
  | empty => "Invalid decimal: empty"
  | unknownCharacter => "Invalid decimal: unknown character"
  | secondPoint => "Invalid decimal: two decimal points"
  | leadingUnderscore => "Invalid decimal: must start lead with a number"
  | noDigits => "Invalid decimal: no digits found"
  | tooManyDigits => "Invalid decimal: overflow from too many digits"
  | roundedTooFar => "Invalid decimal: overflow from mantissa after rounding"
  | exponentTooLarge n => s!"Scale exceeds the maximum precision allowed: {n} > 28"
  | tooLarge => "Number exceeds maximum value that can be represented."

/-- Why a character that is no digit cannot stand in a numeral. -/
def ofCharacter (c : Char) : NumeralError :=
  if c = '.' then secondPoint
  else if c = '_' then leadingUnderscore
  else unknownCharacter

end NumeralError

namespace Decimal

/-- The value of a digit. -/
def digit? (c : Char) : Option Nat :=
  if c.isDigit then some (c.toNat - '0'.toNat) else none

/-! ### Plain numerals -/

/-- What may follow a digit that was rounded away. -/
def checkIgnored : List Char → Except NumeralError Unit
  | [] => .ok ()
  | c :: rest =>
    if c.isDigit || c == '_' then checkIgnored rest else .error (.ofCharacter c)

/-- Rounds half up by the first digit that finds no room. A mantissa that
thereby outgrows its bits gives up its last digit as well. -/
def roundAway (mantissa scale dropped : Nat) : Except NumeralError (Nat × Nat) :=
  if dropped < 5 then .ok (mantissa, scale)
  else if mantissa + 1 < mantissaLimit then .ok (mantissa + 1, scale)
  else if scale = 0 then .error .roundedTooFar
  else .ok ((mantissa + 5) / 10, scale - 1)

/-- Ends a numeral at the first digit that finds no room. A mantissa that
rounding carries too far is refused before the characters left are looked at. -/
def endAt (mantissa scale dropped : Nat) (rest : List Char) :
    Except NumeralError (Nat × Nat) := do
  let rounded ← roundAway mantissa scale dropped
  checkIgnored rest
  return rounded

/-- The least long mantissa: 255 below a tenth of the greatest 64-bit number. A
shorter one still fits 64 bits with one more digit. -/
def longMantissa : Nat := (2 ^ 64 - 1) / 10 - 255

/-- Reads the characters after the point onto the digits read so far; `scale`
counts those after the point. The answer is a mantissa and its scale. At scale 28
the last digit is `mantissa % 10`, and those before it are `mantissa / 10`. -/
def readFraction (mantissa scale : Nat) (digitSeen : Bool) :
    List Char → Except NumeralError (Nat × Nat)
  | [] => if digitSeen then .ok (mantissa, scale) else .error .noDigits
  | c :: rest =>
    match digit? c with
    | some d =>
      if scale < maxScale ∧ mantissa * 10 + d < mantissaLimit then
        readFraction (mantissa * 10 + d) (scale + 1) true rest
      else endAt mantissa scale d rest
    | none =>
      if c = '_' ∧ digitSeen then
        if scale < maxScale ∨ longMantissa ≤ mantissa / 10 then
          readFraction mantissa scale digitSeen rest
        else endAt mantissa scale 0 rest
      else .error (.ofCharacter c)

/-- Reads the characters before the point, and what follows it, onto the digits
read so far. -/
def readWhole (mantissa : Nat) (digitSeen : Bool) :
    List Char → Except NumeralError (Nat × Nat)
  | [] => if digitSeen then .ok (mantissa, 0) else .error .noDigits
  | c :: rest =>
    match digit? c with
    | some d =>
      if mantissa * 10 + d < mantissaLimit then readWhole (mantissa * 10 + d) true rest
      else .error .tooManyDigits
    | none =>
      if c = '.' then readFraction mantissa 0 digitSeen rest
      else if c = '_' ∧ digitSeen then readWhole mantissa digitSeen rest
      else .error (.ofCharacter c)

/-- Splits a leading sign off. -/
def splitSign : List Char → Bool × List Char
  | '-' :: rest => (true, rest)
  | '+' :: rest => (false, rest)
  | chars => (false, chars)

/-- A decimal whose parts fit; parts that do not fit are too large. -/
def orTooLarge : Option Decimal → Except NumeralError Decimal
  | some d => .ok d
  | none => .error .tooLarge

/-- Reads a numeral without an exponent. -/
def readPlain (chars : List Char) : Except NumeralError Decimal :=
  if chars.isEmpty then .error .empty
  else do
    let (negative, body) := splitSign chars
    let (mantissa, scale) ← readWhole 0 false body
    orTooLarge (ofParts? negative mantissa scale)

/-! ### Exponents -/

/-- A natural number below `2 ^ 32` in decimal digits, after an optional plus. -/
def readExponent? (chars : List Char) : Option Nat :=
  let digits := match chars with
    | '+' :: rest => rest
    | _ => chars
  if digits.isEmpty || !digits.all Char.isDigit then none
  else
    let n := Nat.ofDigitChars 10 digits 0
    if n < 2 ^ 32 then some n else none

/-- Divides by a power of ten. Digits beyond scale 28 are rounded away, a half
away from zero; the sign stays even where no digit is left. -/
def scaleDown (d : Decimal) (exponent : Nat) : Except NumeralError Decimal :=
  if maxScale < exponent then .error (.exponentTooLarge exponent)
  else if d.scale + exponent ≤ maxScale then
    orTooLarge (signedParts? d.negative d.mantissa (d.scale + exponent))
  else
    let unit := 10 ^ (d.scale + exponent - maxScale)
    orTooLarge (signedParts? d.negative ((d.mantissa + unit / 2) / unit) maxScale)

/-- Multiplies by a power of ten: first the scale is used up, then the mantissa
grows. -/
def scaleUp (d : Decimal) (exponent : Nat) : Except NumeralError Decimal :=
  if exponent ≤ d.scale then orTooLarge (signedParts? d.negative d.mantissa (d.scale - exponent))
  else if maxScale < exponent then .error (.exponentTooLarge exponent)
  else orTooLarge (signedParts? d.negative (d.mantissa * 10 ^ (exponent - d.scale)) 0)

/-- Whether a character separates a numeral from its exponent. -/
def isExponentMark (c : Char) : Bool := c == 'e' || c == 'E'

/-- Reads the exponent of a numeral and applies it. -/
def applyExponent (d : Decimal) : List Char → Except NumeralError Decimal
  | '-' :: rest =>
    match readExponent? rest with
    | some n => d.scaleDown n
    | none => .error .malformed
  | chars =>
    match readExponent? chars with
    | some n => d.scaleUp n
    | none => .error .malformed

/-- Reads a numeral. One without an exponent is either a plain numeral or
malformed; in one with an exponent the first mark divides. -/
def readChars (chars : List Char) : Except NumeralError Decimal :=
  match chars.dropWhile (fun c => !isExponentMark c) with
  | [] =>
    match readPlain chars with
    | .ok d => .ok d
    | .error _ => .error .malformed
  | _ :: exponent => do
    let d ← readPlain (chars.takeWhile fun c => !isExponentMark c)
    d.applyExponent exponent

/-- Reads a decimal from its text. -/
def read (text : String) : Except NumeralError Decimal := readChars text.toList

end Decimal

end EntityRules
