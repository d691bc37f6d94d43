import EntityRules.Hexadecimal
import EntityRules.Power
import EntityRules.Toml.Basic

/-!
# `EntityRules.Toml.Scalar`: numbers, dates and times

What begins with a digit or a sign is a date, a time, a floating-point number or
an integer, tried in this order. Every reader takes characters off the front of
a text and answers with the rest of it; what may follow is not its concern.

Integers fit a signed 64-bit word, and a floating-point number does not exceed
the greatest one. Underscores stand between digits only, and no decimal integer
but `0` begins with `0`.
-/

set_option autoImplicit false

namespace EntityRules

namespace Toml

/-! ### Digits -/

/-- Reads digits of some base, with single underscores between them, onto those
in `done`, last one first. -/
def readDigits? (isDigit : Char → Bool) (done : List Char) :
    List Char → Option (List Char × List Char)
  | '_' :: c :: rest => if isDigit c then readDigits? isDigit (c :: done) rest else none
  | ['_'] => none
  | c :: rest =>
    if isDigit c then readDigits? isDigit (c :: done) rest else some (done.reverse, c :: rest)
  | [] => some (done.reverse, [])

/-- Reads digits of some base, at least one. -/
def readSomeDigits? (isDigit : Char → Bool) : List Char → Option (List Char × List Char)
  | c :: rest => if isDigit c then readDigits? isDigit [c] rest else none
  | [] => none

/-- Takes a sign off the front: whether it is minus, and whether there is one. -/
def splitSign : List Char → Bool × Bool × List Char
  | '-' :: rest => (true, true, rest)
  | '+' :: rest => (false, true, rest)
  | rest => (false, false, rest)

/-- Reads a decimal integer without its sign: `0`, or digits that do not begin
with it. -/
def readUnsigned? : List Char → Option (List Char × List Char)
  | '0' :: rest => some (['0'], rest)
  | rest => readSomeDigits? Char.isDigit rest

/-! ### Numbers -/

/-- The integer, if it fits a signed 64-bit word. -/
def word? (n : Int) : Option Toml :=
  if -2 ^ 63 ≤ n ∧ n < 2 ^ 63 then some (integer n) else none

/-- Reads an integer of base 16, 8 or 2 after its mark. -/
def readBased? (base : Nat) (chars : List Char) : Option (Toml × List Char) := do
  let isDigit c := (Hexadecimal.digit? c).any (· < base)
  let (digits, rest) ← readSomeDigits? isDigit chars
  let n := digits.foldl (fun n c => n * base + (Hexadecimal.digit? c).getD 0) 0
  return (← word? n, rest)

/-- Reads the exponent of a floating-point number after its mark. -/
def readExponent? (chars : List Char) : Option (Int × List Char) := do
  let (negative, _, chars) := splitSign chars
  let (digits, rest) ← readSomeDigits? Char.isDigit chars
  let n : Int := Nat.ofDigitChars 10 digits 0
  return (if negative then -n else n, rest)

/-- Reads the exponent of a floating-point number, if there is one. -/
def readOptionalExponent? : List Char → Option (Int × List Char)
  | 'e' :: rest => readExponent? rest
  | 'E' :: rest => readExponent? rest
  | rest => some (0, rest)

/-- Whether `digits * 10 ^ exponent` is nearer to infinity than to the greatest
floating-point number. A number with more than 400 places before the point is,
and one with none is not, whatever its digits. -/
def tooGreat (digits : List Char) (exponent : Int) : Bool :=
  let mantissa := Nat.ofDigitChars 10 digits 0
  let limit := (2 ^ 54 - 1) * 2 ^ 970
  let places := exponent + digits.length
  if mantissa = 0 ∨ places < 0 then false
  else if 0 ≤ exponent then
    if 400 < exponent then true else limit ≤ mantissa * 10 ^ exponent.toNat
  else limit * 10 ^ (-exponent).toNat ≤ mantissa

/-- The floating-point number with these digits. Only a number above zero can be
too great. -/
def float? (negative : Bool) (whole fraction : List Char) (exponent : Int) : Option Toml :=
  if !negative && tooGreat (whole ++ fraction) (exponent - fraction.length) then none
  else some float

/-- Reads what follows the sign and the first digits of a number: a fraction and
an exponent make it a floating-point number. -/
def readNumberEnd? (negative : Bool) (whole : List Char) :
    List Char → Option (Toml × List Char)
  | '.' :: rest => do
    let (fraction, rest) ← readSomeDigits? Char.isDigit rest
    let (exponent, rest) ← readOptionalExponent? rest
    return (← float? negative whole fraction exponent, rest)
  | c :: rest =>
    if c = 'e' ∨ c = 'E' then do
      let (exponent, rest) ← readExponent? rest
      return (← float? negative whole [] exponent, rest)
    else do
      let n : Int := Nat.ofDigitChars 10 whole 0
      return (← word? (if negative then -n else n), c :: rest)
  | [] => do
    let n : Int := Nat.ofDigitChars 10 whole 0
    return (← word? (if negative then -n else n), [])

/-- Reads an integer or a floating-point number. -/
def readNumber? (chars : List Char) : Option (Toml × List Char) :=
  match splitSign chars with
  | (_, _, 'i' :: 'n' :: 'f' :: rest) => some (float, rest)
  | (_, _, 'n' :: 'a' :: 'n' :: rest) => some (float, rest)
  | (_, false, '0' :: 'x' :: rest) => readBased? 16 rest
  | (_, false, '0' :: 'o' :: rest) => readBased? 8 rest
  | (_, false, '0' :: 'b' :: rest) => readBased? 2 rest
  | (negative, _, rest) => do
    let (whole, rest) ← readUnsigned? rest
    readNumberEnd? negative whole rest

/-! ### Dates and times -/

/-- The value of two digits. -/
def pair? (a b : Char) : Option Nat :=
  if a.isDigit ∧ b.isDigit then some (Nat.ofDigitChars 10 [a, b] 0) else none

/-- The number of days of a month. -/
def daysOfMonth (year month : Nat) : Nat :=
  if month = 2 then
    if year % 4 = 0 ∧ (year % 100 ≠ 0 ∨ year % 400 = 0) then 29 else 28
  else if month = 4 ∨ month = 6 ∨ month = 9 ∨ month = 11 then 30
  else 31

/-- Reads a date; the answer is what follows. -/
def readDate? : List Char → Option (List Char)
  | y₁ :: y₂ :: y₃ :: y₄ :: '-' :: m₁ :: m₂ :: '-' :: d₁ :: d₂ :: rest => do
    let century ← pair? y₁ y₂
    let year ← pair? y₃ y₄
    let month ← pair? m₁ m₂
    let day ← pair? d₁ d₂
    if 1 ≤ month ∧ month ≤ 12 ∧ 1 ≤ day ∧ day ≤ daysOfMonth (century * 100 + year) month then
      some rest
    else none
  | _ => none

/-- Reads an hour and a minute; the answer is what follows. -/
def readHourMinute? : List Char → Option (List Char)
  | h₁ :: h₂ :: ':' :: m₁ :: m₂ :: rest => do
    let hour ← pair? h₁ h₂
    let minute ← pair? m₁ m₂
    if hour ≤ 23 ∧ minute ≤ 59 then some rest else none
  | _ => none

/-- Reads a time of the day; the answer is what follows. A second can be a leap
second, and a fraction of it needs a digit. -/
def readTime? (chars : List Char) : Option (List Char) := do
  match ← readHourMinute? chars with
  | ':' :: s₁ :: s₂ :: rest =>
    let second ← pair? s₁ s₂
    if 60 < second then none
    else
      match rest with
      | '.' :: c :: rest =>
        if c.isDigit then some (rest.dropWhile Char.isDigit) else some ('.' :: c :: rest)
      | rest => some rest
  | _ => none

/-- Reads an offset from universal time, if there is one. -/
def readOffset? : List Char → Option (List Char)
  | [] => some []
  | c :: rest =>
    if c = 'Z' ∨ c = 'z' then some rest
    else if c = '+' ∨ c = '-' then readHourMinute? rest
    else some (c :: rest)

/-- Reads a date, a time, or a date and a time with or without an offset; the
answer is what follows. -/
def readDateTime? (chars : List Char) : Option (List Char) :=
  match readDate? chars with
  | none => readTime? chars
  | some (c :: rest) =>
    if c = 'T' ∨ c = 't' ∨ c = ' ' then
      match readTime? rest with
      | some rest => readOffset? rest
      | none => some (c :: rest)
    else some (c :: rest)
  | some [] => some []

/-- Reads what begins with a digit or a sign. -/
def readNumeric? (chars : List Char) : Option (Toml × List Char) :=
  match readDateTime? chars with
  | some rest => some (dateTime, rest)
  | none => readNumber? chars

end Toml

end EntityRules
