import EntityRules.Hexadecimal
import EntityRules.Json.Basic

/-!
# `EntityRules.Json.Reader`: JSON values from text

The reader keeps apart what a number was written as. Digits alone are a whole
number as long as they fit a signed or an unsigned 64-bit word; `-0`, anything
longer, and anything with a point or an exponent is floating point. The members
of an object come out in name order, a later one replacing an earlier one of the
same name.
-/

set_option autoImplicit false

namespace EntityRules

namespace Json

/-! ### Numbers -/

/-- The greatest mantissa that is taken exactly. -/
def greatestWord : Nat := 2 ^ 64 - 1

/-- Appends digits to a mantissa while it stays one word. The answer is the
mantissa and the number of digits left over. -/
def takeWord (mantissa : Nat) : List Char → Nat × Nat
  | [] => (mantissa, 0)
  | c :: rest =>
    let next := mantissa * 10 + (c.toNat - '0'.toNat)
    if next ≤ greatestWord then takeWord next rest else (mantissa, rest.length + 1)

/-- A number in floating point: the digits before the point, those after it and
an exponent. Digits that do not fit the mantissa still count their place before
the point and nothing after it. -/
def floatOfDigits? (negative : Bool) (whole fraction : List Char) (exponent : Int) :
    Option Json := do
  let (mantissa, left) := takeWord 0 whole
  let (mantissa, ignored) := takeWord mantissa fraction
  let places : Int := left - (fraction.length - ignored : Nat) + exponent
  if mantissa = 0 then
    return float (Binary64.ofFloat (if negative then -0.0 else 0.0))
  (Binary64.ofDigits? negative mantissa.toUInt64 places).map float

/-- A number written without point and exponent. -/
def ofWhole? (negative : Bool) (digits : List Char) : Option Json :=
  let n := Nat.ofDigitChars 10 digits 0
  if negative then
    if 0 < n ∧ n ≤ 2 ^ 63 then some (int (-n)) else floatOfDigits? true digits [] 0
  else if n ≤ greatestWord then some (int n)
  else floatOfDigits? false digits [] 0

/-- Splits the digits off the front. -/
def splitDigits (chars : List Char) : List Char × List Char :=
  (chars.takeWhile Char.isDigit, chars.dropWhile Char.isDigit)

/-- The digits before the point: `0`, or digits that do not begin with it. -/
def readWhole? (chars : List Char) : Option (List Char × List Char) :=
  match splitDigits chars with
  | ([], _) => none
  | ('0' :: _ :: _, _) => none
  | (digits, rest) => some (digits, rest)

/-- The digits after the point, if there is a point. -/
def readFraction? : List Char → Option (Option (List Char) × List Char)
  | '.' :: chars =>
    match splitDigits chars with
    | ([], _) => none
    | (digits, rest) => some (some digits, rest)
  | chars => some (none, chars)

/-- The exponent, if there is one. Beyond a million it decides only between zero
and too large. -/
def readExponent? : List Char → Option (Option Int × List Char)
  | [] => some (none, [])
  | c :: chars =>
    if c = 'e' ∨ c = 'E' then
      let (negative, chars) := match chars with
        | '-' :: rest => (true, rest)
        | '+' :: rest => (false, rest)
        | _ => (false, chars)
      match splitDigits chars with
      | ([], _) => none
      | (digits, rest) =>
        let n : Int := min (Nat.ofDigitChars 10 digits 0) 1000000
        some (some (if negative then -n else n), rest)
    else some (none, c :: chars)

/-- Reads a number. -/
def readNumber? (chars : List Char) : Option (Json × List Char) := do
  let (negative, chars) := match chars with
    | '-' :: rest => (true, rest)
    | _ => (false, chars)
  let (whole, chars) ← readWhole? chars
  let (fraction, chars) ← readFraction? chars
  let (exponent, chars) ← readExponent? chars
  let value ← match fraction, exponent with
    | none, none => ofWhole? negative whole
    | _, _ => floatOfDigits? negative whole (fraction.getD []) (exponent.getD 0)
  return (value, chars)

/-! ### Text -/

/-- The character that a letter after a backslash stands for. -/
def unescape? : Char → Option Char
  | '"' => some '"'
  | '\\' => some '\\'
  | '/' => some '/'
  | 'b' => some '\x08'
  | 'f' => some '\x0c'
  | 'n' => some '\n'
  | 'r' => some '\r'
  | 't' => some '\t'
  | _ => none

/-- Reads up to the closing quote. `done` holds the characters so far, last one
first, and `high` the first half of a surrogate pair that waits for its second. -/
def readText? (done : List Char) (high : Option Nat) :
    List Char → Option (String × List Char)
  | '"' :: rest => if high.isSome then none else some (String.ofList done.reverse, rest)
  | '\\' :: 'u' :: a :: b :: c :: d :: rest =>
    match Hexadecimal.value? [a, b, c, d], high with
    | none, _ => none
    | some w, some h =>
      if 0xDC00 ≤ w ∧ w < 0xE000 then
        readText? (Char.ofNat (0x10000 + (h - 0xD800) * 0x400 + (w - 0xDC00)) :: done) none rest
      else none
    | some w, none =>
      if 0xD800 ≤ w ∧ w < 0xDC00 then readText? done (some w) rest
      else if 0xDC00 ≤ w ∧ w < 0xE000 then none
      else readText? (Char.ofNat w :: done) none rest
  | '\\' :: c :: rest =>
    match unescape? c, high with
    | some c, none => readText? (c :: done) none rest
    | _, _ => none
  | c :: rest =>
    if c.toNat < 0x20 ∨ high.isSome then none else readText? (c :: done) none rest
  | [] => none

/-! ### Values -/

/-- Leaves out blanks. -/
def skipBlanks (chars : List Char) : List Char :=
  chars.dropWhile fun c => c == ' ' || c == '\n' || c == '\t' || c == '\r'

/-- Splits an expected word off the front. -/
def expect? (word chars : List Char) : Option (List Char) :=
  if word.isPrefixOf chars then some (chars.drop word.length) else none

mutual

/-- Reads a value. The fuel bounds the nesting and the length together: every
call uses up a character. -/
def readValue? : Nat → List Char → Option (Json × List Char)
  | 0, _ => none
  | fuel + 1, chars =>
    match skipBlanks chars with
    | '"' :: rest => (readText? [] none rest).map fun (s, rest) => (str s, rest)
    | '[' :: rest =>
      match skipBlanks rest with
      | ']' :: rest => some (arr [], rest)
      | rest => readItems? fuel [] rest
    | '\x7b' :: rest =>
      match skipBlanks rest with
      | '\x7d' :: rest => some (obj [], rest)
      | rest => readMembers? fuel Table.empty rest
    | 'n' :: rest => (expect? ['u', 'l', 'l'] rest).map fun rest => (null, rest)
    | 't' :: rest => (expect? ['r', 'u', 'e'] rest).map fun rest => (bool true, rest)
    | 'f' :: rest => (expect? ['a', 'l', 's', 'e'] rest).map fun rest => (bool false, rest)
    | rest => readNumber? rest

/-- Reads the items of an array and the closing bracket; `done` holds those read
so far, last one first. -/
def readItems? : Nat → List Json → List Char → Option (Json × List Char)
  | 0, _, _ => none
  | fuel + 1, done, chars => do
    let (v, rest) ← readValue? fuel chars
    match skipBlanks rest with
    | ',' :: rest => readItems? fuel (v :: done) rest
    | ']' :: rest => some (arr (v :: done).reverse, rest)
    | _ => none

/-- Reads the members of an object and the closing brace onto those read so
far. -/
def readMembers? : Nat → Table String Json → List Char → Option (Json × List Char)
  | 0, _, _ => none
  | fuel + 1, done, chars =>
    match skipBlanks chars with
    | '"' :: rest => do
      let (name, rest) ← readText? [] none rest
      let rest ← expect? [':'] (skipBlanks rest)
      let (v, rest) ← readValue? fuel rest
      match skipBlanks rest with
      | ',' :: rest => readMembers? fuel (done.insert name v) rest
      | '\x7d' :: rest => some (obj (done.insert name v).entries, rest)
      | _ => none
    | _ => none

end

/-- Reads a text that is one JSON value. -/
def read? (text : String) : Option Json := do
  let chars := text.toList
  let (v, rest) ← readValue? (chars.length + 1) chars
  if (skipBlanks rest).isEmpty then some v else none

end Json

end EntityRules
