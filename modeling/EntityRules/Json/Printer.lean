import EntityRules.Binary64.Shortest
import EntityRules.Json.Basic

/-!
# `EntityRules.Json.Printer`: the compact text of a JSON value

No blanks; the members of an object as they are listed, which is name order.
This text is quoted in messages and hashed into fingerprints, so every choice of
spelling is fixed here:

* text escapes the quote, the backslash and the control characters below blank,
  five of these by letter and the rest as `\u00xx`; all else stands as it is;
* a floating-point number shows its shortest digits, positionally when the point
  falls less than five places before or at most sixteen places after the first
  digit, and otherwise with an exponent that always shows its sign.
-/

set_option autoImplicit false

namespace EntityRules

/-- The bounds of positional notation: a number `0.d₁d₂… * 10 ^ k` is written
without exponent when `least < k ≤ greatest`. -/
structure FloatFormat where
  least : Int
  greatest : Int

/-- Positional notation from five zeros after the point up to sixteen digits
before it. -/
def Json.floatFormat : FloatFormat := ⟨-5, 16⟩

namespace FloatFormat

/-- Positional notation, with at least one digit on each side of the point. -/
def positional (d : Binary64.Digits) : List Char :=
  if d.point ≤ 0 then
    '0' :: '.' :: List.replicate (-d.point).toNat '0' ++ d.digits
  else
    let whole := d.digits.take d.point.toNat
    let fraction := d.digits.drop d.point.toNat
    whole ++ List.replicate (d.point.toNat - whole.length) '0' ++
      '.' :: (if fraction.isEmpty then ['0'] else fraction)

/-- One digit before the point, the others after it, and the exponent with its
sign. -/
def scientific (d : Binary64.Digits) : List Char :=
  let exponent := d.point - 1
  let sign := if exponent < 0 then '-' else '+'
  let rest := d.digits.drop 1
  d.digits.take 1 ++ (if rest.isEmpty then [] else '.' :: rest) ++
    'e' :: sign :: Nat.toDigits 10 exponent.natAbs

/-- The text of a finite number. -/
def chars (format : FloatFormat) (x : Binary64) : List Char :=
  let sign := if x.isNegative then ['-'] else []
  if x.bits.toNat % 2 ^ 63 = 0 then sign ++ ['0', '.', '0']
  else
    let d := x.shortest
    sign ++ if format.least < d.point ∧ d.point ≤ format.greatest then positional d
      else scientific d

end FloatFormat

namespace Json

/-- A character inside quotes. -/
def escape (c : Char) : List Char :=
  match c with
  | '"' => ['\\', '"']
  | '\\' => ['\\', '\\']
  | '\x08' => ['\\', 'b']
  | '\x0c' => ['\\', 'f']
  | '\n' => ['\\', 'n']
  | '\r' => ['\\', 'r']
  | '\t' => ['\\', 't']
  | c =>
    if c.toNat < 0x20 then
      ['\\', 'u', '0', '0', Nat.digitChar (c.toNat / 16), Nat.digitChar (c.toNat % 16)]
    else [c]

/-- A text between quotes. -/
def quoted (s : String) : List Char := '"' :: s.toList.flatMap escape ++ ['"']

mutual

/-- The characters of a value. -/
def chars : Json → List Char
  | null => ['n', 'u', 'l', 'l']
  | bool true => ['t', 'r', 'u', 'e']
  | bool false => ['f', 'a', 'l', 's', 'e']
  | int n => (toString n).toList
  | float x => floatFormat.chars x
  | str s => quoted s
  | arr items => '[' :: itemChars items
  | obj members => '{' :: memberChars members

/-- The items of an array and the closing bracket. -/
def itemChars : List Json → List Char
  | [] => [']']
  | [v] => chars v ++ [']']
  | v :: rest => chars v ++ ',' :: itemChars rest

/-- The members of an object and the closing brace. -/
def memberChars : List (String × Json) → List Char
  | [] => ['}']
  | [(name, v)] => quoted name ++ ':' :: chars v ++ ['}']
  | (name, v) :: rest => quoted name ++ ':' :: chars v ++ ',' :: memberChars rest

end

/-- The compact text of a value. -/
def compact (v : Json) : String := String.ofList v.chars

end Json

end EntityRules
