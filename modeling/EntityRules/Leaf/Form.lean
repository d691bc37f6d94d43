import EntityRules.Leaf.Basic

/-!
# `EntityRules.Leaf.Form`: leaves as JSON

A leaf is written as a JSON scalar whose kind is known from its place: a number
as a whole number, a decimal as a string with all its digits, text and booleans
as they are. Reading is more generous: numbers and decimals also take any JSON
number and any string that is a decimal, a number cutting off its fraction.
-/

set_option autoImplicit false

namespace EntityRules

namespace Leaf

/-- A leaf as a JSON scalar. -/
def toJson : Leaf → Json
  | number n => .int n.toInt
  | decimal d => .str d.text
  | text s => .str s
  | boolean b => .bool b

/-- The numeral of a JSON scalar: a string as it is, a number by its text. -/
def numeral? : Json → Option String
  | .str s => some s
  | .int n => some (Json.int n).compact
  | .float x => some (Json.float x).compact
  | _ => none

/-- Reads a decimal from a JSON scalar. -/
def readDecimal (v : Json) : Except ReadError Decimal :=
  match numeral? v with
  | none => .error (.notNumeric v)
  | some numeral =>
    match Decimal.read numeral with
    | .ok d => .ok d
    | .error why => .error (.badDecimal numeral why)

/-- Reads a number from a JSON scalar. A whole number in range is taken as it
is, anything else goes through decimals. -/
def readNumber (v : Json) : Except ReadError Number :=
  match v.asNumber? with
  | some n => .ok n
  | none => do
    let d ← readDecimal v
    match d.toNumber? with
    | some n => .ok n
    | none => .error (.outOfRange d)

/-- Reads a leaf of a kind from a JSON scalar. -/
def ofJson (kind : LeafKind) (v : Json) : Except ReadError Leaf :=
  match kind with
  | .number => (readNumber v).map number
  | .decimal => (readDecimal v).map decimal
  | .text =>
    match v.asString? with
    | some s => .ok (text s)
    | none => .error (.notText v)
  | .boolean =>
    match v.asBool? with
    | some b => .ok (boolean b)
    | none => .error (.notBoolean v)

end Leaf

end EntityRules
