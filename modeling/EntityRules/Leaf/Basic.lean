import EntityRules.Fault

/-!
# `EntityRules.Leaf.Basic`: scalar values and how they are read as one another

A leaf is a number, a decimal, a text or a boolean. `coerce` reads it as another
kind: decimals truncate to numbers, numbers widen to decimals, everything has a
text, and the two texts `true` and `false` are booleans.

There are two notions of equality beside `=`. `sameVariant` asks for one kind
and one value, whatever the scale of a decimal; `equals` first brings both sides
to a kind in which they can meet.
-/

set_option autoImplicit false

namespace EntityRules

/-- A scalar value. -/
inductive Leaf
  | number (value : Number)
  | decimal (value : Decimal)
  | text (value : String)
  | boolean (value : Bool)
deriving DecidableEq

namespace Leaf

instance : Inhabited Leaf := ⟨boolean false⟩

/-- The kind of a leaf. -/
def kind : Leaf → LeafKind
  | number _ => .number
  | decimal _ => .decimal
  | text _ => .text
  | boolean _ => .boolean

/-- The text of a boolean. -/
def boolText (b : Bool) : String := if b then "true" else "false"

/-! ### Views -/

/-- The number that a decimal truncates to. -/
def truncated (d : Decimal) : Except EvalError Number :=
  match d.toNumber? with
  | some n => .ok n
  | none => .error (.arithmetic (.outOfRange d))

/-- A leaf as a number. -/
def asNumber : Leaf → Except EvalError Number
  | number n => .ok n
  | decimal d => truncated d
  | leaf => .error (.typeMismatch .number leaf.kind)

/-- A leaf as a decimal. -/
def asDecimal : Leaf → Except EvalError Decimal
  | number n => .ok (Decimal.ofNumber n)
  | decimal d => .ok d
  | leaf => .error (.typeMismatch .decimal leaf.kind)

/-- The text of a leaf; every leaf has one. -/
def asText : Leaf → String
  | number n => n.text
  | decimal d => d.text
  | text s => s
  | boolean b => boolText b

/-- A leaf as a boolean. -/
def asBoolean : Leaf → Except EvalError Bool
  | boolean b => .ok b
  | text s =>
    if s = "true" then .ok true
    else if s = "false" then .ok false
    else .error (.typeMismatch .boolean .text)
  | leaf => .error (.typeMismatch .boolean leaf.kind)

/-- A leaf read as another kind. -/
def coerce (leaf : Leaf) : LeafKind → Except EvalError Leaf
  | .number => leaf.asNumber.map number
  | .decimal => leaf.asDecimal.map decimal
  | .text => .ok (text leaf.asText)
  | .boolean => leaf.asBoolean.map boolean

/-! ### Equality -/

/-- Whether two leaves have one kind and one value. -/
def sameVariant : Leaf → Leaf → Bool
  | number a, number b => a = b
  | decimal a, decimal b => a.sameValue b
  | text a, text b => a = b
  | boolean a, boolean b => a = b
  | _, _ => false

/-- The kind in which leaves of two kinds meet: text with anything meets in
text, a number and a decimal meet in decimals, and else the left side decides. -/
def meetingKind (l r : LeafKind) : LeafKind :=
  if l = r then l
  else match l, r with
    | .text, _ => .text
    | _, .text => .text
    | .number, .decimal => .decimal
    | .decimal, .number => .decimal
    | l, _ => l

/-- Whether two leaves are equal in the kind in which they meet. A leaf that
cannot be read as that kind equals nothing. -/
def equals (l r : Leaf) : Bool :=
  let kind := meetingKind l.kind r.kind
  match l.coerce kind, r.coerce kind with
  | .ok a, .ok b => a.sameVariant b
  | _, _ => false

end Leaf

end EntityRules
