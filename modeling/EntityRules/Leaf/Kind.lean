/-!
# `EntityRules.Leaf.Kind`: the kinds of scalar values

Four kinds of leaf, and the two smaller choices that operators offer: arithmetic
works on numbers or decimals, a comparison on either of these or on text.
-/

set_option autoImplicit false

namespace EntityRules

/-- The kind of a scalar value. -/
inductive LeafKind
  | number
  | decimal
  | text
  | boolean
deriving DecidableEq, Repr

namespace LeafKind

/-- The name of a kind in a schema. -/
def name : LeafKind → String
  | number => "number"
  | decimal => "decimal"
  | text => "text"
  | boolean => "boolean"

/-- The kind with a name. -/
def ofName? (name : String) : Option LeafKind :=
  if name = "number" then some number
  else if name = "decimal" then some decimal
  else if name = "text" then some text
  else if name = "boolean" then some boolean
  else none

/-- What messages call a kind. -/
def title : LeafKind → String
  | number => "Number"
  | decimal => "Decimal"
  | text => "Text"
  | boolean => "Boolean"

/-- All kinds. -/
def all : List LeafKind := [number, decimal, text, boolean]

end LeafKind

/-- What an arithmetic operator works on. -/
inductive NumericKind
  | number
  | decimal
deriving DecidableEq, Repr

/-- The kind of the operands and the result. -/
def NumericKind.leafKind : NumericKind → LeafKind
  | number => .number
  | decimal => .decimal

/-- The numeric kind with a name. -/
def NumericKind.ofName? (name : String) : Option NumericKind :=
  if name = "number" then some number else if name = "decimal" then some decimal else none

/-- What a comparison works on. -/
inductive ScalarKind
  | number
  | decimal
  | text
deriving DecidableEq, Repr

/-- The kind that both sides are read as. -/
def ScalarKind.leafKind : ScalarKind → LeafKind
  | number => .number
  | decimal => .decimal
  | text => .text

/-- The scalar kind with a name. -/
def ScalarKind.ofName? (name : String) : Option ScalarKind :=
  if name = "number" then some number
  else if name = "decimal" then some decimal
  else if name = "text" then some text
  else none

end EntityRules
