/-!
# `EntityRules.Operator`: the operators of expressions

Each operator has the one name that schemas and messages use for it, and
`ofName?` is the inverse of `name`.
-/

set_option autoImplicit false

namespace EntityRules

/-- An arithmetic operator. -/
inductive ArithmeticOp
  | add
  | subtract
  | multiply
  | divide
  | modulus
deriving DecidableEq, Repr

namespace ArithmeticOp

/-- The name of an operator. -/
def name : ArithmeticOp → String
  | add => "add"
  | subtract => "subtract"
  | multiply => "multiply"
  | divide => "divide"
  | modulus => "modulus"

/-- The operator with a name. -/
def ofName? (name : String) : Option ArithmeticOp :=
  if name = "add" then some add
  else if name = "subtract" then some subtract
  else if name = "multiply" then some multiply
  else if name = "divide" then some divide
  else if name = "modulus" then some modulus
  else none

/-- Whether the right operand divides. -/
def divides : ArithmeticOp → Bool
  | divide | modulus => true
  | _ => false

end ArithmeticOp

/-- A comparison. -/
inductive ComparatorOp
  | equals
  | greaterThan
  | lessThan
  | greaterThanEquals
  | lessThanEquals
deriving DecidableEq, Repr

namespace ComparatorOp

/-- The name of a comparison. -/
def name : ComparatorOp → String
  | equals => "equals"
  | greaterThan => "greater_than"
  | lessThan => "less_than"
  | greaterThanEquals => "greater_than_equals"
  | lessThanEquals => "less_than_equals"

/-- The comparison with a name. -/
def ofName? (name : String) : Option ComparatorOp :=
  if name = "equals" then some equals
  else if name = "greater_than" then some greaterThan
  else if name = "less_than" then some lessThan
  else if name = "greater_than_equals" then some greaterThanEquals
  else if name = "less_than_equals" then some lessThanEquals
  else none

/-- Whether a comparison holds of two values that are ordered so. -/
def holds : ComparatorOp → Ordering → Bool
  | equals, o => o == .eq
  | greaterThan, o => o == .gt
  | lessThan, o => o == .lt
  | greaterThanEquals, o => o != .lt
  | lessThanEquals, o => o != .gt

end ComparatorOp

/-- A connective. -/
inductive LogicalOp
  | and
  | or
deriving DecidableEq, Repr

namespace LogicalOp

/-- The name of a connective. -/
def name : LogicalOp → String
  | and => "and"
  | or => "or"

/-- The connective with a name. -/
def ofName? (name : String) : Option LogicalOp :=
  if name = "and" then some and else if name = "or" then some or else none

/-- The value of a connective. -/
def combine : LogicalOp → Bool → Bool → Bool
  | and, a, b => a && b
  | or, a, b => a || b

end LogicalOp

end EntityRules
