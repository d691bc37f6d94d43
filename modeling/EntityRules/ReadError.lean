import EntityRules.Decimal.Numeral
import EntityRules.Json.Printer

/-!
# `EntityRules.ReadError`: why a JSON form was not understood

Literals, paths, expressions and the tables of a struct are all read from JSON.
`ReadError` names each way that this can fail, with what the message needs to
say; `ReadError.detail` is the wording. Only `outOfRange` is not a matter of
form: the text was a decimal, but no whole number of 64 bits.
-/

set_option autoImplicit false

namespace EntityRules

/-- Why a JSON form was not understood. -/
inductive ReadError
  -- Paths and literals
  | emptySegment (path : String)
  | notText (got : Json)
  | notBoolean (got : Json)
  | notNumeric (got : Json)
  | badDecimal (text : String) (why : NumeralError)
  | outOfRange (value : Decimal)
  -- Expressions
  | noOperator (got : Json)
  | noArguments (op : String)
  | unknownOperator (op : String)
  | unknownLiteralType (type : String)
  | argumentCount (op : String) (count : Nat)
  | pathNotText
  | pathEmpty
  | noOperand (op : String)
  | operandCount (op : String) (count : Nat)
  | nonNumericType (op type : String)
  | unsupportedType (op type : String)
  | noCondition
  | noOtherwise
  | notAGuard (got : Json)
  | guardWithoutArguments
  | guardShape
  -- Tables of a struct
  | notAnObject (table : String)
  | ownershipNotAnArray
  | ownershipWithoutField
  | notAPathList (list : String)
  | notAPathEntry (list : String)
  | borrowWithout (name part : String)
  | effectWithoutStatements (name : String)
  | statementWithout (effect part : String)
  | checkWithoutExpression (name : String)
  | unknownFieldType (field type : String)
  | referenceWithDefault (field : String)

namespace ReadError

/-- The wording of a refusal. -/
def detail : ReadError → String
  | emptySegment path => s!"path '{path}' contains an empty segment"
  | notText got => "expected text literal, got " ++ got.compact
  | notBoolean got => "expected boolean literal, got " ++ got.compact
  | notNumeric got => "expected numeric literal, got " ++ got.compact
  | badDecimal text why => s!"invalid decimal '{text}': " ++ why.message
  | outOfRange value => "arithmetic error: " ++ value.text ++ " does not fit in a Number"
  | noOperator got => "expression missing 'op': " ++ got.compact
  | noArguments op => s!"expression '{op}' missing 'args' array"
  | unknownOperator op => s!"unknown operator: {op}"
  | unknownLiteralType type => s!"unknown literal type '{type}'"
  | argumentCount op count => s!"'{op}' takes exactly one argument, got {count}"
  | pathNotText => "path argument must be a string"
  | pathEmpty => "path argument must not be empty"
  | noOperand op => s!"arithmetic '{op}' needs at least one operand"
  | operandCount op count => s!"'{op}' needs at least two operands, got {count}"
  | nonNumericType op type => s!"arithmetic '{op}' has non-numeric type '{type}'"
  | unsupportedType op type => s!"comparator '{op}' has unsupported type '{type}'"
  | noCondition => "match needs a condition"
  | noOtherwise => "match needs an otherwise branch"
  | notAGuard got => "match arm must be a guard: " ++ got.compact
  | guardWithoutArguments => "guard missing 'args'"
  | guardShape => "guard takes exactly a key and a value"
  | notAnObject table => s!"'{table}' must be an object"
  | ownershipNotAnArray => "'ownership' must be an array"
  | ownershipWithoutField => "ownership rule missing 'field'"
  | notAPathList list => s!"{list} must be an array of paths"
  | notAPathEntry list => s!"{list} entries must be strings"
  | borrowWithout name part => s!"borrow '{name}' missing '{part}'"
  | effectWithoutStatements name => s!"effect '{name}' missing 'mutate' array"
  | statementWithout effect part => s!"effect '{effect}' statement missing '{part}'"
  | checkWithoutExpression name => s!"check '{name}' missing 'expr'"
  | unknownFieldType field type => s!"field '{field}' has unknown type '{type}'"
  | referenceWithDefault field => s!"other field '{field}' cannot declare a default"

end ReadError

end EntityRules
