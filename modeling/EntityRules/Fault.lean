import EntityRules.Bundle
import EntityRules.Leaf.Kind
import EntityRules.Operator
import EntityRules.Path

/-!
# `EntityRules.Fault`: why an evaluation, a schema or an ownership path fails

The causes of failure, each with what its message needs to say, and the wording
of each. `EvalError` is the sum of them: every question that can fail answers
with one.

* `WalkFault`, `OwnershipFault`: a path does not prove ownership.
* `RuleFault`: a struct breaks a rule of validation.
* `SchemaFault`: a schema cannot be loaded.
* `ArithmeticFault`: a result has no value.
-/

set_option autoImplicit false

namespace EntityRules

/-- Why a path does not lead from a struct to a user. -/
inductive WalkFault
  | emptyPath
  | tooLong (hops limit : Nat)
  | endsEarly (place : String)
  | noField (struct field : String)
  | notAReference (field struct : String)
  | unknownTarget (target : String)
  /-- The struct has no private grant for the field. -/
  | noGrant (field : String)
  /-- A hop leaves a struct through a field that refers to none. -/
  | leavesNowhere (field : String)
deriving DecidableEq, Repr

/-- The wording of a walk that fails. -/
def WalkFault.message : WalkFault → String
  | emptyPath => "path is empty"
  | tooLong hops limit => s!"path has {hops} hops, more than the limit of {limit}"
  | endsEarly place => s!"path ends at '{place}' before reaching a user"
  | noField struct field => s!"struct '{struct}' has no field '{field}'"
  | notAReference field struct => s!"field '{field}' on '{struct}' is not an other field"
  | unknownTarget target => s!"target struct '{target}' does not exist"
  | noGrant field => s!"no private grant for '{field}'"
  | leavesNowhere field => s!"field '{field}' is not an other field"

/-- A path that does not prove ownership of a struct, and why. -/
structure OwnershipFault where
  struct : String
  path : Path
  reason : WalkFault
deriving DecidableEq

/-- The wording of a refused ownership path. -/
def OwnershipFault.message (f : OwnershipFault) : String :=
  "invalid ownership path '" ++ f.path.text ++ "' on struct '" ++ f.struct ++ "': " ++
    f.reason.message

/-- A rule of validation that a struct breaks. -/
inductive RuleFault
  | noTarget (field : String)
  | unknownTarget (field target : String)
  | defaultKind (field : String) (got expected : LeafKind)
  | emptyGroup
  | unknownMember (field : String)
  | ownershipNotAReference (field : String)
  | ownershipUndeclared (field : String)
  | grantNotOwnership (field : String)
  | grantUnknownPath (field : String) (path : Path)
  | publicUnknownPath (path : Path)
  | borrowUndeclared (name field : String)
  | borrowWithoutPath (name : String)
  | borrowPath (name : String) (fault : OwnershipFault)
  | targetNotRooted (effect : String) (target : Path)
  | guardKind (field : String) (kind : LeafKind)
  | checkKind (check : String) (kind : LeafKind)
deriving DecidableEq

/-- The wording of a broken rule. -/
def RuleFault.message : RuleFault → String
  | noTarget field => s!"other field '{field}' has no target struct"
  | unknownTarget field target => s!"field '{field}' targets unknown struct '{target}'"
  | defaultKind field got expected =>
    s!"default for '{field}' is " ++ got.title ++ ", expected " ++ expected.title
  | emptyGroup => "empty uniqueness group"
  | unknownMember field => s!"uniqueness group names unknown field '{field}'"
  | ownershipNotAReference field => s!"ownership field '{field}' is not an other field"
  | ownershipUndeclared field => s!"ownership field '{field}' is not declared"
  | grantNotOwnership field => s!"private grant '{field}' is not an ownership field"
  | grantUnknownPath field path =>
    s!"private grant '{field}' names unknown path '" ++ path.text ++ "'"
  | publicUnknownPath path => "public grant names unknown path '" ++ path.text ++ "'"
  | borrowUndeclared name field => s!"borrow '{name}' is keyed by unknown field '{field}'"
  | borrowWithoutPath name => s!"borrow '{name}' has no delegated ownership path"
  | borrowPath name fault => s!"borrow '{name}': " ++ fault.message
  | targetNotRooted effect target =>
    s!"effect '{effect}' target '" ++ target.text ++ "' must be rooted at _prev or _curr"
  | guardKind field kind =>
    s!"ownership guard on '{field}' produces " ++ kind.title ++ ", expected boolean"
  | checkKind check kind => s!"check '{check}' produces " ++ kind.title ++ ", expected boolean"

/-- Where a declaration was written, as an addition to the name of its struct. -/
def SourceLocation.suffix : Option SourceLocation → String
  | none => ""
  | some place => " (" ++ place.file ++ ":" ++ toString place.line ++ ")"

/-- Why a schema, or a part of one that stands alone, is refused. -/
inductive SchemaFault
  /-- A path, literal or expression was not understood. -/
  | form (fault : ReadError)
  | bundle (fault : BundleError)
  | duplicateStruct (id : String) (location : Option SourceLocation)
  /-- The declaration of a struct was not understood. -/
  | declaration (id : String) (location : Option SourceLocation) (fault : ReadError)
  /-- A struct breaks a rule of validation. -/
  | rule (struct : String) (fault : RuleFault)
  | unknownStruct (name : String)

/-- The wording of a refused schema. -/
def SchemaFault.message : SchemaFault → String
  | form fault => fault.detail
  | bundle fault => fault.message
  | duplicateStruct id location => s!"duplicate struct '{id}'" ++ SourceLocation.suffix location
  | declaration id location fault =>
    s!"struct '{id}'" ++ SourceLocation.suffix location ++ ": " ++ fault.detail
  | rule struct fault => s!"struct '{struct}': " ++ fault.message
  | unknownStruct name => s!"unknown struct '{name}'"

/-- Why a calculation has no result. -/
inductive ArithmeticFault
  | byZero (op : ArithmeticOp)
  | overflow (op : ArithmeticOp)
  /-- A decimal whose whole part is no number of 64 bits. -/
  | outOfRange (value : Decimal)
deriving DecidableEq

/-- The wording of a calculation that fails. -/
def ArithmeticFault.message : ArithmeticFault → String
  | byZero op => op.name ++ " by zero"
  | overflow op => op.name ++ " overflow"
  | outOfRange value => value.text ++ " does not fit in a Number"

/-- Why a question has no answer. -/
inductive EvalError
  | invalidOwnershipPath (fault : OwnershipFault)
  /-- A path that the environment or the schema does not have, as it is shown. -/
  | unknownField (path : String)
  | typeMismatch (expected got : LeafKind)
  | arithmetic (fault : ArithmeticFault)
  /-- Binding this path would make a node both a value and a parent. -/
  | conflict (path : Path)
  | invalidSchema (fault : SchemaFault)

namespace EvalError

/-- The text of an error. -/
def message : EvalError → String
  | invalidOwnershipPath fault => fault.message
  | unknownField path => s!"unknown field: {path}"
  | typeMismatch expected got =>
    "type mismatch: expected " ++ expected.title ++ ", got " ++ got.title
  | arithmetic fault => "arithmetic error: " ++ fault.message
  | conflict path => "evaluation failure: path '" ++ path.text ++
      "' would make an environment node both a value and a parent"
  | invalidSchema fault => "invalid schema: " ++ fault.message

/-- The error for a form that stands alone. A decimal out of range is a matter
of arithmetic, everything else one of form. -/
def ofRead : ReadError → EvalError
  | .outOfRange value => arithmetic (.outOfRange value)
  | fault => invalidSchema (.form fault)

end EvalError

end EntityRules
