import EntityRules.Expr.Basic

/-!
# `EntityRules.Schema.Basic`: structs and their rules

A struct declares fields, groups of fields whose values must be unique, the
permissions of its actors, the effects of a change and the checks on its values.
A field holds a leaf or refers to an entity of another struct; a path of
reference fields therefore leads from struct to struct.
-/

set_option autoImplicit false

namespace EntityRules

/-! ### Fields -/

/-- What a field holds. -/
inductive FieldType
  | primitive (kind : LeafKind)
  /-- A reference to an entity of the struct with this name. -/
  | reference (target : String)
deriving DecidableEq

namespace FieldType

/-- The name of a field type in a schema. -/
def name : FieldType → String
  | primitive kind => kind.name
  | reference _ => "other"

/-- The struct that a reference leads to. -/
def target? : FieldType → Option String
  | primitive _ => none
  | reference target => some target

end FieldType

/-- A field of a struct; its name is the key of the table of fields. -/
structure Field where
  type : FieldType
  default : Option Leaf
deriving DecidableEq

/-- The struct that a reference field leads to. -/
def Field.target? (f : Field) : Option String := f.type.target?

/-! ### Permissions -/

/-- A field that ownership can begin at, and a guard on it. -/
structure OwnershipRule where
  field : String
  guard : Expr

/-- Read-only ownership that is lent to whoever proves a predicate; the key of
the rule is the ownership field that it stands in for. -/
structure BorrowRule where
  name : String
  /-- What the borrower has to prove, usually over `_borrow` paths. -/
  prove : Expr
  /-- The paths that the borrower reads as if owning them. -/
  ownership : List Path

/-- What an owner may read and write. -/
structure Grant where
  read : List Path
  write : List Path

/-- The permissions of a struct. -/
structure Permissions where
  ownership : List OwnershipRule
  borrow : Table String BorrowRule
  /-- What the owner through each field may do. -/
  grants : Table String Grant
  /-- What everyone who owns the entity may read. -/
  publicPaths : List Path

/-- No permissions at all. -/
def Permissions.none : Permissions := ⟨[], .empty, .empty, []⟩

/-! ### Effects and checks -/

/-- A statement of an effect: the target takes the value of the expression. -/
structure Statement where
  target : Path
  expr : Expr

/-- Statements that run together or not at all. -/
structure Effect where
  name : String
  /-- The paths whose change on update fires the effect. -/
  dependencies : List Path
  statements : List Statement

/-- A condition on the values of an entity, and the code of its failure. -/
structure Check where
  name : String
  expr : Expr
  errorCode : String

/-! ### Structs -/

/-- A struct. -/
structure Struct where
  name : String
  fields : Table String Field
  unique : List (List String)
  permissions : Permissions
  effects : List Effect
  checks : List Check

namespace Struct

/-- A struct without rules; of two fields with one name the later stays. -/
def ofFields (name : String) (fields : List (String × Field)) : Struct :=
  ⟨name, .ofList fields, [], .none, [], []⟩

/-- The field with a name. -/
def field? (s : Struct) (name : String) : Option Field := s.fields.find? name

/-- The struct that a reference field leads to. -/
def target? (s : Struct) (name : String) : Option String :=
  (s.field? name).bind Field.target?

/-- The fields that ownership can begin at, in the order of their rules. -/
def ownershipFields (s : Struct) : List String := s.permissions.ownership.map (·.field)

/-- The statements of all effects. -/
def statements (s : Struct) : List Statement := s.effects.flatMap (·.statements)

end Struct

end EntityRules
