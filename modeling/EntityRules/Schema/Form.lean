import EntityRules.Expr.Form
import EntityRules.Path.Form
import EntityRules.Schema.Registry
import EntityRules.Sha256

/-!
# `EntityRules.Schema.Form`: structs as JSON

A struct is written in the form of its declaration, with nothing left to
defaults: the guard of an ownership rule, the name of a borrow rule and the code
of a check are always there, and so is every table. The members of each object
are in name order, so that equal structs have equal texts; the fingerprint of a
registry is the digest of these texts.
-/

set_option autoImplicit false

namespace EntityRules

/-- The declaration of a field. -/
def Field.toJson (f : Field) : Json :=
  .obj ((f.default.map fun value => ("default", value.toJson)).toList ++
    (f.target?.map fun target => ("struct", .str target)).toList ++
    [("type", .str f.type.name)])

/-- The declaration of an ownership rule. -/
def OwnershipRule.toJson (r : OwnershipRule) : Json :=
  .obj [("field", .str r.field), ("guard", r.guard.toJson)]

/-- The declaration of a borrow rule. -/
def BorrowRule.toJson (r : BorrowRule) : Json :=
  .obj [
    ("name", .str r.name),
    ("ownership", Path.listToJson r.ownership),
    ("prove", r.prove.toJson)]

/-- The declaration of a grant. -/
def Grant.toJson (g : Grant) : Json :=
  .obj [("read", Path.listToJson g.read), ("write", Path.listToJson g.write)]

/-- The declaration of the permissions of a struct. -/
def Permissions.toJson (p : Permissions) : Json :=
  .obj [
    ("borrow", .ofTable p.borrow BorrowRule.toJson),
    ("ownership", .arr (p.ownership.map OwnershipRule.toJson)),
    ("private", .ofTable p.grants Grant.toJson),
    ("public", Path.listToJson p.publicPaths)]

/-- The declaration of a statement. -/
def Statement.toJson (s : Statement) : Json :=
  .obj [("expr", s.expr.toJson), ("target", s.target.toJson)]

/-- The declaration of an effect, without its name. -/
def Effect.toJson (e : Effect) : Json :=
  .obj [
    ("dependencies", Path.listToJson e.dependencies),
    ("mutate", .arr (e.statements.map Statement.toJson))]

/-- The declaration of a check, without its name. -/
def Check.toJson (c : Check) : Json :=
  .obj [("error", .str c.errorCode), ("expr", c.expr.toJson)]

/-- The declaration of a struct. -/
def Struct.toJson (s : Struct) : Json :=
  .obj [
    ("checks", .ofMembers (s.checks.map fun c => (c.name, c.toJson))),
    ("effects", .ofMembers (s.effects.map fun e => (e.name, e.toJson))),
    ("fields", .ofTable s.fields Field.toJson),
    ("id", .str s.name),
    ("kind", .str "Struct"),
    ("permissions", s.permissions.toJson),
    ("unique", .arr (s.unique.map Json.ofStrings))]

namespace Registry

/-- The declarations of all structs, in name order. -/
def toJson (r : Registry) : List Json := r.structs.map Struct.toJson

/-- A bundle that declares the structs of a registry. -/
def toBundle (r : Registry) : Json :=
  .obj [("constructs", .arr r.toJson), ("id", .str r.id)]

/-- The digest of the declarations of all structs. -/
def fingerprint (r : Registry) : String :=
  Sha256.hexDigest (Json.arr r.toJson).compact.toUTF8.toList

end Registry

end EntityRules
