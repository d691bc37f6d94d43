import EntityRules.Expr.Eval
import EntityRules.Schema.Registry

/-!
# `EntityRules.Schema.Defaults`: defaults as answers

A resolver knows the values of one entity. What it cannot answer, the schema can
where it declares a default for the field at the end of the path, under any
snapshot root but one: what an actor offers as proof has no defaults.
-/

set_option autoImplicit false

namespace EntityRules

/-- The default that the schema declares at the end of a path. -/
def Registry.default? (r : Registry) (s : Struct) (p : Path) : Option Leaf :=
  if p.snapshot? = some .borrow then none
  else (r.findField? s p.relative.segments).bind (·.default)

/-- The resolver that falls back on the defaults of a struct. -/
def Resolver.withDefaults (resolver : Resolver) (r : Registry) (s : Struct) : Resolver :=
  fun p => resolver p <|> r.default? s p

end EntityRules
