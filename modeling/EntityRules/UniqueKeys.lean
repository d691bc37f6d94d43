import EntityRules.Schema.Defaults

/-!
# `EntityRules.UniqueKeys`: the values that must not collide

A uniqueness group of a struct names fields whose current values, taken
together, belong to one entity only. A group with a value missing has no key:
what is absent never collides.
-/

set_option autoImplicit false

namespace EntityRules

/-- The current values of a uniqueness group. -/
structure UniqueKey where
  fields : List String
  values : List Leaf
deriving DecidableEq

/-- The key of a group, if every field of it has a current value. -/
def Resolver.uniqueKey? (resolver : Resolver) (group : List String) : Option UniqueKey := do
  let values ← group.mapM fun field => resolver (.rooted .curr ⟨[field]⟩)
  return ⟨group, values⟩

/-- The keys of an entity, in the order of the groups of its struct. -/
def Registry.uniqueKeys (r : Registry) (s : Struct) (resolver : Resolver) : List UniqueKey :=
  s.unique.filterMap (resolver.withDefaults r s).uniqueKey?

end EntityRules
