import EntityRules.Schema.Reading
import EntityRules.Schema.Validation

/-!
# `EntityRules.Schema.Loading`: registries from bundles

A bundle is loaded in four steps, each on the whole bundle: its shape is read,
no id may be declared twice, every declaration is understood in the order of the
bundle, and the registry that results is validated in name order. The first
fault of the first step that finds one is the answer.
-/

set_option autoImplicit false

namespace EntityRules

namespace StructDecl

/-- The first declaration whose id was seen before. -/
def repeated? (seen : List String) : List StructDecl → Option StructDecl
  | [] => none
  | d :: rest => if d.id ∈ seen then some d else repeated? (d.id :: seen) rest

/-- Understands a declaration; a fault names the struct and its place. -/
def understand (d : StructDecl) : Except SchemaFault Struct :=
  match Struct.ofDecl d with
  | .ok s => .ok s
  | .error fault => .error (.declaration d.id d.location fault)

end StructDecl

namespace Bundle

/-- The structs that a bundle declares, in the order of the bundle. -/
def understand (b : Bundle) : Except SchemaFault (List Struct) :=
  match StructDecl.repeated? [] b.structs with
  | some d => .error (.duplicateStruct d.id d.location)
  | none => b.structs.mapM StructDecl.understand

end Bundle

namespace Registry

/-- The registry of a bundle, not validated yet. -/
def ofBundle (v : Json) (config : Config) : Except SchemaFault Registry :=
  match Bundle.ofJson v with
  | .error fault => .error (.bundle fault)
  | .ok bundle => do
    let structs ← bundle.understand
    return .ofStructs bundle.id structs config

/-- Loads a registry: reads the bundle and validates what it declares. -/
def load (v : Json) (config : Config) : Except EvalError Registry :=
  match ofBundle v config with
  | .error fault => .error (.invalidSchema fault)
  | .ok r => do
    r.validate
    return r

end Registry

end EntityRules
