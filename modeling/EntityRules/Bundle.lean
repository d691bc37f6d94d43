import EntityRules.Json.Basic

/-!
# `EntityRules.Bundle`: the shape of a schema bundle

A bundle is a JSON object with an `id` and an array of `constructs`. The
constructs of kind `Struct` are declarations of structs; constructs of any other
kind are passed over, whatever they hold. This module reads the shape: fields,
uniqueness groups and where a declaration came from. The rule tables
(`permissions`, `effects`, `checks`) stay JSON here and are read when a struct is
made of its declaration.

The first malformed element of the array, in array order, is the one reported.
-/

set_option autoImplicit false

namespace EntityRules

/-- Why a bundle does not have the shape of one. -/
inductive BundleError
  /-- A member of the bundle itself is missing or of the wrong type. -/
  | missingMember (name : String)
  /-- A construct is no object. -/
  | notAnObject (index : Nat)
  /-- A struct declaration without an `id`. -/
  | structWithoutId
  /-- A struct declaration without a `fields` object. -/
  | structWithoutFields (id : String)
  | fieldWithoutType (id field : String)
  | fieldWithoutTarget (id field : String)
  | uniqueNotAnArray (id : String)
  | groupNotAnArray (id : String)
  | memberNotText (id : String)
deriving DecidableEq, Repr

namespace BundleError

/-- The wording for a fault in the declaration of one struct. -/
def inStruct (id detail : String) : String := s!"Struct declaration '{id}': {detail}"

/-- The wording of a fault. -/
def message : BundleError → String
  | missingMember name => s!"schema bundle has no '{name}'"
  | notAnObject index => s!"malformed schema bundle: constructs[{index}] must be an object"
  | structWithoutId => inStruct "<unknown>" "missing 'id' field"
  | structWithoutFields id => inStruct id "missing 'fields' object"
  | fieldWithoutType id field => inStruct id s!"field '{field}' missing 'type'"
  | fieldWithoutTarget id field => inStruct id s!"field '{field}' of type 'other' missing 'struct'"
  | uniqueNotAnArray id => inStruct id "'unique' must be an array of groups"
  | groupNotAnArray id => inStruct id "uniqueness group must be an array"
  | memberNotText id => inStruct id "uniqueness member must be a string"

end BundleError

/-- Where a declaration was written. -/
structure SourceLocation where
  file : String
  line : Nat
deriving DecidableEq, Repr

/-- The declaration of a field, its default still unread. -/
structure FieldDecl where
  type : String
  target : Option String
  default : Option Json

/-- The declaration of a struct, its rule tables still unread. -/
structure StructDecl where
  id : String
  fields : List (String × FieldDecl)
  unique : List (List String)
  permissions : Option Json
  effects : Option Json
  checks : Option Json
  location : Option SourceLocation

/-- A schema bundle: its id, its format version and its structs in the order of
their declaration. -/
structure Bundle where
  id : String
  version : String
  structs : List StructDecl

namespace StructDecl

/-- A table of the permissions, `null` included. -/
def permission? (d : StructDecl) (table : String) : Option Json :=
  d.permissions.bind (Json.get? table)

/-- Reads a field of the struct with this id. -/
def readField (id name : String) (v : Json) : Except BundleError FieldDecl :=
  match v.getString? "type" with
  | none => .error (.fieldWithoutType id name)
  | some type =>
    let target := v.getString? "struct"
    if type = "other" ∧ target.isNone then .error (.fieldWithoutTarget id name)
    else .ok ⟨type, target, v.getNonNull? "default"⟩

/-- Reads the fields of a struct. -/
def readFields (id : String) : List (String × Json) →
    Except BundleError (List (String × FieldDecl))
  | [] => .ok []
  | (name, v) :: rest => do
    let field ← readField id name v
    let fields ← readFields id rest
    return (name, field) :: fields

/-- Reads a member of a uniqueness group. -/
def readMember (id : String) (v : Json) : Except BundleError String :=
  match v.asString? with
  | none => .error (.memberNotText id)
  | some name => .ok name

/-- Reads a uniqueness group. -/
def readGroup (id : String) (v : Json) : Except BundleError (List String) :=
  match v.asArray? with
  | none => .error (.groupNotAnArray id)
  | some members => members.mapM (readMember id)

/-- Reads the uniqueness groups; without any there are none. -/
def readUnique (id : String) (v : Json) : Except BundleError (List (List String)) :=
  match v.getNonNull? "unique" with
  | none => .ok []
  | some groups =>
    match groups.asArray? with
    | none => .error (.uniqueNotAnArray id)
    | some groups => groups.mapM (readGroup id)

/-- Where a construct says it was written. -/
def readLocation? (v : Json) : Option SourceLocation := do
  let place ← v.get? "provenance"
  let file ← place.getString? "file"
  let line ← (place.get? "line").bind Json.asUnsigned?
  return ⟨file, line⟩

/-- Reads a construct of kind `Struct`. -/
def ofJson (v : Json) : Except BundleError StructDecl :=
  match v.getString? "id" with
  | none => .error .structWithoutId
  | some id =>
    match (v.get? "fields").bind Json.asObject? with
    | none => .error (.structWithoutFields id)
    | some members => do
      let fields ← readFields id members
      let unique ← readUnique id v
      return {
        id, fields, unique
        permissions := v.getNonNull? "permissions"
        effects := v.getNonNull? "effects"
        checks := v.getNonNull? "checks"
        location := readLocation? v }

end StructDecl

namespace Bundle

/-- Reads one element of the constructs: a struct, or an object of another kind. -/
def readConstruct (index : Nat) (v : Json) : Except BundleError (Option StructDecl) :=
  match v.asObject? with
  | none => .error (.notAnObject index)
  | some _ =>
    if v.getString? "kind" = some "Struct" then (StructDecl.ofJson v).map some else .ok none

/-- Reads the constructs from an index on. -/
def readConstructs (index : Nat) : List Json → Except BundleError (List StructDecl)
  | [] => .ok []
  | v :: rest => do
    let found ← readConstruct index v
    let others ← readConstructs (index + 1) rest
    return found.toList ++ others

/-- Reads a bundle. -/
def ofJson (v : Json) : Except BundleError Bundle :=
  match v.getString? "id" with
  | none => .error (.missingMember "id")
  | some id =>
    match v.getArray? "constructs" with
    | none => .error (.missingMember "constructs")
    | some constructs => do
      let structs ← readConstructs 0 constructs
      return ⟨id, (v.getString? "graft").getD "", structs⟩

end Bundle

end EntityRules
