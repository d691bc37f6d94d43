import EntityRules.Config
import EntityRules.Schema.Basic

/-!
# `EntityRules.Schema.Registry`: the structs of a schema

A registry holds structs by name, with the settings of the engine. `findField?`
walks a path from a struct: every segment but the last is a reference to a
struct of the registry, and the last names any field of the struct reached.

* `mem_structs_iff`: a struct is in the registry exactly when its own name finds
  it.
-/

set_option autoImplicit false

namespace EntityRules

/-- The structs of a schema, each under its own name. -/
structure Registry where
  id : String
  config : Config
  table : Table String Struct
  named : ∀ e ∈ table.entries, e.1 = e.2.name

namespace Registry

/-- The registry of a list of structs; of two with one name the later stays. -/
def ofStructs (id : String) (structs : List Struct) (config : Config) : Registry where
  id
  config
  table := .ofList (structs.map fun s => (s.name, s))
  named e he := by
    obtain ⟨s, _, rfl⟩ := List.mem_map.mp (Table.mem_of_mem_ofList he)
    rfl

/-- The structs, in name order. -/
def structs (r : Registry) : List Struct := r.table.values

/-- The struct with a name. -/
def find? (r : Registry) (name : String) : Option Struct := r.table.find? name

/-- A struct is in the registry exactly when its own name finds it. -/
theorem mem_structs_iff (r : Registry) (s : Struct) : s ∈ r.structs ↔ r.find? s.name = some s := by
  rw [find?, ← Table.mem_entries_iff]
  constructor
  · intro h
    obtain ⟨e, he, rfl⟩ := List.mem_map.mp h
    exact r.named e he ▸ he
  · exact fun h => List.mem_map.mpr ⟨_, h, rfl⟩

/-- Structs are in name order. -/
theorem pairwise_structs (r : Registry) : r.structs.Pairwise fun a b => a.name < b.name :=
  Table.pairwise_values fun e he => (r.named e he).symm

/-- The entries are the structs, each under its own name. -/
theorem map_structs_eq_entries (r : Registry) :
    r.structs.map (fun s => (s.name, s)) = r.table.entries := by
  rw [structs, Table.values, List.map_map]
  refine (List.map_congr_left fun e he => ?_).trans (List.map_id _)
  exact Prod.ext (r.named e he).symm rfl

/-- The struct with a name; any other name is an error. -/
def get (r : Registry) (name : String) : Except EvalError Struct :=
  match r.find? name with
  | some s => .ok s
  | none => .error (.invalidSchema (.unknownStruct name))

/-- The registry without the structs of some names. -/
def without (r : Registry) (names : List String) : Registry where
  id := r.id
  config := r.config
  table := r.table.filter fun name _ => !names.contains name
  named e he := r.named e (List.mem_filter.mp he).1

/-! ### Paths through the schema -/

/-- The struct of the registry that a reference field leads to. -/
def hop? (r : Registry) (s : Struct) (field : String) : Option Struct :=
  (s.target? field).bind r.find?

/-- The field at the end of a path from a struct. -/
def findField? (r : Registry) (s : Struct) : List String → Option Field
  | [] => none
  | [last] => s.field? last
  | hop :: rest => (r.hop? s hop).bind fun next => r.findField? next rest

/-- The field at the end of a path from a struct; a path that leads to none is
unknown under the name of the struct. -/
def getField (r : Registry) (s : Struct) (path : Path) : Except EvalError Field :=
  match r.findField? s path.segments with
  | some f => .ok f
  | none => .error (.unknownField (s.name ++ "." ++ path.text))

end Registry

end EntityRules
