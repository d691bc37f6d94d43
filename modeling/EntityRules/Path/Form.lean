import EntityRules.Fault

/-!
# `EntityRules.Path.Form`: paths as JSON

A path is written as the JSON string of its dotted form, and a list of paths as
an array of these. Reading one accepts what `Path.parse` accepts and nothing
that is no string.
-/

set_option autoImplicit false

namespace EntityRules

/-- What messages call a value that they refuse. -/
def Json.description : Json → String
  | null => "null"
  | bool b => "boolean `" ++ (bool b).compact ++ "`"
  | int n => "integer `" ++ (int n).compact ++ "`"
  | float x => "floating point `" ++ (float x).compact ++ "`"
  | str s => "string " ++ (str s).compact
  | arr _ => "sequence"
  | obj _ => "map"

namespace Path

/-- Why a JSON value is no path. -/
inductive FormError
  | notAString (got : Json)
  | malformed (fault : ReadError)

/-- The wording of a refusal. -/
def FormError.message : FormError → String
  | notAString got => "invalid type: " ++ got.description ++ ", expected a string"
  | malformed fault => (EvalError.ofRead fault).message

/-- A path as JSON. -/
def toJson (p : Path) : Json := .str p.text

/-- A list of paths as JSON. -/
def listToJson (paths : List Path) : Json := .arr (paths.map toJson)

/-- Reads a path. -/
def ofJson (v : Json) : Except FormError Path :=
  match v.asString? with
  | none => .error (.notAString v)
  | some text =>
    match parse text with
    | .ok p => .ok p
    | .error fault => .error (.malformed fault)

end Path

/-- Reads a set of paths; the first value that is no path is refused. -/
def PathSet.ofJson (values : List Json) : Except Path.FormError PathSet := do
  let paths ← values.mapM Path.ofJson
  return .ofList paths

end EntityRules
