import EntityRules.Config
import EntityRules.Toml.Document

/-!
# `EntityRules.Config.Reading`: settings from a document

The settings stand in two tables of the document, `engine` and `checks`. A
setting that is left out keeps its default, a setting with a value of the wrong
type is refused, and whatever else stands in the document does not matter.

A section need not be written as a table: in an array the settings are known by
their places, and a date gives none.
-/

set_option autoImplicit false

namespace EntityRules

namespace Config

/-- The settings of a section, by name. -/
abbrev Section := String → Option Toml

/-- The section that a value gives; `names` are its settings in order. -/
def section? (names : List String) : Option Toml → Option Section
  | none => some fun _ => none
  | some (.inline members) => some fun name => members.lookup name
  | some (.table _ members) => some fun name => members.lookup name
  | some (.array items) => some fun name => items[names.idxOf name]?
  | some .dateTime => some fun _ => none
  | some _ => none

/-- A setting that is a text. -/
def text? (standard : String) : Option Toml → Option String
  | none => some standard
  | some (.text s) => some s
  | some _ => none

/-- A setting that is a whole number, not below zero. -/
def count? (standard : Nat) : Option Toml → Option Nat
  | none => some standard
  | some (.integer n) => if 0 ≤ n then some n.toNat else none
  | some _ => none

/-- A setting that is true or false. -/
def flag? (standard : Bool) : Option Toml → Option Bool
  | none => some standard
  | some (.boolean b) => some b
  | some _ => none

/-- The settings of a document. -/
def ofMembers? (members : Toml.Members) : Option Config := do
  let standard : Config := {}
  let engine ← section? ["user_struct", "max_path_depth"] (members.lookup "engine")
  let checks ← section? ["require_boolean"] (members.lookup "checks")
  let userStruct ← text? standard.userStruct (engine "user_struct")
  let maxPathDepth ← count? standard.maxPathDepth (engine "max_path_depth")
  let requireBoolean ← flag? standard.requireBoolean (checks "require_boolean")
  return { userStruct, maxPathDepth, requireBoolean }

/-- Reads the settings from the text of a document; `none` if the document is
malformed or a setting is of the wrong type. -/
def ofToml? (text : String) : Option Config := do
  let members ← Toml.readDocument? text
  ofMembers? members

end Config

end EntityRules
