import EntityRules.Binary64.Basic
import EntityRules.Number
import EntityRules.Table

/-!
# `EntityRules.Json.Basic`: JSON values

Schemas, expressions and literals arrive as JSON. Numbers come in two classes
that the rules tell apart: whole numbers written without point and exponent, and
floating-point numbers. The members of an object are a list that the reader
leaves in name order.
-/

set_option autoImplicit false

namespace EntityRules

/-- A JSON value. -/
inductive Json
  | null
  | bool (value : Bool)
  | int (value : Int)
  | float (value : Binary64)
  | str (value : String)
  | arr (items : List Json)
  | obj (members : List (String × Json))

namespace Json

instance : Inhabited Json := ⟨null⟩

/-- The object with these members in name order; of two with one name the later
stays. -/
def ofMembers (members : List (String × Json)) : Json := obj (Table.ofList members).entries

/-- The object of a table. -/
def ofTable {β : Type} (table : Table String β) (f : β → Json) : Json :=
  obj (table.entries.map fun e => (e.1, f e.2))

/-- An array of texts. -/
def ofStrings (texts : List String) : Json := arr (texts.map str)

/-- The member of an object with a name; other values have no members. -/
def get? (name : String) : Json → Option Json
  | obj members => members.lookup name
  | _ => none

/-- The text of a JSON string. -/
def asString? : Json → Option String
  | str s => some s
  | _ => none

/-- The value of a JSON boolean. -/
def asBool? : Json → Option Bool
  | bool b => some b
  | _ => none

/-- The items of an array. -/
def asArray? : Json → Option (List Json)
  | arr items => some items
  | _ => none

/-- The members of an object. -/
def asObject? : Json → Option (List (String × Json))
  | obj members => some members
  | _ => none

/-- A whole number that fits a signed 64-bit word. -/
def asNumber? : Json → Option Number
  | int n => Number.ofInt? n
  | _ => none

/-- A whole number that fits an unsigned 64-bit word. -/
def asUnsigned? : Json → Option Nat
  | int n => if 0 ≤ n ∧ n < 2 ^ 64 then some n.toNat else none
  | _ => none

/-- Whether the value is `null`. -/
def isNull : Json → Bool
  | null => true
  | _ => false

/-- A member that is a JSON string. -/
def getString? (name : String) (v : Json) : Option String := (v.get? name).bind asString?

/-- A member that is an array. -/
def getArray? (name : String) (v : Json) : Option (List Json) := (v.get? name).bind asArray?

/-- A member that is there and not `null`. -/
def getNonNull? (name : String) (v : Json) : Option Json :=
  (v.get? name).bind fun m => if m.isNull then none else some m

end Json

end EntityRules
