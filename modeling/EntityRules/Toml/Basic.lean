import EntityRules.Table

/-!
# `EntityRules.Toml.Basic`: documents of settings

A TOML document is a table of tables and values. It is written line by line, and
what a later line may add depends on how a table came about: a table has one
header at most, a table that a dotted key made grows by dotted keys only, and an
inline table does not grow at all. `Toml.Origin` keeps what is needed to decide.

* `bindKey?`: adds the value of a dotted key to a table.
* `openTable?`, `openElement?`: what a header does to a document.
* `alter?`: changes what a header has opened.
-/

set_option autoImplicit false

namespace EntityRules

/-- How a table came about. -/
inductive Toml.Origin
  /-- By a header of its own. -/
  | header
  /-- By the header of a table below it. -/
  | implied
  /-- By a dotted key. -/
  | dotted
deriving DecidableEq, Repr

/-- A value of a document. Of floating-point numbers and of dates and times only
the presence is kept: no setting has such a value. -/
inductive Toml
  | text (value : String)
  | integer (value : Int)
  | float
  | boolean (value : Bool)
  | dateTime
  | array (items : List Toml)
  /-- A table written as a value. -/
  | inline (members : List (String × Toml))
  | table (origin : Toml.Origin) (members : List (String × Toml))
  /-- Tables that repeat one header, the latest first. -/
  | elements (tables : List (List (String × Toml)))

namespace Toml

/-- The members of a table, in name order. -/
abbrev Members := List (String × Toml)

/-- Adds a value at the end of a dotted key. On the way, tables are made where
there are none; a table with a header is closed to dotted keys, and the last
table has to be one that dotted keys made. -/
def bindKey? (key : String) (value : Toml) : List String → Members → Option Members
  | [], members =>
    match members.lookup key with
    | none => some (Table.insertEntry key value members)
    | some _ => none
  | hop :: rest, members =>
    match members.lookup hop with
    | none => do
      let inner ← bindKey? key value rest []
      return Table.insertEntry hop (table .dotted inner) members
    | some (table origin inner) =>
      if origin = .header ∨ (rest = [] ∧ origin ≠ .dotted) then none
      else do
        let inner ← bindKey? key value rest inner
        return Table.insertEntry hop (table origin inner) members
    | some (elements (newest :: older)) =>
      if rest = [] then none
      else do
        let newest ← bindKey? key value rest newest
        return Table.insertEntry hop (elements (newest :: older)) members
    | some _ => none

/-- Changes what stands at the end of the key of a header. On the way, a missing
table is implied, and of repeated tables the latest is meant. -/
def alter? (change : Option Toml → Option Toml) : List String → Members → Option Members
  | [], _ => none
  | [last], members => do
    let value ← change (members.lookup last)
    return Table.insertEntry last value members
  | hop :: rest, members =>
    match members.lookup hop with
    | none => do
      let inner ← alter? change rest []
      return Table.insertEntry hop (table .implied inner) members
    | some (table origin inner) => do
      let inner ← alter? change rest inner
      return Table.insertEntry hop (table origin inner) members
    | some (elements (newest :: older)) => do
      let newest ← alter? change rest newest
      return Table.insertEntry hop (elements (newest :: older)) members
    | some _ => none

/-- Opens a table: a new one, or one that was only implied so far. -/
def openTable? : Option Toml → Option Toml
  | none => some (table .header [])
  | some (table .implied members) => some (table .header members)
  | some _ => none

/-- Opens one more table of those that repeat a header. -/
def openElement? : Option Toml → Option Toml
  | none => some (elements [[]])
  | some (elements tables) => some (elements ([] :: tables))
  | some _ => none

/-- Adds the value of a dotted key to the table that was opened last. -/
def extend? (key : String) (value : Toml) (path : List String) : Option Toml → Option Toml
  | some (table origin members) => (bindKey? key value path members).map (table origin)
  | some (elements (newest :: older)) =>
    (bindKey? key value path newest).map fun newest => elements (newest :: older)
  | _ => none

end Toml

end EntityRules
