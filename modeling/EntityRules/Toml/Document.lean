import EntityRules.Toml.Line

/-!
# `EntityRules.Toml.Document`: documents from text

The lines of a document are carried out one by one on the table that is the
document. A header opens a table, and the entries that follow belong to it;
entries before the first header belong to the document itself. A line that the
tables so far do not allow makes the whole document invalid, as does one that
cannot be read.
-/

set_option autoImplicit false

namespace EntityRules

namespace Toml

/-- A document while it is read: its members, and the key of the table that was
opened last. -/
structure Draft where
  members : Members
  opened : List String

namespace Draft

/-- The empty document. -/
def start : Draft := ⟨[], []⟩

/-- Carries out a line. -/
def take? (d : Draft) : Line → Option Draft
  | .table key => (alter? openTable? key d.members).map fun members => ⟨members, key⟩
  | .element key => (alter? openElement? key d.members).map fun members => ⟨members, key⟩
  | .entry key value => do
    let members ←
      if d.opened = [] then bindEntry? key value d.members
      else do
        let last ← key.getLast?
        alter? (extend? last value key.dropLast) d.opened d.members
    return { d with members }

end Draft

/-- Reads a document. A byte order mark at its beginning does not count. -/
def readDocument? (text : String) : Option Members := do
  let chars := text.toList
  let chars := if chars.head? = some '\ufeff' then chars.tail else chars
  let lines ← readLines? (chars.length + 1) chars
  let draft ← lines.foldlM Draft.take? .start
  return draft.members

end Toml

end EntityRules
