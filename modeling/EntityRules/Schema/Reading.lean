import EntityRules.Expr.Form
import EntityRules.Schema.Basic

/-!
# `EntityRules.Schema.Reading`: structs from their declarations

A declaration keeps its rule tables as JSON; here they are understood. The
tables are read in a fixed order and each in the order of its entries, and the
first fault ends the reading: fields, then ownership, borrow, private and public
permissions, then effects, then checks.

What a declaration may leave out: the guard of an ownership rule (always true),
the name of a borrow rule (its field), the lists of a grant (empty), the
dependencies of an effect (none) and the code of a check (its name).
-/

set_option autoImplicit false

namespace EntityRules

/-- Reads every entry of a table that must be an object. -/
def readTable {α : Type} (table : String) (v : Json)
    (readEntry : String → Json → Except ReadError α) : Except ReadError (List (String × α)) :=
  match v.asObject? with
  | none => .error (.notAnObject table)
  | some members => members.mapM fun m => do
    let entry ← readEntry m.1 m.2
    return (m.1, entry)

/-- Reads a list of paths that may be left out. -/
def readPaths (list : String) : Option Json → Except ReadError (List Path)
  | none => .ok []
  | some v => Path.parseList list v

/-! ### Fields -/

/-- The type that a declaration gives to a field. -/
def FieldType.ofDecl (name : String) (d : FieldDecl) : Except ReadError FieldType :=
  if d.type = "other" then .ok (.reference (d.target.getD ""))
  else match LeafKind.ofName? d.type with
    | some kind => .ok (.primitive kind)
    | none => .error (.unknownFieldType name d.type)

/-- Reads the default of a field. A reference cannot have one. -/
def Field.readDefault (name : String) (type : FieldType) :
    Option Json → Except ReadError (Option Leaf)
  | none => .ok none
  | some v =>
    match type with
    | .primitive kind => (Leaf.ofJson kind v).map some
    | .reference _ => .error (.referenceWithDefault name)

/-- Reads a field. -/
def Field.ofDecl (name : String) (d : FieldDecl) : Except ReadError Field := do
  let type ← FieldType.ofDecl name d
  let value ← readDefault name type d.default
  return ⟨type, value⟩

/-! ### Permissions -/

/-- Reads an ownership rule. -/
def OwnershipRule.ofJson (v : Json) : Except ReadError OwnershipRule :=
  match v.getString? "field" with
  | none => .error .ownershipWithoutField
  | some field =>
    match v.getNonNull? "guard" with
    | none => .ok ⟨field, .literal (.boolean true)⟩
    | some guard => do
      let guard ← Expr.ofJson guard
      return ⟨field, guard⟩

/-- Reads the ownership rules. -/
def OwnershipRule.listOfJson : Option Json → Except ReadError (List OwnershipRule)
  | none => .ok []
  | some v =>
    match v.asArray? with
    | none => .error .ownershipNotAnArray
    | some rules => rules.mapM OwnershipRule.ofJson

/-- Reads the borrow rule for a field. -/
def BorrowRule.ofJson (field : String) (v : Json) : Except ReadError BorrowRule :=
  let name := (v.getString? "name").getD field
  match v.get? "prove" with
  | none => .error (.borrowWithout name "prove")
  | some prove => do
    let prove ← Expr.ofJson prove
    match v.get? "ownership" with
    | none => .error (.borrowWithout name "ownership")
    | some paths => do
      let paths ← Path.parseList "borrow ownership" paths
      return ⟨name, prove, paths⟩

/-- Reads a grant. -/
def Grant.ofJson (_field : String) (v : Json) : Except ReadError Grant := do
  let read ← readPaths "read" (v.get? "read")
  let write ← readPaths "write" (v.get? "write")
  return ⟨read, write⟩

/-- Reads the table of permissions with a name; without it there are none. -/
def readPermissions {α : Type} (d : StructDecl) (table : String)
    (readEntry : String → Json → Except ReadError α) : Except ReadError (Table String α) :=
  match d.permission? table with
  | none => .ok .empty
  | some v => (readTable table v readEntry).map Table.ofList

/-- Reads the permissions of a struct. -/
def Permissions.ofDecl (d : StructDecl) : Except ReadError Permissions := do
  let ownership ← OwnershipRule.listOfJson (d.permission? "ownership")
  let borrow ← readPermissions d "borrow" BorrowRule.ofJson
  let grants ← readPermissions d "private" Grant.ofJson
  let publicPaths ← readPaths "'public'" (d.permission? "public")
  return ⟨ownership, borrow, grants, publicPaths⟩

/-! ### Effects and checks -/

/-- Reads a statement of an effect. -/
def Statement.ofJson (effect : String) (v : Json) : Except ReadError Statement :=
  match v.getString? "target" with
  | none => .error (.statementWithout effect "target")
  | some target =>
    match v.get? "expr" with
    | none => .error (.statementWithout effect "expr")
    | some expr => do
      let target ← Path.parse target
      let expr ← Expr.ofJson expr
      return ⟨target, expr⟩

/-- Reads an effect. -/
def Effect.ofJson (name : String) (v : Json) : Except ReadError Effect := do
  let dependencies ← readPaths "effect dependencies" (v.get? "dependencies")
  match v.getArray? "mutate" with
  | none => .error (.effectWithoutStatements name)
  | some statements => do
    let statements ← statements.mapM (Statement.ofJson name)
    return ⟨name, dependencies, statements⟩

/-- Reads a check. -/
def Check.ofJson (name : String) (v : Json) : Except ReadError Check :=
  match v.get? "expr" with
  | none => .error (.checkWithoutExpression name)
  | some expr => do
    let expr ← Expr.ofJson expr
    return ⟨name, expr, (v.getString? "error").getD name⟩

/-- Reads the entries of a table of rules, in name order; without it there are
none. -/
def readRules {α : Type} (table : String) (v : Option Json)
    (readEntry : String → Json → Except ReadError α) : Except ReadError (List α) :=
  match v with
  | none => .ok []
  | some v => (readTable table v readEntry).map fun entries => (Table.ofList entries).values

/-! ### Structs -/

/-- Reads a struct. -/
def Struct.ofDecl (d : StructDecl) : Except ReadError Struct := do
  let fields ← d.fields.mapM fun f => do
    let field ← Field.ofDecl f.1 f.2
    return (f.1, field)
  let permissions ← Permissions.ofDecl d
  let effects ← readRules "effects" d.effects Effect.ofJson
  let checks ← readRules "checks" d.checks Check.ofJson
  return ⟨d.id, .ofList fields, d.unique, permissions, effects, checks⟩

end EntityRules
