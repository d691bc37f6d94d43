import EntityRules.Ownership.Walk

/-!
# `EntityRules.Schema.Validation`: the rules that a schema keeps

`Struct.faults` lists every rule that a struct breaks, in the order in which they
are checked: fields, uniqueness groups, ownership, grants, public paths, borrows,
effects and, where the settings ask for it, the kinds of guards and checks. An
entry that breaks several rules is listed once, under the first. The registry is
valid if no struct has a fault; else the first fault of the first struct in name
order is the answer.
-/

set_option autoImplicit false

namespace EntityRules

/-- A reference leads to users or to a struct of the registry; a default has the
kind of its field. -/
def Registry.fieldFault? (r : Registry) (name : String) (f : Field) : Option RuleFault :=
  match f.type with
  | .reference target =>
    if target.isEmpty then some (.noTarget name)
    else if target ≠ r.config.userStruct ∧ (r.find? target).isNone then
      some (.unknownTarget name target)
    else none
  | .primitive kind =>
    match f.default with
    | none => none
    | some value =>
      if value.kind = kind then none else some (.defaultKind name value.kind kind)

/-- The paths of a list that lead to no field. -/
def Registry.unknownPaths (r : Registry) (s : Struct) (paths : List Path) : List Path :=
  paths.filter fun p => (r.findField? s p.segments).isNone

namespace Struct

/-- A uniqueness group names fields, at least one. -/
def groupFault? (s : Struct) (group : List String) : Option RuleFault :=
  if group.isEmpty then some .emptyGroup
  else (group.find? fun name => (s.field? name).isNone).map .unknownMember

/-- Ownership begins at a reference. -/
def ownershipFault? (s : Struct) (rule : OwnershipRule) : Option RuleFault :=
  match s.field? rule.field with
  | none => some (.ownershipUndeclared rule.field)
  | some f => if f.target?.isNone then some (.ownershipNotAReference rule.field) else none

/-- A grant belongs to an ownership field and names known paths. -/
def grantFault? (r : Registry) (s : Struct) (field : String) (grant : Grant) :
    Option RuleFault :=
  if field ∉ s.ownershipFields then some (.grantNotOwnership field)
  else (r.unknownPaths s (grant.read ++ grant.write)).head?.map (.grantUnknownPath field)

/-- The first path of a list that unlocks nothing, and why. -/
def delegationFault? (r : Registry) (s : Struct) (paths : List Path) : Option OwnershipFault :=
  paths.findSome? fun p =>
    match r.unlockBorrowed s p with
    | .ok _ => none
    | .error fault => some fault

/-- A borrow rule belongs to a field and delegates ownership paths, each with a
grant at every hop. -/
def borrowFault? (r : Registry) (s : Struct) (field : String) (rule : BorrowRule) :
    Option RuleFault :=
  if (s.field? field).isNone then some (.borrowUndeclared rule.name field)
  else if rule.ownership.isEmpty || rule.ownership.any Path.isEmpty then
    some (.borrowWithoutPath rule.name)
  else (s.delegationFault? r rule.ownership).map (.borrowPath rule.name)

/-- An effect writes below the state before or after the change. -/
def targetFault? (effect : String) (target : Path) : Option RuleFault :=
  if (target.snapshot? = some .prev ∨ target.snapshot? = some .curr) ∧ 2 ≤ target.length then none
  else some (.targetNotRooted effect target)

/-- The kind of an expression that is known to be no boolean. -/
def wrongKind? (e : Expr) : Option LeafKind := e.resultKind?.filter (· ≠ .boolean)

/-- The guards and checks that are known to be no booleans. -/
def kindFaults (s : Struct) : List RuleFault :=
  s.permissions.ownership.filterMap (fun rule =>
    (wrongKind? rule.guard).map (.guardKind rule.field)) ++
  s.checks.filterMap fun check => (wrongKind? check.expr).map (.checkKind check.name)

/-- The rules that a struct breaks, in the order in which they are checked. -/
def faults (r : Registry) (s : Struct) : List RuleFault :=
  s.fields.entries.filterMap (fun e => r.fieldFault? e.1 e.2) ++
  s.unique.filterMap s.groupFault? ++
  s.permissions.ownership.filterMap s.ownershipFault? ++
  s.permissions.grants.entries.filterMap (fun e => s.grantFault? r e.1 e.2) ++
  (r.unknownPaths s s.permissions.publicPaths).map .publicUnknownPath ++
  s.permissions.borrow.entries.filterMap (fun e => s.borrowFault? r e.1 e.2) ++
  s.effects.flatMap (fun effect => effect.statements.filterMap fun statement =>
    targetFault? effect.name statement.target) ++
  (if r.config.requireBoolean then s.kindFaults else [])

end Struct

namespace Registry

/-- The first fault of the first struct, in name order, that has one. -/
def fault? (r : Registry) : Option SchemaFault :=
  r.structs.findSome? fun s => (s.faults r).head?.map (.rule s.name)

/-- Accepts a registry that keeps every rule. -/
def validate (r : Registry) : Except EvalError Unit :=
  match r.fault? with
  | none => .ok ()
  | some fault => .error (.invalidSchema fault)

end Registry

end EntityRules
