import EntityRules.Ownership.Permissions

/-!
# `EntityRules.Access`: how an actor may use each field

For every path that an actor may read or write, `Registry.access` says what may
be done with it and what depends on it: whether a check reads it, whether an
effect writes it, whether an effect reads it. All three compare paths without
their snapshot roots. A path that an effect writes is derived and never
writeable, and so is one that an effect of an ancestor writes, a struct through
which the entity is reached.
-/

set_option autoImplicit false

namespace EntityRules

/-- A struct that reaches the one in view through a path. -/
structure Ancestor where
  struct : String
  via : Path

/-- What an actor may do with a path, and what depends on it. -/
structure FieldAccess where
  path : Path
  readable : Bool
  writeable : Bool
  /-- A check reads the path. -/
  readByCheck : Bool
  /-- An effect writes the path. -/
  derived : Bool
  /-- An effect reads the path. -/
  readByEffect : Bool
deriving DecidableEq

/-- Whether an expression reads a path under any snapshot root. -/
def Expr.reads (e : Expr) (p : Path) : Bool :=
  e.referencedPaths.any fun q => q.relative == p.relative

namespace Struct

/-- Whether a check reads a path. -/
def readByCheck (s : Struct) (p : Path) : Bool :=
  s.checks.any fun c => c.expr.reads p

/-- Whether an effect reads a path. -/
def readByEffect (s : Struct) (p : Path) : Bool :=
  s.statements.any fun m => m.expr.reads p

/-- Whether an effect writes a path that has no snapshot root. -/
def writes (s : Struct) (p : Path) : Bool :=
  s.statements.any fun m => m.target.relative == p

end Struct

namespace Registry

/-- Whether an effect writes a path, one of the struct itself or one of an
ancestor that sees the path below its own. -/
def isDerived (r : Registry) (s : Struct) (ancestors : List Ancestor) (p : Path) : Bool :=
  s.writes p.relative || ancestors.any fun a =>
    (r.find? a.struct).any fun higher => higher.writes (a.via.join p.relative)

/-- What an actor with some rights may do with one path. -/
def mark (r : Registry) (s : Struct) (rights : Rights) (ancestors : List Ancestor) (p : Path) :
    FieldAccess :=
  let derived := r.isDerived s ancestors p
  { path := p
    readable := rights.read.contains p
    writeable := rights.write.contains p && !derived
    readByCheck := s.readByCheck p
    derived := derived
    readByEffect := s.readByEffect p }

/-- Marks every path that an actor may read or write, in the order of paths. -/
def markAll (r : Registry) (s : Struct) (rights : Rights) (ancestors : List Ancestor) :
    List FieldAccess :=
  (PathSet.ofList (rights.write.toList ++ rights.read.toList)).toList.map
    (r.mark s rights ancestors)

/-- The access of an actor that has proved ownership paths and asks for
borrows. -/
def access (r : Registry) (s : Struct) (paths : List Path) (requested : List String)
    (ancestors : List Ancestor) : Except OwnershipFault (List FieldAccess) := do
  let rights ← r.permissions s paths requested
  return r.markAll s rights ancestors

/-- The access of an actor that has proved ownership paths and gets every borrow
that its own values prove. -/
def sessionAccess (r : Registry) (struct : String) (paths : List Path) (resolver : Resolver)
    (ancestors : List Ancestor) : Except EvalError (List FieldAccess) := do
  let s ← r.get struct
  match r.access s paths (r.provedBorrows s resolver) ancestors with
  | .ok access => return access
  | .error fault => throw (.invalidOwnershipPath fault)

end Registry

end EntityRules
