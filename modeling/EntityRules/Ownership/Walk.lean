import EntityRules.Schema.Registry

/-!
# `EntityRules.Ownership.Walk`: paths that prove ownership

An ownership path walks reference fields from a struct to the struct of users:
`owner`, or `customer.owner` when orders belong to the owner of their customer.
`walk` says whether a path does so, and `unlock` collects what the owner through
a path may read and write: at every hop the grant for that hop, the field
itself, and whatever is public, each as seen from the struct where the path
begins. A borrower gets the same at every hop, but only for reading.
-/

set_option autoImplicit false

namespace EntityRules

namespace Registry

/-- Follows a path of reference fields to the struct of users. -/
def walk (r : Registry) (s : Struct) : List String → Except WalkFault Unit
  | [] => .error (.endsEarly s.name)
  | hop :: rest =>
    match s.field? hop with
    | none => .error (.noField s.name hop)
    | some f =>
      match f.target? with
      | none => .error (.notAReference hop s.name)
      | some target =>
        if rest.isEmpty then
          if target = r.config.userStruct then .ok () else .error (.endsEarly target)
        else
          match r.find? target with
          | none => .error (.unknownTarget target)
          | some next => r.walk next rest

/-- Why a path does not prove ownership of a struct, if it does not. -/
def checkPath (r : Registry) (s : Struct) (path : Path) : Except WalkFault Unit :=
  if path.isEmpty then .error .emptyPath
  else if r.config.maxPathDepth < path.length then
    .error (.tooLong path.length r.config.maxPathDepth)
  else r.walk s path.segments

/-- Accepts a path that proves ownership of a struct, as it is. -/
def validatePath (r : Registry) (s : Struct) (path : Path) : Except OwnershipFault Path :=
  match r.checkPath s path with
  | .ok () => .ok path
  | .error reason => .error ⟨s.name, path, reason⟩

end Registry

/-- Paths that may be written and paths that may be read. -/
structure Unlocked where
  write : List Path
  read : List Path

namespace Unlocked

/-- What two grants allow together. -/
def append (a b : Unlocked) : Unlocked := ⟨a.write ++ b.write, a.read ++ b.read⟩

instance : Append Unlocked := ⟨append⟩

/-- Everything, but only for reading. -/
def readOnly (a : Unlocked) : Unlocked := ⟨[], a.read ++ a.write⟩

/-- What several grants allow together. -/
def join (grants : List Unlocked) : Unlocked :=
  ⟨grants.flatMap (·.write), grants.flatMap (·.read)⟩

/-- What one hop allows together with the hops beyond it. What is borrowed may
only be read, at every hop. -/
def beyond (borrowed : Bool) (here rest : Unlocked) : Unlocked :=
  if borrowed then (⟨here.write, here.read ++ rest.write ++ rest.read⟩ : Unlocked).readOnly
  else here ++ rest

/-- What the last hop of a path allows. -/
def last (borrowed : Bool) (here : Unlocked) : Unlocked :=
  if borrowed then here.readOnly else here

end Unlocked

/-- What a grant for a hop allows on the struct that the hop leaves, seen from
the struct where the path begins. -/
def Struct.unlockHop (s : Struct) (before : Path) (hop : String) (grant : Grant) : Unlocked where
  write := grant.write.map before.join
  read := before.child hop ::
    (grant.read.map before.join ++ s.permissions.publicPaths.map before.join)

namespace Registry

/-- The struct that a hop leads to, which has to have the field of the next
hop. -/
def nextStruct (r : Registry) (s : Struct) (hop next : String) : Except WalkFault Struct :=
  match s.target? hop with
  | none => .error (.leavesNowhere hop)
  | some target =>
    match r.find? target with
    | none => .error (.unknownTarget target)
    | some t => if (t.field? next).isNone then .error (.noField t.name next) else .ok t

/-- Collects what a path unlocks, hop by hop; `before` are the hops already
taken. A hop without a grant unlocks nothing, and neither does the path. -/
def unlock (r : Registry) (borrowed : Bool) (before : Path) (s : Struct) :
    List String → Except OwnershipFault Unlocked
  | [] => .error ⟨s.name, .empty, .emptyPath⟩
  | hop :: rest =>
    match s.permissions.grants.find? hop with
    | none => .error ⟨s.name, ⟨hop :: rest⟩, .noGrant hop⟩
    | some grant =>
      let here := s.unlockHop before hop grant
      match rest with
      | [] => .ok (here.last borrowed)
      | next :: _ =>
        match r.nextStruct s hop next with
        | .error reason => .error ⟨s.name, ⟨hop :: rest⟩, reason⟩
        | .ok t => do
          let others ← r.unlock borrowed (before.child hop) t rest
          return here.beyond borrowed others

/-- What a path unlocks for an owner. -/
def unlockOwned (r : Registry) (s : Struct) (path : Path) : Except OwnershipFault Unlocked :=
  r.unlock false .empty s path.segments

/-- What a path unlocks for a borrower. The path has to prove ownership. -/
def unlockBorrowed (r : Registry) (s : Struct) (path : Path) :
    Except OwnershipFault Unlocked := do
  let path ← r.validatePath s path
  r.unlock true .empty s path.segments

end Registry

end EntityRules
