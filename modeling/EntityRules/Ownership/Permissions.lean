import EntityRules.Ownership.Walk
import EntityRules.Schema.Defaults

/-!
# `EntityRules.Ownership.Permissions`: what an actor may read and write

An actor presents ownership paths and asks for borrows. Every path has to be
valid; those that begin at an ownership field of the struct count, and unlock
what their hops grant. A borrow counts if its field is an ownership field, was
asked for and is not owned already, and it unlocks the same for reading only.

`provedBorrows` finds the borrows that an actor can prove.
-/

set_option autoImplicit false

namespace EntityRules

/-- The paths that an actor may write and those that it may read. -/
structure Rights where
  write : PathSet
  read : PathSet

/-- The rights to what was unlocked. -/
def Unlocked.rights (u : Unlocked) : Rights := ⟨.ofList u.write, .ofList u.read⟩

namespace Struct

/-- The ownership paths that count: those that begin at an ownership field. -/
def countedPaths (s : Struct) (paths : List Path) : List Path :=
  paths.filter fun p => p.head?.any s.ownershipFields.contains

/-- The borrow rules that count, in the order of their fields. -/
def countedBorrows (s : Struct) (paths : List Path) (requested : List String) :
    List (String × BorrowRule) :=
  s.permissions.borrow.entries.filter fun e =>
    s.ownershipFields.contains e.1 && requested.contains e.1 &&
      !(s.countedPaths paths).any fun p => p.head? == some e.1

end Struct

namespace Registry

/-- Accepts every path of a list, or refuses the first that is invalid. -/
def validatePaths (r : Registry) (s : Struct) : List Path → Except OwnershipFault Unit
  | [] => .ok ()
  | p :: rest => do
    let _ ← r.validatePath s p
    r.validatePaths s rest

/-- What an actor may read and write on a struct, from the ownership paths it has
proved and the borrows it asks for. -/
def permissions (r : Registry) (s : Struct) (paths : List Path) (requested : List String) :
    Except OwnershipFault Rights := do
  r.validatePaths s paths
  let owned ← (s.countedPaths paths).mapM (r.unlockOwned s)
  let delegated := (s.countedBorrows paths requested).flatMap (·.2.ownership)
  let borrowed ← delegated.mapM (r.unlockBorrowed s)
  return (Unlocked.join owned ++ (Unlocked.join borrowed).readOnly).rights

/-- Whether a borrow rule is proved: its predicate evaluates to true. -/
def proves (r : Registry) (s : Struct) (resolver : Resolver) (rule : BorrowRule) : Bool :=
  match ((resolver.withDefaults r s).evaluate rule.prove).result with
  | .ok (.boolean true) => true
  | _ => false

/-- The fields of the borrow rules that an actor proves, in order; the resolver
answers for the actor. -/
def provedBorrows (r : Registry) (s : Struct) (resolver : Resolver) : List String :=
  (s.permissions.borrow.entries.filter fun e => r.proves s resolver e.2).map (·.1)

end Registry

end EntityRules
