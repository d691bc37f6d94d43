import EntityRules.Access
import EntityRules.Proofs.Ownership.Rights

/-!
# `EntityRules.Proofs.Ownership.Listing`: the paths that are listed

`access` lists every path of the rights once, with what may be done with it.

* `mem_markAll_iff`: a listed entry is the mark of a path of the rights.
* `access_eq_ok_iff`, `sessionAccess_eq_ok_iff`: there is a list when there are
  rights; in a session, for the borrows that it proves.
-/

set_option autoImplicit false

namespace EntityRules.Registry

open Proofs

variable {r : Registry} {s : Struct} {paths : List Path} {requested : List String}
  {ancestors : List Ancestor} {access : List FieldAccess}

/-- `markAll` lists the `mark` of every path that may be written or read. -/
theorem mem_markAll_iff {rights : Rights} {a : FieldAccess} :
    a ∈ r.markAll s rights ancestors ↔
      (a.path ∈ rights.write.toList ∨ a.path ∈ rights.read.toList) ∧
        a = r.mark s rights ancestors a.path := by
  simp only [markAll, List.mem_map, PathSet.mem_toList_ofList, List.mem_append]
  constructor
  · rintro ⟨p, hp, rfl⟩
    exact ⟨hp, rfl⟩
  · rintro ⟨hp, ha⟩
    exact ⟨a.path, hp, ha.symm⟩

/-- `access` gives a list, that of `markAll`, when there are `permissions`. -/
theorem access_eq_ok_iff :
    r.access s paths requested ancestors = .ok access ↔
      ∃ rights, r.permissions s paths requested = .ok rights ∧
        access = r.markAll s rights ancestors := by
  simp only [Registry.access, except_bind_eq_ok, except_pure, Except.ok.injEq,
    eq_comm (a := access)]

/-- `sessionAccess` is the `access` with the `provedBorrows` of the session. -/
theorem sessionAccess_eq_ok_iff {name : String} {resolver : Resolver} :
    r.sessionAccess name paths resolver ancestors = .ok access ↔
      ∃ s, r.find? name = some s ∧
        r.access s paths (r.provedBorrows s resolver) ancestors = .ok access := by
  unfold sessionAccess get
  cases r.find? name with
  | none => simp
  | some s =>
      cases h : r.access s paths (r.provedBorrows s resolver) ancestors with
      | error fault => simp [h, throw, throwThe, MonadExceptOf.throw]
      | ok access' => simp [h]

end EntityRules.Registry
