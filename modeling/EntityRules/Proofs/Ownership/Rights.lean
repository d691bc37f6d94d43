import EntityRules.Ownership.Permissions
import EntityRules.Proofs.Ownership.Unlock

/-!
# `EntityRules.Proofs.Ownership.Rights`: the exact rights of an actor

The rights that `permissions` computes, described by the paths that count and
the hops of these paths.

* `Owns`, `Borrows`, `Delegates`: which of the presented paths count, which
  borrow rules count beside them, and which paths those delegate.
* `permissions_eq_ok_iff`: the rights are those of the unlocked paths.
* `permissions_fails_iff_and_mem_iff`: when there are rights, and which paths
  they hold.
-/

set_option autoImplicit false

namespace EntityRules

open Proofs

/-! ### Paths and borrows that count -/

namespace Struct

/-- `s.Owns paths path`: the presented path counts, because it begins at an ownership
field. -/
def Owns (s : Struct) (paths : List Path) (path : Path) : Prop :=
  path ∈ paths ∧ ∃ field ∈ s.ownershipFields, path.head? = some field

/-- `s.Borrows paths requested field`: the borrow rule of the field counts, because it
is an ownership field, was asked for and is not owned: no path that counts begins there.
-/
def Borrows (s : Struct) (paths : List Path) (requested : List String) (field : String) : Prop :=
  field ∈ s.ownershipFields ∧ field ∈ requested ∧
    ∀ path, s.Owns paths path → path.head? ≠ some field

/-- `s.Delegates paths requested path`: a borrow rule that counts delegates the path. -/
def Delegates (s : Struct) (paths : List Path) (requested : List String) (path : Path) : Prop :=
  ∃ field rule, s.permissions.borrow.find? field = some rule ∧
    s.Borrows paths requested field ∧ path ∈ rule.ownership

variable {s : Struct} {paths : List Path} {requested : List String} {path : Path}

/-- `countedPaths` are those that `Owns` lets count. -/
theorem mem_countedPaths : path ∈ s.countedPaths paths ↔ s.Owns paths path := by
  simp only [countedPaths, Owns, List.mem_filter]
  cases path.head? with
  | none => simp
  | some field => simp

/-- `countedBorrows` are the rules that `Borrows` lets count. -/
theorem mem_countedBorrows {field : String} {rule : BorrowRule} :
    (field, rule) ∈ s.countedBorrows paths requested ↔
      s.permissions.borrow.find? field = some rule ∧ s.Borrows paths requested field := by
  simp only [countedBorrows, Borrows, List.mem_filter, Table.mem_entries_iff, Bool.and_eq_true,
    List.contains_iff_mem, Bool.not_eq_true', List.any_eq_false, mem_countedPaths, beq_iff_eq,
    and_assoc, ne_eq]

/-- The paths of the `countedBorrows` are those that the struct `Delegates`. -/
theorem mem_delegated :
    path ∈ (s.countedBorrows paths requested).flatMap (·.2.ownership) ↔
      s.Delegates paths requested path := by
  simp only [List.mem_flatMap, Prod.exists, mem_countedBorrows, Delegates, and_assoc]

end Struct

namespace Registry

/-- `r.Rejects s path`: the path does not prove ownership of the struct. -/
def Rejects (r : Registry) (s : Struct) (path : Path) : Prop :=
  ∃ fault, r.validatePath s path = .error fault

variable {r : Registry} {s : Struct} {paths : List Path} {requested : List String} {path : Path}

/-- `findField?` finds a field by a path that is not refused by `Rejects`. -/
theorem exists_findField?_of_not_rejects (h : ¬ r.Rejects s path) :
    ∃ f, r.findField? s path.segments = some f := by
  obtain ⟨path', hvalid⟩ := not_not.mp (mt except_fails_iff.mpr h)
  obtain ⟨hcheck, -⟩ := validatePath_eq_ok_iff.mp hvalid
  obtain ⟨f, hf, -⟩ := walk_eq_ok_iff.mp (checkPath_eq_ok_iff.mp hcheck).2.2
  exact ⟨f, hf⟩

/-- `validatePath` hands a path back that is not refused. -/
theorem validatePath_of_not_rejects (h : ¬ r.Rejects s path) :
    r.validatePath s path = .ok path := by
  obtain ⟨path', hvalid⟩ := not_not.mp (mt except_fails_iff.mpr h)
  obtain ⟨-, rfl⟩ := validatePath_eq_ok_iff.mp hvalid
  exact hvalid

/-- `validatePaths` fails when it `Rejects` one of the paths. -/
theorem validatePaths_fails_iff :
    (∃ fault, r.validatePaths s paths = .error fault) ↔ ∃ path ∈ paths, r.Rejects s path := by
  induction paths with
  | nil => simp [validatePaths]
  | cons path rest ih =>
      simp only [validatePaths, except_bind_fails_iff, ih, List.mem_cons, exists_eq_or_imp,
        exists_and_right]
      constructor
      · rintro (h | ⟨-, h⟩)
        · exact .inl h
        · exact .inr h
      · intro h
        by_cases hp : r.Rejects s path
        · exact .inl hp
        · exact .inr ⟨⟨path, validatePath_of_not_rejects hp⟩, h.resolve_left hp⟩

/-- `r.LacksGrant s path`: some hop of the path has no grant on the struct that it
leaves. -/
def LacksGrant (r : Registry) (s : Struct) (path : Path) : Prop :=
  ∃ i t hop, r.Leaves s path.segments i t hop ∧ t.permissions.grants.find? hop = none

/-- `unlock` of a path that proves ownership fails exactly when the path `LacksGrant`.
-/
theorem unlock_fails_iff_lacksGrant (h : ¬ r.Rejects s path) (borrowed : Bool) :
    (∃ fault, r.unlock borrowed .empty s path.segments = .error fault) ↔ r.LacksGrant s path := by
  obtain ⟨f, hf⟩ := exists_findField?_of_not_rejects h
  exact unlock_fails_iff hf

/-- `unlockBorrowed` fails when the path does not prove ownership or `LacksGrant`. -/
theorem unlockBorrowed_fails_iff :
    (∃ fault, r.unlockBorrowed s path = .error fault) ↔
      r.Rejects s path ∨ r.LacksGrant s path := by
  by_cases hp : r.Rejects s path
  · have hrejects := hp
    obtain ⟨fault, hfault⟩ := hp
    simp [unlockBorrowed, hfault, hrejects]
  · have hunlock := unlock_fails_iff_lacksGrant hp true
    rw [← hunlock]
    simp [unlockBorrowed, validatePath_of_not_rejects hp, hp]

/-! ### The rights -/

/-- `permissions` are those of the unlocked paths, of owners and of borrowers. -/
theorem permissions_eq_ok_iff {rights : Rights} :
    r.permissions s paths requested = .ok rights ↔
      r.validatePaths s paths = .ok () ∧
        ∃ owned borrowed,
          (s.countedPaths paths).mapM (r.unlockOwned s) = .ok owned ∧
          ((s.countedBorrows paths requested).flatMap (·.2.ownership)).mapM
            (r.unlockBorrowed s) = .ok borrowed ∧
          rights = (Unlocked.join owned ++ (Unlocked.join borrowed).readOnly).rights := by
  simp only [permissions, except_bind_eq_ok, except_pure, Except.ok.injEq, eq_comm (b := rights)]
  constructor
  · rintro ⟨⟨⟩, hpaths, owned, howned, borrowed, hborrowed, hrights⟩
    exact ⟨hpaths, owned, borrowed, howned, hborrowed, hrights⟩
  · rintro ⟨hpaths, owned, borrowed, howned, hborrowed, hrights⟩
    exact ⟨(), hpaths, owned, howned, borrowed, hborrowed, hrights⟩

/-- `permissions` are missing exactly when `Rejects` holds of a presented path, or when
one of the paths that count or are delegated is refused or `LacksGrant`. -/
theorem permissions_fails_iff :
    (∃ fault, r.permissions s paths requested = .error fault) ↔
      (∃ path ∈ paths, r.Rejects s path) ∨
        ∃ path, (s.Owns paths path ∨ s.Delegates paths requested path) ∧
          (r.Rejects s path ∨ r.LacksGrant s path) := by
  by_cases hpaths : ∃ path ∈ paths, r.Rejects s path
  · obtain ⟨fault, hfault⟩ := validatePaths_fails_iff.mpr hpaths
    simp [permissions, hfault, hpaths]
  · -- Every presented path proves ownership, so only a missing grant stops an owner.
    obtain ⟨_, hvalid⟩ :=
      not_not.mp (mt except_fails_iff.mpr (mt validatePaths_fails_iff.mp hpaths))
    have howned : ∀ path, s.Owns paths path →
        ((∃ fault, r.unlockOwned s path = .error fault) ↔
          r.Rejects s path ∨ r.LacksGrant s path) := by
      intro path howns
      have hpath : ¬ r.Rejects s path := fun h => hpaths ⟨path, howns.1, h⟩
      rw [unlockOwned, unlock_fails_iff_lacksGrant hpath]
      simp [hpath]
    simp only [permissions, hvalid, except_bind_ok, hpaths, false_or]
    rw [except_bind_fails_iff, mapM_fails_iff]
    simp only [Struct.mem_countedPaths, except_bind_fails_iff, mapM_fails_iff, Struct.mem_delegated,
      unlockBorrowed_fails_iff, except_pure, reduceCtorEq, exists_false, and_false, or_false]
    constructor
    · rintro (⟨path, howns, hfails⟩ | ⟨-, -, path, hdelegates, hfails⟩)
      · exact ⟨path, .inl howns, (howned path howns).mp hfails⟩
      · exact ⟨path, .inr hdelegates, hfails⟩
    · rintro ⟨path, howns | hdelegates, hfails⟩
      · exact .inl ⟨path, howns, (howned path howns).mpr hfails⟩
      · -- The delegated paths are reached only if every path that counts unlocks.
        by_cases hall : ∃ path, s.Owns paths path ∧ ∃ fault, r.unlockOwned s path = .error fault
        · exact .inl hall
        · refine .inr ?_
          obtain ⟨owned, howned⟩ :
              ∃ owned, (s.countedPaths paths).mapM (r.unlockOwned s) = .ok owned := by
            refine mapM_succeeds fun path hpath => ?_
            refine not_not.mp (mt except_fails_iff.mpr fun hfail => hall ⟨path, ?_, hfail⟩)
            exact Struct.mem_countedPaths.mp hpath
          exact ⟨owned, howned, path, hdelegates, hfails⟩

/-- `permissions` are there only if no path that counts or is delegated is refused. -/
theorem not_rejects_of_permissions {rights : Rights}
    (h : r.permissions s paths requested = .ok rights)
    (hpath : s.Owns paths path ∨ s.Delegates paths requested path) : ¬ r.Rejects s path := by
  intro hrejects
  obtain ⟨fault, hfault⟩ := permissions_fails_iff.mpr (.inr ⟨path, hpath, .inl hrejects⟩)
  rw [h] at hfault
  cases hfault

/-- `unlockOwned` gives what the hops of a path grant, to write and to read. -/
theorem mem_of_unlockOwned {u : Unlocked} (h : r.unlockOwned s path = .ok u) (p : Path) :
    (p ∈ u.write ↔ r.Along s path.segments Struct.GrantsWrite p) ∧
      (p ∈ u.read ↔ r.Along s path.segments Struct.GrantsRead p) := by
  have hu := mem_of_unlock h p
  simpa using hu

/-- `unlockBorrowed` gives, to read or to write, what the hops of a path grant for
either. -/
theorem mem_of_unlockBorrowed {u : Unlocked} (h : r.unlockBorrowed s path = .ok u) (p : Path) :
    p ∈ u.read ∨ p ∈ u.write ↔
      r.Along s path.segments Struct.GrantsRead p ∨
        r.Along s path.segments Struct.GrantsWrite p := by
  obtain ⟨path', hpath, hunlock⟩ := except_bind_eq_ok.mp h
  obtain ⟨-, rfl⟩ := validatePath_eq_ok_iff.mp hpath
  have hu := mem_of_unlock hunlock p
  simpa [hu.1] using hu.2

/-- `permissions` allow to write what the paths that count grant for writing. -/
theorem mem_write_of_permissions {rights : Rights}
    (h : r.permissions s paths requested = .ok rights) (p : Path) :
    p ∈ rights.write.toList ↔
      ∃ path, s.Owns paths path ∧ r.Along s path.segments Struct.GrantsWrite p := by
  obtain ⟨-, owned, borrowed, howned, hborrowed, rfl⟩ := permissions_eq_ok_iff.mp h
  have hmem := exists_mem_of_mapM_eq_ok howned fun _ _ hu => (mem_of_unlockOwned hu p).1
  simpa [Unlocked.rights, Struct.mem_countedPaths] using hmem

/-- `permissions` allow to read what the paths that count grant for reading, and
everything that the delegated paths grant. -/
theorem mem_read_of_permissions {rights : Rights}
    (h : r.permissions s paths requested = .ok rights) (p : Path) :
    p ∈ rights.read.toList ↔
      (∃ path, s.Owns paths path ∧ r.Along s path.segments Struct.GrantsRead p) ∨
        ∃ path, s.Delegates paths requested path ∧
          (r.Along s path.segments Struct.GrantsRead p ∨
            r.Along s path.segments Struct.GrantsWrite p) := by
  obtain ⟨-, owned, borrowed, howned, hborrowed, rfl⟩ := permissions_eq_ok_iff.mp h
  have hmem := exists_mem_of_mapM_eq_ok howned fun _ _ hu => (mem_of_unlockOwned hu p).2
  -- What is unlocked for a borrower is read whole, with what a grant lets write.
  have hmem' := exists_mem_of_mapM_eq_ok hborrowed fun _ _ hu => mem_of_unlockBorrowed hu p
  simp only [Struct.mem_countedPaths] at hmem
  simp only [Struct.mem_delegated] at hmem'
  rw [← hmem, ← hmem']
  simp [Unlocked.rights, and_or_left, exists_or]

/-- The exact `permissions` of an actor. They are missing exactly when `Rejects` or
`LacksGrant` holds of a path; if there are any, the actor may write what the hops of the
paths that count (`Owns`) grant for writing, and may read what these grant for reading
and all that the paths which the struct `Delegates` grant. A path that proves ownership
fails for no other reason than a hop without a grant. -/
theorem permissions_fails_iff_and_mem_iff (r : Registry) (s : Struct) (paths : List Path)
    (requested : List String) :
    ((∃ fault, r.permissions s paths requested = .error fault) ↔
      (∃ path ∈ paths, r.Rejects s path) ∨
        ∃ path, (s.Owns paths path ∨ s.Delegates paths requested path) ∧
          (r.Rejects s path ∨ r.LacksGrant s path)) ∧
    (∀ rights, r.permissions s paths requested = .ok rights → ∀ p,
      (p ∈ rights.write.toList ↔
        ∃ path, s.Owns paths path ∧ r.Along s path.segments Struct.GrantsWrite p) ∧
      (p ∈ rights.read.toList ↔
        (∃ path, s.Owns paths path ∧ r.Along s path.segments Struct.GrantsRead p) ∨
          ∃ path, s.Delegates paths requested path ∧
            (r.Along s path.segments Struct.GrantsRead p ∨
              r.Along s path.segments Struct.GrantsWrite p))) ∧
    ∀ path borrowed fault, r.validatePath s path = .ok path →
      r.unlock borrowed .empty s path.segments = .error fault →
      ∃ i t hop, r.Leaves s path.segments i t hop ∧ t.permissions.grants.find? hop = none ∧
        fault = ⟨t.name, ⟨path.segments.drop i⟩, .noGrant hop⟩ := by
  refine ⟨permissions_fails_iff, ?_, ?_⟩
  · intro rights h p
    exact ⟨mem_write_of_permissions h p, mem_read_of_permissions h p⟩
  · intro path borrowed fault hpath hfault
    -- A path that is accepted leads to a field, where the only fault is a missing grant.
    have hnot : ¬ r.Rejects s path := by
      rintro ⟨fault', hfault'⟩
      rw [hpath] at hfault'
      cases hfault'
    obtain ⟨f, hf⟩ := exists_findField?_of_not_rejects hnot
    exact unlock_eq_error hf hfault

end Registry

end EntityRules
