import EntityRules.Proofs.Ownership.Listing
import EntityRules.Proofs.Schema.Validity

/-!
# `EntityRules.Proofs.Ownership.Borrowing`: borrows only read

Loading a registry tries every borrow rule: each path that it delegates has to
unlock something. So a borrow never fails later, and what it unlocks is only
read.

* `exists_permissions_of_keepsRules`: asking for borrows keeps the rights there
  are, and adds nothing to write.
* `permissions_congr_requested`: only borrows that can count matter.
* `borrows_only_read`: both for a loaded registry, and what follows for actors
  who own nothing.
-/

set_option autoImplicit false

namespace EntityRules

open Proofs

variable {r : Registry} {s : Struct} {paths : List Path} {requested requested' : List String}

/-! ### Borrows that can count -/

namespace Struct

/-- `s.CanBorrow paths field`: the field has a rule, it is an ownership field, and no
presented path begins there. -/
def CanBorrow (s : Struct) (paths : List Path) (field : String) : Prop :=
  (s.permissions.borrow.find? field).isSome ∧ field ∈ s.ownershipFields ∧
    ∀ path ∈ paths, path.head? ≠ some field

/-- `Borrows` holds only of fields with a rule that satisfy `CanBorrow`. -/
theorem canBorrow_of_borrows {field : String} {rule : BorrowRule}
    (hrule : s.permissions.borrow.find? field = some rule)
    (h : s.Borrows paths requested field) : s.CanBorrow paths field := by
  obtain ⟨hfield, -, hfree⟩ := h
  refine ⟨Option.isSome_iff_exists.mpr ⟨rule, hrule⟩, hfield, fun path hpath hhead => ?_⟩
  exact hfree path ⟨hpath, field, hfield, hhead⟩ hhead

/-- `Borrows` depends on which fields that satisfy `CanBorrow` are requested. -/
theorem borrows_congr {field : String} {rule : BorrowRule}
    (hrule : s.permissions.borrow.find? field = some rule)
    (h : ∀ field, s.CanBorrow paths field → (field ∈ requested ↔ field ∈ requested')) :
    s.Borrows paths requested field ↔ s.Borrows paths requested' field := by
  constructor
  · intro hborrows
    have hcan := canBorrow_of_borrows hrule hborrows
    exact ⟨hborrows.1, (h field hcan).mp hborrows.2.1, hborrows.2.2⟩
  · intro hborrows
    have hcan := canBorrow_of_borrows hrule hborrows
    exact ⟨hborrows.1, (h field hcan).mpr hborrows.2.1, hborrows.2.2⟩

/-- `countedBorrows` depends on which fields that satisfy `CanBorrow` are requested. -/
theorem countedBorrows_congr
    (h : ∀ field, s.CanBorrow paths field → (field ∈ requested ↔ field ∈ requested')) :
    s.countedBorrows paths requested = s.countedBorrows paths requested' := by
  -- Both lists filter the same rules, so it is enough to compare rule by rule.
  refine List.filter_congr fun e he => Bool.eq_iff_iff.mpr ?_
  have hrule := (s.permissions.borrow.mem_entries_iff e.1 e.2).mp he
  have hmem (requested : List String) :
      e ∈ s.countedBorrows paths requested ↔ s.Borrows paths requested e.1 := by
    rw [mem_countedBorrows]
    simp [hrule]
  have hboth := (hmem requested).trans ((borrows_congr hrule h).trans (hmem requested').symm)
  simpa [countedBorrows, he] using hboth

end Struct

/-! ### Rights with and without borrows -/

namespace Registry

/-- `permissions` depends on which fields that satisfy `CanBorrow` are requested. -/
theorem permissions_congr_requested
    (h : ∀ field, s.CanBorrow paths field → (field ∈ requested ↔ field ∈ requested')) :
    r.permissions s paths requested = r.permissions s paths requested' := by
  simp only [permissions, Struct.countedBorrows_congr h]

/-- `unlockBorrowed` has a result for what a struct that `KeepsRules` delegates. -/
theorem unlockBorrowed_of_delegates (hrules : s.KeepsRules r) {path : Path}
    (h : s.Delegates paths requested path) : ∃ u, r.unlockBorrowed s path = .ok u := by
  obtain ⟨field, rule, hrule, -, hpath⟩ := h
  have hborrow := Struct.borrowFault?_eq_none_iff.mp (hrules.borrows field rule hrule)
  exact hborrow.2.2.2 path hpath

/-- `countedBorrows` are none without requests. -/
theorem countedBorrows_nil : s.countedBorrows paths [] = [] := by
  simp [Struct.countedBorrows]

/-- `permissions` with requests exist in a struct that `KeepsRules` where they exist
without; they keep the rights there are and add nothing to write. -/
theorem exists_permissions_of_keepsRules (hrules : s.KeepsRules r) {rights : Rights}
    (h : r.permissions s paths [] = .ok rights) (requested : List String) :
    ∃ rights', r.permissions s paths requested = .ok rights' ∧ rights'.write = rights.write ∧
      ∀ p ∈ rights.read.toList, p ∈ rights'.read.toList := by
  obtain ⟨hpaths, owned, none, howned, hnone, rfl⟩ := permissions_eq_ok_iff.mp h
  -- Validation tried each delegated path, so none of them fails here.
  obtain ⟨borrowed, hborrowed⟩ :
      ∃ borrowed, ((s.countedBorrows paths requested).flatMap (·.2.ownership)).mapM
        (r.unlockBorrowed s) = .ok borrowed := by
    refine mapM_succeeds fun path hpath => ?_
    exact unlockBorrowed_of_delegates hrules (Struct.mem_delegated.mp hpath)
  obtain rfl : none = [] := by
    rw [countedBorrows_nil] at hnone
    simpa using hnone.symm
  refine ⟨_, permissions_eq_ok_iff.mpr ⟨hpaths, owned, borrowed, howned, hborrowed, rfl⟩, ?_, ?_⟩
  · rfl
  · intro p hp
    simp only [Unlocked.rights, PathSet.mem_toList_ofList, Unlocked.mem_read_append] at hp ⊢
    exact .inl (hp.resolve_right (by simp [Unlocked.join, Unlocked.readOnly]))

/-- `permissions` without paths and requests are rights to nothing. -/
theorem permissions_nil : r.permissions s [] [] = .ok ⟨.ofList [], .ofList []⟩ := by
  refine permissions_eq_ok_iff.mpr ⟨rfl, [], [], rfl, ?_, rfl⟩
  rw [countedBorrows_nil]
  rfl

/-- `markAll` marks nothing as writeable for whoever presents no path. -/
theorem not_writeable_of_no_paths (hrules : s.KeepsRules r) {rights : Rights}
    (h : r.permissions s [] requested = .ok rights) (ancestors : List Ancestor) {a : FieldAccess}
    (ha : a ∈ r.markAll s rights ancestors) : a.writeable = false := by
  obtain ⟨rights', hrights', hwrite, -⟩ :=
    exists_permissions_of_keepsRules hrules permissions_nil requested
  rw [h, Except.ok.injEq] at hrights'
  subst hrights'
  rw [(mem_markAll_iff.mp ha).2, mark, hwrite]
  rfl

/-- In a loaded registry borrows do no harm. Where an actor has `permissions` without
borrows, there are some with any borrows, to write the same and to read at least as
much, and names that do not satisfy `CanBorrow` change nothing. A session that owns
nothing always gets an answer from `sessionAccess`, and may write nothing. -/
theorem borrows_only_read {v : Json} {config : Config} (h : load v config = .ok r) :
    (∀ s ∈ r.structs, ∀ paths rights, r.permissions s paths [] = .ok rights → ∀ requested,
      (∃ rights', r.permissions s paths requested = .ok rights' ∧
        rights'.write = rights.write ∧ ∀ p ∈ rights.read.toList, p ∈ rights'.read.toList) ∧
      ∀ requested',
        (∀ field, s.CanBorrow paths field → (field ∈ requested ↔ field ∈ requested')) →
        r.permissions s paths requested' = r.permissions s paths requested) ∧
    ∀ name s, r.find? name = some s → ∀ resolver ancestors, ∃ access,
      r.sessionAccess name [] resolver ancestors = .ok access ∧
        ∀ a ∈ access, a.writeable = false := by
  have hrules := (load_eq_ok_iff.mp h).2
  refine ⟨fun s hs paths rights hrights requested => ⟨?_, ?_⟩, ?_⟩
  · exact exists_permissions_of_keepsRules (hrules s hs) hrights requested
  · intro requested' hsame
    exact (permissions_congr_requested hsame).symm
  · intro name s hfind resolver ancestors
    have hkeeps := hrules s (mem_structs_of_find? hfind)
    obtain ⟨rights, hrights, -⟩ :=
      exists_permissions_of_keepsRules hkeeps permissions_nil (r.provedBorrows s resolver)
    refine ⟨r.markAll s rights ancestors, ?_, ?_⟩
    · exact sessionAccess_eq_ok_iff.mpr ⟨s, hfind, access_eq_ok_iff.mpr ⟨rights, hrights, rfl⟩⟩
    · exact fun a ha => not_writeable_of_no_paths hkeeps hrights ancestors ha

/-- `shopOrder` lends what the owner of its customer may see. Without any path, who
borrows reads the name of the customer, which that owner may write, and writes nothing.
-/
theorem borrows_only_read_shop : ∃ rights,
    shop.permissions shopOrder [] [] = .ok ⟨.ofList [], .ofList []⟩ ∧
      shop.permissions shopOrder [] ["owner"] = .ok rights ∧
      ⟨["customer", "name"]⟩ ∈ rights.read.toList ∧ rights.write = .ofList [] := by
  have hread : ((shop.permissions shopOrder [] ["owner"]).map fun rights =>
      decide (⟨["customer", "name"]⟩ ∈ rights.read.toList)).toOption = some true := by
    decide +kernel
  have hborrows := (borrows_only_read load_shopBundle).1 shopOrder
    (mem_structs_of_find? find?_order_shop) [] _ permissions_nil ["owner"]
  obtain ⟨rights, hrights, hwrite, -⟩ := hborrows.1
  rw [hrights] at hread
  have hmem : ⟨["customer", "name"]⟩ ∈ rights.read.toList := by
    simpa [Except.map, Except.toOption] using hread
  exact ⟨rights, permissions_nil, hrights, hmem, hwrite⟩

end Registry

end EntityRules
