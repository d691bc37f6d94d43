import EntityRules.Proofs.FirstFault
import EntityRules.Proofs.Schema.Routes
import EntityRules.Schema.Loading

/-!
# `EntityRules.Proofs.Schema.Validity`: what a loaded registry keeps

A registry is loaded when its bundle is understood and no struct breaks a rule.
`KeepsRules` takes the list of faults apart, one field for each kind of rule.

* `load_eq_ok_iff`: a loaded registry is one that was read and keeps the rules.
* `faults_eq_nil_iff`: a struct has no fault exactly when it keeps the rules.
* `grantFault?_eq_none_iff`, `borrowFault?_eq_none_iff`, `targetFault?_eq_none_iff`:
  what the rules of grants, borrows and targets ask for.
-/

set_option autoImplicit false

namespace EntityRules

open Proofs

/-- `s.KeepsRules r`: the struct keeps the rules in the registry, as no check of a part
finds a fault. -/
structure Struct.KeepsRules (r : Registry) (s : Struct) : Prop where
  fields : ∀ name f, s.field? name = some f → r.fieldFault? name f = none
  groups : ∀ group ∈ s.unique, s.groupFault? group = none
  ownership : ∀ rule ∈ s.permissions.ownership, s.ownershipFault? rule = none
  grants : ∀ field grant, s.permissions.grants.find? field = some grant →
    s.grantFault? r field grant = none
  publicPaths : ∀ p ∈ s.permissions.publicPaths, (r.findField? s p.segments).isSome
  borrows : ∀ field rule, s.permissions.borrow.find? field = some rule →
    s.borrowFault? r field rule = none
  targets : ∀ effect ∈ s.effects, ∀ statement ∈ effect.statements,
    Struct.targetFault? effect.name statement.target = none
  kinds : r.config.requireBoolean = true → s.kindFaults = []

variable {r : Registry} {s : Struct}

/-! ### Rules -/

/-- `unknownPaths` are none when each path of the list leads to a field. -/
theorem Registry.unknownPaths_eq_nil_iff {paths : List Path} :
    r.unknownPaths s paths = [] ↔ ∀ p ∈ paths, (r.findField? s p.segments).isSome := by
  simp only [unknownPaths, List.filter_eq_nil_iff, Option.isNone_iff_eq_none,
    ← Option.isSome_iff_ne_none]

namespace Struct

/-- `faults` are none exactly when the struct `KeepsRules`. -/
theorem faults_eq_nil_iff : s.faults r = [] ↔ s.KeepsRules r := by
  -- Entries of a table and what it answers are the same.
  have htable {β : Type} (t : Table String β) (fault : String → β → Option RuleFault) :
      t.entries.filterMap (fun e => fault e.1 e.2) = [] ↔
        ∀ key value, t.find? key = some value → fault key value = none := by
    simp only [List.filterMap_eq_nil_iff, Prod.forall, Table.mem_entries_iff]
  have hkinds : (if r.config.requireBoolean then s.kindFaults else []) = [] ↔
      (r.config.requireBoolean = true → s.kindFaults = []) := by
    split
    · next h => simp [h]
    · next h => simp [h]
  simp only [faults, List.append_eq_nil_iff, htable, hkinds, List.filterMap_eq_nil_iff,
    List.map_eq_nil_iff, Registry.unknownPaths_eq_nil_iff, List.flatMap_eq_nil_iff]
  constructor
  · rintro ⟨⟨⟨⟨⟨⟨⟨hfields, hgroups⟩, hownership⟩, hgrants⟩, hpublic⟩, hborrows⟩, htargets⟩, hkinds⟩
    exact ⟨hfields, hgroups, hownership, hgrants, hpublic, hborrows, htargets, hkinds⟩
  · rintro ⟨hfields, hgroups, hownership, hgrants, hpublic, hborrows, htargets, hkinds⟩
    exact ⟨⟨⟨⟨⟨⟨⟨hfields, hgroups⟩, hownership⟩, hgrants⟩, hpublic⟩, hborrows⟩, htargets⟩, hkinds⟩

/-- `grantFault?` passes a grant that belongs to an ownership field and whose paths lead
to fields. -/
theorem grantFault?_eq_none_iff {field : String} {grant : Grant} :
    s.grantFault? r field grant = none ↔
      field ∈ s.ownershipFields ∧
        ∀ p, p ∈ grant.read ∨ p ∈ grant.write → (r.findField? s p.segments).isSome := by
  unfold grantFault?
  split
  · next h => simp [h]
  · next h =>
      rw [Option.map_eq_none_iff, List.head?_eq_none_iff, Registry.unknownPaths_eq_nil_iff]
      simp [not_not.mp h]

/-- `borrowFault?` passes a rule that belongs to a field, and whose paths, at least one,
are those of owners with a grant at every hop. -/
theorem borrowFault?_eq_none_iff {field : String} {rule : BorrowRule} :
    s.borrowFault? r field rule = none ↔
      (s.field? field).isSome ∧ rule.ownership ≠ [] ∧ (∀ p ∈ rule.ownership, p.segments ≠ []) ∧
        ∀ p ∈ rule.ownership, ∃ u, r.unlockBorrowed s p = .ok u := by
  have hdelegation : s.delegationFault? r rule.ownership = none ↔
      ∀ p ∈ rule.ownership, ∃ u, r.unlockBorrowed s p = .ok u := by
    rw [delegationFault?, List.findSome?_eq_none_iff]
    refine forall₂_congr fun p _ => ?_
    cases r.unlockBorrowed s p with
    | error fault => simp
    | ok u => simp
  unfold borrowFault?
  split
  -- First the field is looked for, then the number of paths and whether one is empty, then
  -- what they unlock.
  · next h => simp [Option.isNone_iff_eq_none.mp h]
  · next h =>
      have hfield : (s.field? field).isSome := by simpa [Option.isSome_iff_ne_none] using h
      split
      · next hpaths =>
          simp only [reduceCtorEq, hfield, true_and, false_iff, not_and]
          intro hne hnonempty
          simp [hne, Path.isEmpty] at hpaths
          obtain ⟨p, hp, hempty⟩ := hpaths
          exact absurd hempty (hnonempty p hp)
      · next hpaths =>
          rw [Option.map_eq_none_iff, hdelegation]
          simp [Path.isEmpty] at hpaths
          simp only [hfield, true_and]
          exact ⟨fun h => ⟨hpaths.1, hpaths.2, h⟩, fun h => h.2.2⟩

/-- `targetFault?` passes a target that has a field below the state before or after the
change. -/
theorem targetFault?_eq_none_iff {effect : String} {target : Path} :
    targetFault? effect target = none ↔
      (target.snapshot? = some .prev ∨ target.snapshot? = some .curr) ∧ 2 ≤ target.length := by
  unfold targetFault?
  split
  · next h => simp [h]
  · next h => simp [h]

end Struct

/-! ### Loading -/

namespace Registry

/-- `validate` accepts a registry when each of its structs `KeepsRules`. -/
theorem validate_eq_ok_iff : r.validate = .ok () ↔ ∀ s ∈ r.structs, s.KeepsRules r := by
  have hfault : r.fault? = none ↔ ∀ s ∈ r.structs, s.KeepsRules r := by
    simp only [fault?, List.findSome?_eq_none_iff, Option.map_eq_none_iff, List.head?_eq_none_iff,
      Struct.faults_eq_nil_iff]
  unfold validate
  cases h : r.fault? with
  | none => simpa [h] using hfault
  | some fault => simpa [h] using hfault

/-- `load` makes a registry when its bundle is understood and each of its structs
`KeepsRules`. -/
theorem load_eq_ok_iff {v : Json} {config : Config} :
    load v config = .ok r ↔ ofBundle v config = .ok r ∧ ∀ s ∈ r.structs, s.KeepsRules r := by
  unfold load
  cases ofBundle v config with
  | error fault => simp
  | ok r' =>
      simp only [except_bind_eq_ok, except_pure, Except.ok.injEq]
      constructor
      · rintro ⟨⟨⟩, hvalid, rfl⟩
        exact ⟨rfl, validate_eq_ok_iff.mp hvalid⟩
      · rintro ⟨rfl, hrules⟩
        exact ⟨(), validate_eq_ok_iff.mpr hrules, rfl⟩

/-! ### A registry that is loaded

Orders belong to their owner or to the owner of their customer; the borrow rule
for `owner` lends the second way to whoever wants to read. -/

/-- The declarations of customers and orders. -/
def shopBundle : Json := .obj [
  ("constructs", .arr [
    .obj [
      ("fields", .obj [
        ("name", .obj [("type", .str "text")]),
        ("owner", .obj [("struct", .str "User"), ("type", .str "other")])]),
      ("id", .str "Customer"),
      ("kind", .str "Struct"),
      ("permissions", .obj [
        ("ownership", .arr [.obj [("field", .str "owner")]]),
        ("private", .obj [("owner", .obj [("write", .arr [.str "name"])])])])],
    .obj [
      ("fields", .obj [
        ("customer", .obj [("struct", .str "Customer"), ("type", .str "other")]),
        ("owner", .obj [("struct", .str "User"), ("type", .str "other")]),
        ("price", .obj [("default", .str "1.50"), ("type", .str "decimal")])]),
      ("id", .str "Order"),
      ("kind", .str "Struct"),
      ("permissions", .obj [
        ("borrow", .obj [("owner", .obj [
          ("ownership", .arr [.str "customer.owner"]),
          ("prove", .obj [
            ("args", .arr [.bool true]), ("op", .str "literal"), ("type", .str "boolean")])])]),
        ("ownership", .arr [.obj [("field", .str "owner")], .obj [("field", .str "customer")]]),
        ("private", .obj [
          ("customer", .obj []),
          ("owner", .obj [("write", .arr [.str "price"])])]),
        ("public", .arr [.str "price"])])]]),
  ("id", .str "shop")]

/-- The registry of customers and orders. -/
def shop : Registry :=
  match load shopBundle {} with
  | .ok r => r
  | .error _ => .ofStructs "" [] {}

/-- `shopBundle` is loaded, as `shop`. -/
theorem load_shopBundle : load shopBundle {} = .ok shop := by
  have hok : (load shopBundle {}).isOk = true := by decide +kernel
  unfold shop
  cases h : load shopBundle {} with
  | ok r => rfl
  | error e =>
      rw [h] at hok
      cases hok

/-- `shopOrder`: the struct of orders in `shop`. -/
def shopOrder : Struct := (shop.find? "Order").getD (.ofFields "" [])

/-- `find?` finds `shopOrder` in `shop`. -/
theorem find?_order_shop : shop.find? "Order" = some shopOrder := by
  have hsome : (shop.find? "Order").isSome := by decide +kernel
  obtain ⟨s, hs⟩ := Option.isSome_iff_exists.mp hsome
  rw [shopOrder, hs, Option.getD_some]

end Registry

end EntityRules
