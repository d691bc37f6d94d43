import EntityRules.Proofs.Expr.Kinds
import EntityRules.Proofs.Ownership.Rights
import EntityRules.Proofs.Schema.Validity

/-!
# `EntityRules.Proofs.Schema.Rules`: the rules of a schema without the checks

Validation is a list of checks, and three of them walk the schema on their own: a
path to a field, a path to users, and what a delegated path unlocks. The rules
that they check can be said without them. `LeadsTo` says where a path leads, one
hop at a time, and `Struct.WellDeclared` says of each part of a struct what it may
be.

* `findField?_eq_some_iff`: the walk to a field follows the hops.
* `unlockBorrowed_succeeds_iff`: a delegated path unlocks something exactly when it
  is not too long, leads to users and has a grant at every hop.
* `Struct.keepsRules_iff_wellDeclared`: a struct has no fault exactly when it is
  well declared.
* `validate_eq_ok_iff_wellDeclared`: validation accepts a registry exactly when all
  of its structs are.

No registry has to be loaded for that, and structs may refer to each other in
circles: a path is finite, so the induction is on its hops.
-/

set_option autoImplicit false

namespace EntityRules

open Proofs

/-! ### Where paths lead -/

/-- `r.LeadsTo s hops f`: the hops lead from the struct to the field `f`. Every hop but
the last is a reference to a struct of the registry, and the last names a field of the
struct reached. -/
inductive Registry.LeadsTo (r : Registry) : Struct → List String → Field → Prop
  | last {s : Struct} {name : String} {f : Field} (declared : s.field? name = some f) :
      LeadsTo r s [name] f
  | hop {s next : Struct} {name target : String} {via f : Field} {rest : List String}
      (declared : s.field? name = some via) (reference : via.type = .reference target)
      (registered : r.find? target = some next) (leads : LeadsTo r next rest f) :
      LeadsTo r s (name :: rest) f

/-- `target?` is the struct that a reference names as its type. -/
theorem Field.target?_eq_some_iff {f : Field} {target : String} :
    f.target? = some target ↔ f.type = .reference target := by
  unfold target? FieldType.target?
  cases f.type with
  | primitive kind => simp
  | reference target' => simp

namespace Registry

variable {r : Registry} {s : Struct} {hops : List String} {f : Field}

/-- `LeadsTo` holds of no path without a hop. -/
theorem LeadsTo.ne_nil (h : r.LeadsTo s hops f) : hops ≠ [] := by
  cases h with
  | last => exact List.cons_ne_nil _ _
  | hop => exact List.cons_ne_nil _ _

/-- `hop?` leads to the struct of the registry that the field refers to. -/
theorem hop?_eq_some_iff {name : String} {next : Struct} :
    r.hop? s name = some next ↔ ∃ via target, s.field? name = some via ∧
      via.type = .reference target ∧ r.find? target = some next := by
  simp only [hop?, Struct.target?, Option.bind_eq_some_iff, Field.target?_eq_some_iff]
  constructor
  · rintro ⟨target, ⟨via, hvia, htarget⟩, hnext⟩
    exact ⟨via, target, hvia, htarget, hnext⟩
  · rintro ⟨via, target, hvia, htarget, hnext⟩
    exact ⟨target, ⟨via, hvia, htarget⟩, hnext⟩

/-- `findField?` finds the field that the path `LeadsTo`. -/
theorem findField?_eq_some_iff : r.findField? s hops = some f ↔ r.LeadsTo s hops f := by
  constructor
  · intro h
    induction hops generalizing s with
    | nil => cases h
    | cons name rest ih =>
        -- The last hop names the field, any other one leads to the next struct.
        by_cases hrest : rest = []
        · subst hrest
          exact .last h
        · rw [findField?_cons hrest] at h
          obtain ⟨next, hnext, hf⟩ := Option.bind_eq_some_iff.mp h
          obtain ⟨via, target, hvia, htarget, hfind⟩ := hop?_eq_some_iff.mp hnext
          exact .hop hvia htarget hfind (ih hf)
  · intro h
    induction h with
    | last declared => exact declared
    | hop declared reference registered leads ih =>
        have hnext := hop?_eq_some_iff.mpr ⟨_, _, declared, reference, registered⟩
        rw [findField?_cons leads.ne_nil, hnext, Option.bind_some, ih]

/-- `findField?` finds something when the path `LeadsTo` some field. -/
theorem isSome_findField?_iff : (r.findField? s hops).isSome ↔ ∃ f, r.LeadsTo s hops f := by
  simp only [Option.isSome_iff_exists, findField?_eq_some_iff]

end Registry

/-- `snapshot?` is the root whose `segment` is the first of the path. -/
theorem Path.snapshot?_eq_some_iff {p : Path} {root : Snapshot} :
    p.snapshot? = some root ↔ p.head? = some root.segment := by
  have hroot : ∀ segment, Snapshot.ofSegment? segment = some root ↔ segment = root.segment := by
    intro segment
    cases root <;> grind [Snapshot.ofSegment?, Snapshot.segment]
  rw [snapshot?, Option.bind_eq_some_iff]
  simp only [hroot, exists_eq_right]

/-! ### What each part of a struct may be -/

/-- `f.WellDeclared r`: a reference names users or a struct of the registry, and a
default has the kind of its field. -/
structure Field.WellDeclared (r : Registry) (f : Field) : Prop where
  reference : ∀ target, f.type = .reference target →
    target ≠ "" ∧ (target = r.config.userStruct ∨ ∃ t, r.find? target = some t)
  default : ∀ kind value, f.type = .primitive kind → f.default = some value → value.kind = kind

/-- `s.Delegable r p`: the path can be delegated. It is neither empty nor too long, it
leads to a field that refers to users, and every struct that it leaves has a grant for
the field through which it leaves. -/
structure Struct.Delegable (r : Registry) (s : Struct) (p : Path) : Prop where
  nonempty : p.segments ≠ []
  short : p.length ≤ r.config.maxPathDepth
  reachesUser : ∃ f, r.LeadsTo s p.segments f ∧ f.type = .reference r.config.userStruct
  granted : ∀ i t hop, r.Leaves s p.segments i t hop →
    ∃ grant, t.permissions.grants.find? hop = some grant

/-- `s.WellDeclared r`: every part of the struct is what it may be. -/
structure Struct.WellDeclared (r : Registry) (s : Struct) : Prop where
  fields : ∀ name f, s.field? name = some f → f.WellDeclared r
  groups : ∀ group ∈ s.unique, group ≠ [] ∧ ∀ name ∈ group, ∃ f, s.field? name = some f
  ownership : ∀ rule ∈ s.permissions.ownership,
    ∃ f target, s.field? rule.field = some f ∧ f.type = .reference target
  grants : ∀ field grant, s.permissions.grants.find? field = some grant →
    (∃ rule ∈ s.permissions.ownership, rule.field = field) ∧
      ∀ p, p ∈ grant.read ∨ p ∈ grant.write → ∃ f, r.LeadsTo s p.segments f
  publicPaths : ∀ p ∈ s.permissions.publicPaths, ∃ f, r.LeadsTo s p.segments f
  borrows : ∀ field rule, s.permissions.borrow.find? field = some rule →
    (∃ f, s.field? field = some f) ∧ rule.ownership ≠ [] ∧
      ∀ p ∈ rule.ownership, s.Delegable r p
  targets : ∀ effect ∈ s.effects, ∀ statement ∈ effect.statements,
    2 ≤ statement.target.length ∧
      (statement.target.head? = some "_prev" ∨ statement.target.head? = some "_curr")
  kinds : r.config.requireBoolean = true →
    (∀ rule ∈ s.permissions.ownership, ∀ kind, rule.guard.HasKind kind → kind = .boolean) ∧
      ∀ check ∈ s.checks, ∀ kind, check.expr.HasKind kind → kind = .boolean

/-! ### The checks -/

variable {r : Registry} {s : Struct}

/-- `fieldFault?` passes a field when it is `WellDeclared`. -/
theorem Registry.fieldFault?_eq_none_iff {name : String} {f : Field} :
    r.fieldFault? name f = none ↔ f.WellDeclared r := by
  obtain ⟨type, default⟩ := f
  cases type with
  -- Of a reference only the target is checked, of any other field only the default.
  | reference target =>
      have hwell : Field.WellDeclared r ⟨.reference target, default⟩ ↔
          target ≠ "" ∧ (target = r.config.userStruct ∨ ∃ t, r.find? target = some t) := by
        constructor
        · exact fun h => h.reference target rfl
        · intro h
          refine ⟨fun target' htarget => ?_, fun kind value hkind => by cases hkind⟩
          cases htarget
          exact h
      rw [hwell, fieldFault?]
      by_cases hempty : target = ""
      · simp [hempty]
      · by_cases huser : target = r.config.userStruct
        · simp [huser]
        · simp [hempty, huser, Option.ne_none_iff_exists']
  | primitive kind =>
      have hwell : Field.WellDeclared r ⟨.primitive kind, default⟩ ↔
          ∀ value, default = some value → value.kind = kind := by
        constructor
        · exact fun h value => h.default kind value rfl
        · intro h
          refine ⟨fun target htarget => (by cases htarget), fun kind' value hkind => ?_⟩
          cases hkind
          exact h value
      rw [hwell, fieldFault?]
      cases default with
      | none => simp
      | some value => simp

namespace Struct

/-- `groupFault?` passes a group when it names fields, at least one. -/
theorem groupFault?_eq_none_iff {group : List String} :
    s.groupFault? group = none ↔ group ≠ [] ∧ ∀ name ∈ group, ∃ f, s.field? name = some f := by
  unfold groupFault?
  cases group with
  | nil => simp
  | cons name rest => simp [List.find?_eq_none, ← Option.ne_none_iff_exists']

/-- `ownershipFault?` passes a rule when its field is a reference. -/
theorem ownershipFault?_eq_none_iff {rule : OwnershipRule} :
    s.ownershipFault? rule = none ↔
      ∃ f target, s.field? rule.field = some f ∧ f.type = .reference target := by
  unfold ownershipFault?
  cases s.field? rule.field with
  | none => simp
  | some f =>
      simp only [← Field.target?_eq_some_iff, Option.some.injEq, exists_and_left, exists_eq_left']
      cases f.target? with
      | none => simp
      | some target => simp

/-- `wrongKind?` passes a guard or check that has no kind by `HasKind` but that of
booleans. -/
theorem wrongKind?_eq_none_iff {e : Expr} :
    wrongKind? e = none ↔ ∀ kind, e.HasKind kind → kind = .boolean := by
  simp only [← Expr.resultKind?_eq_some_iff]
  unfold wrongKind?
  cases e.resultKind? with
  | none => simp
  | some kind => simp

/-- `kindFaults` are none when no guard and no check has a kind by `HasKind` but that of
booleans. -/
theorem kindFaults_eq_nil_iff :
    s.kindFaults = [] ↔
      (∀ rule ∈ s.permissions.ownership, ∀ kind, rule.guard.HasKind kind → kind = .boolean) ∧
        ∀ check ∈ s.checks, ∀ kind, check.expr.HasKind kind → kind = .boolean := by
  simp only [kindFaults, List.append_eq_nil_iff, List.filterMap_eq_nil_iff, Option.map_eq_none_iff,
    wrongKind?_eq_none_iff]

/-- `grantFault?` passes a grant when its field is one of an ownership rule and each of
its paths `LeadsTo` a field. -/
theorem grantFault?_eq_none_iff_leadsTo {field : String} {grant : Grant} :
    s.grantFault? r field grant = none ↔
      (∃ rule ∈ s.permissions.ownership, rule.field = field) ∧
        ∀ p, p ∈ grant.read ∨ p ∈ grant.write → ∃ f, r.LeadsTo s p.segments f := by
  simp only [grantFault?_eq_none_iff, ownershipFields, List.mem_map, Registry.isSome_findField?_iff]

/-- `Rejects` does not hold of a path that is neither empty nor too long and `LeadsTo` a
field that refers to users. -/
theorem not_rejects_iff {p : Path} :
    ¬ r.Rejects s p ↔ p.segments ≠ [] ∧ p.length ≤ r.config.maxPathDepth ∧
      ∃ f, r.LeadsTo s p.segments f ∧ f.type = .reference r.config.userStruct := by
  have hvalid : ¬ r.Rejects s p ↔ r.checkPath s p = .ok () := by
    rw [Registry.Rejects, except_fails_iff, not_not]
    simp only [Registry.validatePath_eq_ok_iff, exists_eq_right]
  rw [hvalid, Registry.checkPath_eq_ok_iff, Registry.walk_eq_ok_iff]
  simp only [Registry.findField?_eq_some_iff, Field.target?_eq_some_iff]

/-- `unlockBorrowed` has a result exactly when the path is `Delegable`. -/
theorem unlockBorrowed_succeeds_iff {p : Path} :
    (∃ u, r.unlockBorrowed s p = .ok u) ↔ s.Delegable r p := by
  have hgranted : ¬ r.LacksGrant s p ↔ ∀ i t hop, r.Leaves s p.segments i t hop →
      ∃ grant, t.permissions.grants.find? hop = some grant := by
    simp only [Registry.LacksGrant, not_exists, not_and, ← Option.ne_none_iff_exists', ne_eq]
  rw [← not_iff_not, ← except_fails_iff, Registry.unlockBorrowed_fails_iff, ← not_iff_not, not_not,
    not_or, not_rejects_iff, hgranted]
  constructor
  · rintro ⟨⟨hnonempty, hshort, hreaches⟩, hgranted⟩
    exact ⟨hnonempty, hshort, hreaches, hgranted⟩
  · rintro ⟨hnonempty, hshort, hreaches, hgranted⟩
    exact ⟨⟨hnonempty, hshort, hreaches⟩, hgranted⟩

/-- `borrowFault?` passes a rule when it belongs to a field and its paths, at least one,
are `Delegable`. -/
theorem borrowFault?_eq_none_iff_delegable {field : String} {rule : BorrowRule} :
    s.borrowFault? r field rule = none ↔
      (∃ f, s.field? field = some f) ∧ rule.ownership ≠ [] ∧
        ∀ p ∈ rule.ownership, s.Delegable r p := by
  simp only [borrowFault?_eq_none_iff, unlockBorrowed_succeeds_iff, Option.isSome_iff_exists]
  constructor
  · rintro ⟨hfield, hne, -, hdelegable⟩
    exact ⟨hfield, hne, hdelegable⟩
  · -- A path that can be delegated is not empty, so the check for that says nothing new.
    rintro ⟨hfield, hne, hdelegable⟩
    exact ⟨hfield, hne, fun p hp => (hdelegable p hp).nonempty, hdelegable⟩

/-- `targetFault?` passes a target when it goes on behind the root of a state. -/
theorem targetFault?_eq_none_iff_head? {effect : String} {target : Path} :
    targetFault? effect target = none ↔
      2 ≤ target.length ∧ (target.head? = some "_prev" ∨ target.head? = some "_curr") := by
  rw [targetFault?_eq_none_iff, and_comm, Path.snapshot?_eq_some_iff, Path.snapshot?_eq_some_iff]
  rfl

/-- A struct `KeepsRules` when it is `WellDeclared`. -/
theorem keepsRules_iff_wellDeclared : s.KeepsRules r ↔ s.WellDeclared r := by
  -- Part by part: each check finds no fault exactly where the part is well declared.
  have hfields := @Registry.fieldFault?_eq_none_iff r
  constructor
  · intro h
    exact {
      fields := fun name f hf => hfields.mp (h.fields name f hf)
      groups := fun group hgroup => groupFault?_eq_none_iff.mp (h.groups group hgroup)
      ownership := fun rule hrule => ownershipFault?_eq_none_iff.mp (h.ownership rule hrule)
      grants := fun field grant hgrant =>
        grantFault?_eq_none_iff_leadsTo.mp (h.grants field grant hgrant)
      publicPaths := fun p hp => Registry.isSome_findField?_iff.mp (h.publicPaths p hp)
      borrows := fun field rule hrule =>
        borrowFault?_eq_none_iff_delegable.mp (h.borrows field rule hrule)
      targets := fun effect heffect statement hstatement =>
        targetFault?_eq_none_iff_head?.mp (h.targets effect heffect statement hstatement)
      kinds := fun hboolean => kindFaults_eq_nil_iff.mp (h.kinds hboolean) }
  · intro h
    exact {
      fields := fun name f hf => hfields.mpr (h.fields name f hf)
      groups := fun group hgroup => groupFault?_eq_none_iff.mpr (h.groups group hgroup)
      ownership := fun rule hrule => ownershipFault?_eq_none_iff.mpr (h.ownership rule hrule)
      grants := fun field grant hgrant =>
        grantFault?_eq_none_iff_leadsTo.mpr (h.grants field grant hgrant)
      publicPaths := fun p hp => Registry.isSome_findField?_iff.mpr (h.publicPaths p hp)
      borrows := fun field rule hrule =>
        borrowFault?_eq_none_iff_delegable.mpr (h.borrows field rule hrule)
      targets := fun effect heffect statement hstatement =>
        targetFault?_eq_none_iff_head?.mpr (h.targets effect heffect statement hstatement)
      kinds := fun hboolean => kindFaults_eq_nil_iff.mpr (h.kinds hboolean) }

end Struct

/-- `validate` accepts exactly the registries whose structs are `WellDeclared`,
whichever way a registry was made and whatever its settings are. -/
theorem Registry.validate_eq_ok_iff_wellDeclared (r : Registry) :
    r.validate = .ok () ↔ ∀ s ∈ r.structs, s.WellDeclared r := by
  simp only [validate_eq_ok_iff, Struct.keepsRules_iff_wellDeclared]

end EntityRules
