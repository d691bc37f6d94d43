import EntityRules.Proofs.Expr.Literals
import EntityRules.Proofs.Schema.Routes
import EntityRules.Proofs.Tables
import EntityRules.Schema.Loading

/-!
# `EntityRules.Proofs.Schema.Leaves`: the leaves of a schema

A schema holds leaves in two places: the defaults of fields and the literals of
expressions. `mapLeaves` replaces each of them and keeps everything else, so
whatever looks at names, types and paths alone answers as before. Validation
looks at leaves too, but only at their kinds.

* `Registry.mapLeaves_eq_self_iff`: a replacement changes nothing exactly when it
  keeps each of the leaves.
* `Registry.walk_mapLeaves`, `Registry.unlock_mapLeaves`: which paths prove
  ownership, and what they unlock, does not depend on leaves.
* `Registry.validate_mapLeaves`: a replacement of leaves by leaves of their kinds
  keeps every fault that validation finds.
-/

set_option autoImplicit false

namespace EntityRules

open Proofs

variable (f : Leaf → Leaf)

/-! ### Replacing leaves -/

/-- `d.mapLeaves f`: the field with its default replaced. -/
def Field.mapLeaves (d : Field) : Field := { d with default := d.default.map f }

/-- `rule.mapLeaves f`: the rule with the literals of its guard replaced. -/
def OwnershipRule.mapLeaves (rule : OwnershipRule) : OwnershipRule :=
  { rule with guard := rule.guard.mapLiterals f }

/-- `rule.mapLeaves f`: the rule with the literals of its predicate replaced. -/
def BorrowRule.mapLeaves (rule : BorrowRule) : BorrowRule :=
  { rule with prove := rule.prove.mapLiterals f }

/-- `p.mapLeaves f`: the permissions with the literals of guards and predicates
replaced. -/
def Permissions.mapLeaves (p : Permissions) : Permissions :=
  { p with
    ownership := p.ownership.map (OwnershipRule.mapLeaves f)
    borrow := p.borrow.map (BorrowRule.mapLeaves f) }

/-- `statement.mapLeaves f`: the statement with the literals of its expression replaced.
-/
def Statement.mapLeaves (statement : Statement) : Statement :=
  { statement with expr := statement.expr.mapLiterals f }

/-- `effect.mapLeaves f`: the effect with the literals of its statements replaced. -/
def Effect.mapLeaves (effect : Effect) : Effect :=
  { effect with statements := effect.statements.map (Statement.mapLeaves f) }

/-- `check.mapLeaves f`: the check with the literals of its condition replaced. -/
def Check.mapLeaves (check : Check) : Check := { check with expr := check.expr.mapLiterals f }

/-- `s.mapLeaves f`: the struct with every leaf replaced. -/
def Struct.mapLeaves (s : Struct) : Struct :=
  { s with
    fields := s.fields.map (Field.mapLeaves f)
    permissions := s.permissions.mapLeaves f
    effects := s.effects.map (Effect.mapLeaves f)
    checks := s.checks.map (Check.mapLeaves f) }

/-- `r.mapLeaves f`: the registry with every leaf replaced. -/
def Registry.mapLeaves (r : Registry) : Registry where
  id := r.id
  config := r.config
  table := r.table.map (Struct.mapLeaves f)
  named e he := by
    obtain ⟨entry, hentry, rfl⟩ := List.mem_map.mp he
    exact r.named entry hentry

/-! ### The leaves themselves -/

/-- `s.exprs`: the guards, the predicates of borrows, and the expressions of statements
and checks. -/
def Struct.exprs (s : Struct) : List Expr :=
  s.permissions.ownership.map (·.guard) ++ s.permissions.borrow.values.map (·.prove) ++
    s.statements.map (·.expr) ++ s.checks.map (·.expr)

/-- `s.leaves`: the defaults of the struct and the literals of its `exprs`. -/
def Struct.leaves (s : Struct) : List Leaf :=
  s.fields.values.filterMap (·.default) ++ s.exprs.flatMap Expr.literals

/-- `r.leaves`: the leaves of all structs. -/
def Registry.leaves (r : Registry) : List Leaf := r.structs.flatMap Struct.leaves

/-- `mapLeaves` keeps a field exactly when it keeps the default. -/
theorem Field.mapLeaves_eq_self_iff {d : Field} :
    d.mapLeaves f = d ↔ ∀ leaf, d.default = some leaf → f leaf = leaf := by
  obtain ⟨type, default⟩ := d
  cases default with
  | none => simp [mapLeaves]
  | some leaf => simp [mapLeaves]

/-- `mapLeaves` keeps permissions exactly when it keeps guards and predicates. -/
theorem Permissions.mapLeaves_eq_self_iff {p : Permissions} :
    p.mapLeaves f = p ↔ (∀ rule ∈ p.ownership, rule.guard.mapLiterals f = rule.guard) ∧
      ∀ rule ∈ p.borrow.values, rule.prove.mapLiterals f = rule.prove := by
  have hownership : ∀ rule : OwnershipRule,
      rule.mapLeaves f = rule ↔ rule.guard.mapLiterals f = rule.guard := by
    rintro ⟨field, guard⟩
    simp [OwnershipRule.mapLeaves]
  have hborrow : ∀ rule : BorrowRule,
      rule.mapLeaves f = rule ↔ rule.prove.mapLiterals f = rule.prove := by
    rintro ⟨name, prove, paths⟩
    simp [BorrowRule.mapLeaves]
  obtain ⟨ownership, borrow, grants, publicPaths⟩ := p
  simp only [mapLeaves, mk.injEq, and_true, Proofs.map_eq_self_iff, Table.map_eq_self_iff,
    hownership, hborrow]

/-- `mapLeaves` keeps an effect exactly when it keeps the expressions of its statements.
-/
theorem Effect.mapLeaves_eq_self_iff {effect : Effect} :
    effect.mapLeaves f = effect ↔
      ∀ statement ∈ effect.statements, statement.expr.mapLiterals f = statement.expr := by
  have hstatement : ∀ statement : Statement,
      statement.mapLeaves f = statement ↔ statement.expr.mapLiterals f = statement.expr := by
    rintro ⟨target, expr⟩
    simp [Statement.mapLeaves]
  obtain ⟨name, dependencies, statements⟩ := effect
  simp only [mapLeaves, mk.injEq, true_and, Proofs.map_eq_self_iff, hstatement]

/-- `mapLeaves` keeps a struct exactly when it keeps each of its `leaves`. -/
theorem Struct.mapLeaves_eq_self_iff {s : Struct} :
    s.mapLeaves f = s ↔ ∀ leaf ∈ s.leaves, f leaf = leaf := by
  have hcheck : ∀ check : Check,
      check.mapLeaves f = check ↔ check.expr.mapLiterals f = check.expr := by
    rintro ⟨name, expr, errorCode⟩
    simp [Check.mapLeaves]
  have hparts : s.mapLeaves f = s ↔ (∀ d ∈ s.fields.values, d.mapLeaves f = d) ∧
      s.permissions.mapLeaves f = s.permissions ∧
      (∀ effect ∈ s.effects, effect.mapLeaves f = effect) ∧
      ∀ check ∈ s.checks, check.mapLeaves f = check := by
    obtain ⟨name, fields, unique, permissions, effects, checks⟩ := s
    simp only [mapLeaves, mk.injEq, true_and, Proofs.map_eq_self_iff, Table.map_eq_self_iff]
  have hexprs : (∀ e ∈ s.exprs, e.mapLiterals f = e) ↔
      s.permissions.mapLeaves f = s.permissions ∧
      (∀ effect ∈ s.effects, effect.mapLeaves f = effect) ∧
      ∀ check ∈ s.checks, check.mapLeaves f = check := by
    simp only [exprs, statements, List.forall_mem_append, List.forall_mem_map,
      List.forall_mem_flatMap, Permissions.mapLeaves_eq_self_iff, Effect.mapLeaves_eq_self_iff,
      hcheck, and_assoc]
  have hdefaults : (∀ leaf ∈ s.fields.values.filterMap (·.default), f leaf = leaf) ↔
      ∀ d ∈ s.fields.values, d.mapLeaves f = d := by
    simp only [List.forall_mem_filterMap, Field.mapLeaves_eq_self_iff]
  rw [hparts, ← hexprs, leaves, List.forall_mem_append, hdefaults, List.forall_mem_flatMap]
  simp only [Expr.mapLiterals_eq_self_iff]

/-- `mapLeaves` keeps a registry exactly when it keeps each of its `leaves`. -/
theorem Registry.mapLeaves_eq_self_iff {r : Registry} :
    r.mapLeaves f = r ↔ ∀ leaf ∈ r.leaves, f leaf = leaf := by
  have htable : r.mapLeaves f = r ↔ r.table.map (Struct.mapLeaves f) = r.table := by
    cases r
    simp [mapLeaves]
  rw [htable, Table.map_eq_self_iff, leaves, List.forall_mem_flatMap]
  simp only [Struct.mapLeaves_eq_self_iff]
  rfl

/-! ### What does not look at leaves -/

variable {f} (r : Registry) (s : Struct)

@[simp] theorem Field.type_mapLeaves (d : Field) : (d.mapLeaves f).type = d.type := rfl

@[simp] theorem Field.default_mapLeaves (d : Field) :
    (d.mapLeaves f).default = d.default.map f := rfl

@[simp] theorem OwnershipRule.field_mapLeaves (rule : OwnershipRule) :
    (rule.mapLeaves f).field = rule.field := rfl

@[simp] theorem Struct.grants_mapLeaves :
    (s.mapLeaves f).permissions.grants = s.permissions.grants := rfl

@[simp] theorem Field.target?_mapLeaves (d : Field) : (d.mapLeaves f).target? = d.target? := rfl

@[simp] theorem Struct.field?_mapLeaves (name : String) :
    (s.mapLeaves f).field? name = (s.field? name).map (Field.mapLeaves f) :=
  s.fields.find?_map _ name

@[simp] theorem Struct.target?_mapLeaves (name : String) :
    (s.mapLeaves f).target? name = s.target? name := by
  rw [target?, target?, field?_mapLeaves, Option.bind_map]
  rfl

@[simp] theorem Struct.ownershipFields_mapLeaves :
    (s.mapLeaves f).ownershipFields = s.ownershipFields := by
  rw [ownershipFields, ownershipFields, mapLeaves, Permissions.mapLeaves, List.map_map]
  rfl

namespace Registry

@[simp] theorem find?_mapLeaves (name : String) :
    (r.mapLeaves f).find? name = (r.find? name).map (Struct.mapLeaves f) :=
  r.table.find?_map _ name

@[simp] theorem hop?_mapLeaves (hop : String) :
    (r.mapLeaves f).hop? (s.mapLeaves f) hop = (r.hop? s hop).map (Struct.mapLeaves f) := by
  rw [hop?, hop?, Struct.target?_mapLeaves]
  cases s.target? hop with
  | none => rfl
  | some target => exact r.find?_mapLeaves target

/-- `findField?` finds the same field, but for its default. -/
@[simp] theorem findField?_mapLeaves (hops : List String) :
    (r.mapLeaves f).findField? (s.mapLeaves f) hops =
      (r.findField? s hops).map (Field.mapLeaves f) := by
  induction hops generalizing s with
  | nil => rfl
  | cons hop rest ih =>
      cases rest with
      | nil => exact s.field?_mapLeaves hop
      | cons next rest =>
          rw [findField?_cons (by simp), findField?_cons (by simp), hop?_mapLeaves]
          cases r.hop? s hop with
          | none => rfl
          | some t => exact ih t

/-- `walk` does not look at leaves. -/
@[simp] theorem walk_mapLeaves (hops : List String) :
    (r.mapLeaves f).walk (s.mapLeaves f) hops = r.walk s hops := by
  induction hops generalizing s with
  | nil => rfl
  | cons hop rest ih =>
      rw [walk, walk, Struct.field?_mapLeaves]
      cases s.field? hop with
      | none => rfl
      | some d =>
          rw [Option.map_some]
          dsimp only
          rw [Field.target?_mapLeaves]
          cases d.target? with
          | none => rfl
          | some target =>
              dsimp only
              split
              · rfl
              · rw [find?_mapLeaves]
                cases r.find? target with
                | none => rfl
                | some t => exact ih t

@[simp] theorem validatePath_mapLeaves (p : Path) :
    (r.mapLeaves f).validatePath (s.mapLeaves f) p = r.validatePath s p := by
  rw [validatePath, validatePath, checkPath, checkPath, walk_mapLeaves]
  rfl

@[simp] theorem nextStruct_mapLeaves (hop next : String) :
    (r.mapLeaves f).nextStruct (s.mapLeaves f) hop next =
      (r.nextStruct s hop next).map (Struct.mapLeaves f) := by
  rw [nextStruct, nextStruct, Struct.target?_mapLeaves]
  cases s.target? hop with
  | none => rfl
  | some target =>
      dsimp only
      rw [find?_mapLeaves]
      cases r.find? target with
      | none => rfl
      | some t =>
          dsimp only [Option.map_some]
          rw [Struct.field?_mapLeaves, Option.isNone_map]
          split <;> rfl

/-- `unlock` does not look at leaves. -/
@[simp] theorem unlock_mapLeaves (borrowed : Bool) (before : Path) (hops : List String) :
    (r.mapLeaves f).unlock borrowed before (s.mapLeaves f) hops =
      r.unlock borrowed before s hops := by
  induction hops generalizing s before with
  | nil => rfl
  | cons hop rest ih =>
      rw [unlock, unlock, Struct.grants_mapLeaves]
      cases s.permissions.grants.find? hop with
      | none => rfl
      | some grant =>
          cases rest with
          | nil => rfl
          | cons next rest =>
              dsimp only
              rw [nextStruct_mapLeaves]
              cases r.nextStruct s hop next with
              | error reason => rfl
              | ok t =>
                  show ((r.mapLeaves f).unlock _ _ (t.mapLeaves f) _ >>= _) = _
                  rw [ih]
                  rfl

/-- `unlockBorrowed` does not look at leaves. -/
@[simp] theorem unlockBorrowed_mapLeaves (p : Path) :
    (r.mapLeaves f).unlockBorrowed (s.mapLeaves f) p = r.unlockBorrowed s p := by
  rw [unlockBorrowed, unlockBorrowed, validatePath_mapLeaves]
  simp only [unlock_mapLeaves]

/-- `unknownPaths` does not look at leaves. -/
@[simp] theorem unknownPaths_mapLeaves (paths : List Path) :
    (r.mapLeaves f).unknownPaths (s.mapLeaves f) paths = r.unknownPaths s paths := by
  simp only [unknownPaths, findField?_mapLeaves, Option.isNone_map]

/-! ### Faults -/

/-- `fieldFault?` looks at the kind of a default only. -/
theorem fieldFault?_mapLeaves (hf : ∀ leaf, (f leaf).kind = leaf.kind) (name : String) (d : Field) :
    (r.mapLeaves f).fieldFault? name (d.mapLeaves f) = r.fieldFault? name d := by
  rw [fieldFault?, fieldFault?, Field.type_mapLeaves]
  cases d.type with
  | reference target =>
      dsimp only
      rw [find?_mapLeaves, Option.isNone_map]
      rfl
  | primitive kind =>
      rw [Field.default_mapLeaves]
      cases d.default with
      | none => rfl
      | some leaf =>
          dsimp only [Option.map_some]
          rw [hf]

end Registry

namespace Struct

theorem groupFault?_mapLeaves (group : List String) :
    (s.mapLeaves f).groupFault? group = s.groupFault? group := by
  simp only [groupFault?, field?_mapLeaves, Option.isNone_map]

theorem ownershipFault?_mapLeaves (rule : OwnershipRule) :
    (s.mapLeaves f).ownershipFault? (rule.mapLeaves f) = s.ownershipFault? rule := by
  rw [ownershipFault?, ownershipFault?, OwnershipRule.field_mapLeaves, field?_mapLeaves]
  cases s.field? rule.field with
  | none => rfl
  | some d => rfl

theorem grantFault?_mapLeaves (field : String) (grant : Grant) :
    (s.mapLeaves f).grantFault? (r.mapLeaves f) field grant = s.grantFault? r field grant := by
  simp only [grantFault?, ownershipFields_mapLeaves, Registry.unknownPaths_mapLeaves]

theorem borrowFault?_mapLeaves (field : String) (rule : BorrowRule) :
    (s.mapLeaves f).borrowFault? (r.mapLeaves f) field (rule.mapLeaves f) =
      s.borrowFault? r field rule := by
  simp only [borrowFault?, BorrowRule.mapLeaves, delegationFault?, field?_mapLeaves,
    Option.isNone_map, Registry.unlockBorrowed_mapLeaves]

/-- `kindFaults` looks at the kinds of leaves only. -/
theorem kindFaults_mapLeaves (hf : ∀ leaf, (f leaf).kind = leaf.kind) :
    (s.mapLeaves f).kindFaults = s.kindFaults := by
  have hkind : ∀ e : Expr, wrongKind? (e.mapLiterals f) = wrongKind? e := fun e => by
    rw [wrongKind?, wrongKind?, Expr.resultKind?_mapLiterals hf]
  simp only [kindFaults, mapLeaves, Permissions.mapLeaves, List.filterMap_map, Function.comp_def,
    OwnershipRule.mapLeaves, Check.mapLeaves, hkind]

/-- `faults` looks at the kinds of leaves only. -/
theorem faults_mapLeaves (hf : ∀ leaf, (f leaf).kind = leaf.kind) :
    (s.mapLeaves f).faults (r.mapLeaves f) = s.faults r := by
  have htargets : (s.effects.map (Effect.mapLeaves f)).flatMap (fun effect =>
        effect.statements.filterMap fun statement => targetFault? effect.name statement.target) =
      s.effects.flatMap fun effect =>
        effect.statements.filterMap fun statement => targetFault? effect.name statement.target := by
    simp only [List.flatMap_map, Effect.mapLeaves, List.filterMap_map]
    rfl
  have hfields : (s.fields.map (Field.mapLeaves f)).entries.filterMap
        (fun e => (r.mapLeaves f).fieldFault? e.1 e.2) =
      s.fields.entries.filterMap fun e => r.fieldFault? e.1 e.2 := by
    simp only [Table.map, List.filterMap_map, Function.comp_def, r.fieldFault?_mapLeaves hf]
  have hborrow : (s.permissions.borrow.map (BorrowRule.mapLeaves f)).entries.filterMap
        (fun e => (s.mapLeaves f).borrowFault? (r.mapLeaves f) e.1 e.2) =
      s.permissions.borrow.entries.filterMap fun e => s.borrowFault? r e.1 e.2 := by
    simp only [Table.map, List.filterMap_map, Function.comp_def, borrowFault?_mapLeaves]
  have hownership : (s.permissions.ownership.map (OwnershipRule.mapLeaves f)).filterMap
        (s.mapLeaves f).ownershipFault? = s.permissions.ownership.filterMap s.ownershipFault? := by
    simp only [List.filterMap_map, Function.comp_def, ownershipFault?_mapLeaves]
  have hgroups : (s.mapLeaves f).groupFault? = s.groupFault? := funext s.groupFault?_mapLeaves
  -- Faults are listed kind by kind, and no kind of fault changes.
  rw [faults, faults, kindFaults_mapLeaves s hf, hgroups, Registry.unknownPaths_mapLeaves]
  simp only [grantFault?_mapLeaves]
  show (s.fields.map _).entries.filterMap _ ++ s.unique.filterMap _ ++
    (s.permissions.ownership.map _).filterMap _ ++ s.permissions.grants.entries.filterMap _ ++
    (r.unknownPaths s s.permissions.publicPaths).map _ ++
    (s.permissions.borrow.map _).entries.filterMap _ ++ (s.effects.map _).flatMap _ ++ _ = _
  rw [hfields, hownership, hborrow, htargets]
  rfl

end Struct

/-- `validate` looks at the kinds of leaves only. -/
theorem Registry.validate_mapLeaves (hf : ∀ leaf, (f leaf).kind = leaf.kind) :
    (r.mapLeaves f).validate = r.validate := by
  have hfault : (r.mapLeaves f).fault? = r.fault? := by
    rw [fault?, fault?, structs, structs, mapLeaves, Table.values_map, List.findSome?_map]
    refine congrArg (fun g => r.table.values.findSome? g) (funext fun s => ?_)
    show (((s.mapLeaves f).faults (r.mapLeaves f)).head?.map _) = _
    rw [Struct.faults_mapLeaves r s hf]
    rfl
  rw [validate, validate, hfault]

end EntityRules
