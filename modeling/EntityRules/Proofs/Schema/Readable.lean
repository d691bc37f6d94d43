import EntityRules.Proofs.Expr.RoundTrip
import EntityRules.Schema.Loading

/-!
# `EntityRules.Proofs.Schema.Readable`: structs that can be told from their declarations

A declaration shows a struct in full only if the struct is one that could have
been read: its paths and expressions are readable, a default has the kind of its
field (a reference has none), and effects and checks come in name order, each
name once. Every part has its own condition, and everything that is read meets
it:

* `Struct.readable_of_ofDecl`: a struct that was understood is readable.
* `Registry.readable_of_ofBundle`: so are all structs of a bundle.
-/

set_option autoImplicit false

namespace EntityRules

open Proofs

/-! ### Conditions -/

/-- `d.Readable`: the default of the field has the kind that the field declares. -/
def Field.Readable (d : Field) : Prop :=
  ∀ leaf, d.default = some leaf → d.type = .primitive leaf.kind

/-- `rule.Readable`: the predicate and the paths of the borrow rule are readable. -/
structure BorrowRule.Readable (rule : BorrowRule) : Prop where
  prove : rule.prove.Readable
  paths : ∀ p ∈ rule.ownership, p.Readable

/-- `grant.Readable`: the paths of the grant are readable. -/
structure Grant.Readable (grant : Grant) : Prop where
  read : ∀ p ∈ grant.read, p.Readable
  write : ∀ p ∈ grant.write, p.Readable

/-- `p.Readable`: the rules of the permissions are readable. -/
structure Permissions.Readable (p : Permissions) : Prop where
  ownership : ∀ rule ∈ p.ownership, rule.guard.Readable
  borrow : ∀ e ∈ p.borrow.entries, e.2.Readable
  grants : ∀ e ∈ p.grants.entries, e.2.Readable
  publicPaths : ∀ q ∈ p.publicPaths, q.Readable

/-- `statement.Readable`: the target and the expression of the statement are readable.
-/
structure Statement.Readable (statement : Statement) : Prop where
  target : statement.target.Readable
  expr : statement.expr.Readable

/-- `effect.Readable`: the dependencies and the statements of the effect are readable.
-/
structure Effect.Readable (effect : Effect) : Prop where
  dependencies : ∀ p ∈ effect.dependencies, p.Readable
  statements : ∀ statement ∈ effect.statements, statement.Readable

/-- `s.Readable`: the parts of the struct are readable, and its effects and checks are
in name order. -/
structure Struct.Readable (s : Struct) : Prop where
  fields : ∀ e ∈ s.fields.entries, e.2.Readable
  permissions : s.permissions.Readable
  effects : ∀ effect ∈ s.effects, effect.Readable
  checks : ∀ check ∈ s.checks, check.expr.Readable
  effectNames : s.effects.Pairwise fun a b => a.name < b.name
  checkNames : s.checks.Pairwise fun a b => a.name < b.name

/-! ### Tables -/

/-- `readTable` gives entries with any property that `readEntry` gives. -/
theorem forall_mem_of_readTable {α : Type} {P : String → α → Prop} {table : String} {v : Json}
    {readEntry : String → Json → Except ReadError α} {entries : List (String × α)}
    (h : readTable table v readEntry = .ok entries)
    (hP : ∀ name v a, readEntry name v = .ok a → P name a) : ∀ e ∈ entries, P e.1 e.2 := by
  rw [readTable] at h
  split at h
  · cases h
  · refine forall_mem_of_mapM_eq_ok h fun m e he => ?_
    obtain ⟨a, ha, hpair⟩ := except_bind_eq_ok.mp he
    cases hpair
    exact hP m.1 m.2 a ha

/-- `readPermissions` gives entries with any property that `readEntry` gives. -/
theorem forall_mem_of_readPermissions {α : Type} {P : α → Prop} {d : StructDecl} {table : String}
    {readEntry : String → Json → Except ReadError α} {t : Table String α}
    (h : readPermissions d table readEntry = .ok t)
    (hP : ∀ name v a, readEntry name v = .ok a → P a) : ∀ e ∈ t.entries, P e.2 := by
  rw [readPermissions] at h
  split at h
  · cases h
    exact fun _ he => absurd he List.not_mem_nil
  · obtain ⟨entries, hentries, rfl⟩ := except_map_eq_ok.mp h
    have hall := forall_mem_of_readTable (P := fun _ a => P a) hentries hP
    exact fun e he => hall e (Table.mem_of_mem_ofList he)

/-- `readRules` gives the values of a table, whose entries have any property that
`readEntry` gives. -/
theorem exists_table_of_readRules {α : Type} {P : String → α → Prop} {table : String}
    {v : Option Json} {readEntry : String → Json → Except ReadError α} {rules : List α}
    (h : readRules table v readEntry = .ok rules)
    (hP : ∀ name v a, readEntry name v = .ok a → P name a) :
    ∃ t : Table String α, t.values = rules ∧ ∀ e ∈ t.entries, P e.1 e.2 := by
  rw [readRules.eq_def] at h
  split at h
  · cases h
    exact ⟨.empty, rfl, fun _ he => absurd he List.not_mem_nil⟩
  · obtain ⟨entries, hentries, rfl⟩ := except_map_eq_ok.mp h
    have hall := forall_mem_of_readTable hentries hP
    exact ⟨.ofList entries, rfl, fun e he => hall e (Table.mem_of_mem_ofList he)⟩

/-- `readPaths` reads `Readable` paths only, also where a list is left out. -/
theorem readable_of_readPaths {list : String} {v : Option Json} {paths : List Path}
    (h : readPaths list v = .ok paths) : ∀ p ∈ paths, p.Readable := by
  rw [readPaths.eq_def] at h
  split at h
  · cases h
    exact fun _ hp => absurd hp List.not_mem_nil
  · exact Path.readable_of_parseList h

/-! ### Parts of a struct -/

/-- `ofDecl` reads a `Readable` field. -/
theorem Field.readable_of_ofDecl {name : String} {decl : FieldDecl} {d : Field}
    (h : ofDecl name decl = .ok d) : d.Readable := by
  obtain ⟨type, -, h⟩ := except_bind_eq_ok.mp h
  obtain ⟨value, hvalue, h⟩ := except_bind_eq_ok.mp h
  cases h
  intro leaf hleaf
  rw [readDefault.eq_def] at hvalue
  split at hvalue
  · cases hvalue
    cases hleaf
  · split at hvalue
    · obtain ⟨leaf', hleaf', rfl⟩ := except_map_eq_ok.mp hvalue
      cases hleaf
      exact congrArg FieldType.primitive (Leaf.kind_of_ofJson hleaf').symm
    · cases hvalue

/-- `listOfJson` reads ownership rules whose guards are `Readable`; a guard that is left
out is a literal. -/
theorem OwnershipRule.readable_of_listOfJson {v : Option Json} {rules : List OwnershipRule}
    (h : listOfJson v = .ok rules) : ∀ rule ∈ rules, rule.guard.Readable := by
  rw [listOfJson.eq_def] at h
  split at h
  · cases h
    exact fun _ hrule => absurd hrule List.not_mem_nil
  · split at h
    · cases h
    · refine forall_mem_of_mapM_eq_ok h fun v rule hrule => ?_
      rw [ofJson] at hrule
      split at hrule
      · cases hrule
      · split at hrule
        · cases hrule
          -- A guard that is left out is the literal `true`, which mentions no path.
          exact Expr.readable_literal _
        · next guard _ =>
            obtain ⟨e, he, hrule⟩ := except_bind_eq_ok.mp hrule
            cases hrule
            exact Expr.readable_of_ofJson guard he

/-- `ofJson` reads a `Readable` borrow rule. -/
theorem BorrowRule.readable_of_ofJson {field : String} {v : Json} {rule : BorrowRule}
    (h : ofJson field v = .ok rule) : rule.Readable := by
  rw [ofJson] at h
  split at h
  · cases h
  · next prove _ =>
      obtain ⟨e, he, h⟩ := except_bind_eq_ok.mp h
      split at h
      · cases h
      · obtain ⟨paths, hpaths, h⟩ := except_bind_eq_ok.mp h
        cases h
        exact ⟨Expr.readable_of_ofJson prove he, Path.readable_of_parseList hpaths⟩

/-- `ofJson` reads a `Readable` grant. -/
theorem Grant.readable_of_ofJson {field : String} {v : Json} {grant : Grant}
    (h : ofJson field v = .ok grant) : grant.Readable := by
  obtain ⟨read, hread, h⟩ := except_bind_eq_ok.mp h
  obtain ⟨write, hwrite, h⟩ := except_bind_eq_ok.mp h
  cases h
  exact ⟨readable_of_readPaths hread, readable_of_readPaths hwrite⟩

/-- `ofDecl` reads `Readable` permissions. -/
theorem Permissions.readable_of_ofDecl {d : StructDecl} {p : Permissions}
    (h : ofDecl d = .ok p) : p.Readable := by
  obtain ⟨ownership, hownership, h⟩ := except_bind_eq_ok.mp h
  obtain ⟨borrow, hborrow, h⟩ := except_bind_eq_ok.mp h
  obtain ⟨grants, hgrants, h⟩ := except_bind_eq_ok.mp h
  obtain ⟨publicPaths, hpublic, h⟩ := except_bind_eq_ok.mp h
  cases h
  exact {
    ownership := OwnershipRule.readable_of_listOfJson hownership
    borrow := forall_mem_of_readPermissions hborrow fun _ _ _ => BorrowRule.readable_of_ofJson
    grants := forall_mem_of_readPermissions hgrants fun _ _ _ => Grant.readable_of_ofJson
    publicPaths := readable_of_readPaths hpublic }

/-- `ofJson` reads a `Readable` statement. -/
theorem Statement.readable_of_ofJson {effect : String} {v : Json} {statement : Statement}
    (h : ofJson effect v = .ok statement) : statement.Readable := by
  rw [ofJson] at h
  split at h
  · cases h
  · split at h
    · cases h
    · next expr _ =>
        obtain ⟨target, htarget, h⟩ := except_bind_eq_ok.mp h
        obtain ⟨e, he, h⟩ := except_bind_eq_ok.mp h
        cases h
        exact ⟨Path.readable_of_parse htarget, Expr.readable_of_ofJson expr he⟩

/-- `ofJson` reads a `Readable` effect, with the name of its entry. -/
theorem Effect.readable_of_ofJson {name : String} {v : Json} {effect : Effect}
    (h : ofJson name v = .ok effect) : effect.Readable ∧ effect.name = name := by
  rw [ofJson] at h
  obtain ⟨dependencies, hdependencies, h⟩ := except_bind_eq_ok.mp h
  split at h
  · cases h
  · obtain ⟨statements, hstatements, h⟩ := except_bind_eq_ok.mp h
    cases h
    refine ⟨⟨readable_of_readPaths hdependencies, ?_⟩, rfl⟩
    exact forall_mem_of_mapM_eq_ok hstatements fun _ _ => Statement.readable_of_ofJson

/-- `ofJson` reads a check whose expression is `Readable`, with the name of its entry.
-/
theorem Check.readable_of_ofJson {name : String} {v : Json} {check : Check}
    (h : ofJson name v = .ok check) : check.expr.Readable ∧ check.name = name := by
  rw [ofJson] at h
  split at h
  · cases h
  · next expr _ =>
      obtain ⟨e, he, h⟩ := except_bind_eq_ok.mp h
      cases h
      exact ⟨Expr.readable_of_ofJson expr he, rfl⟩

/-! ### Structs -/

/-- `ofDecl` makes a `Readable` struct. -/
theorem Struct.readable_of_ofDecl {d : StructDecl} {s : Struct} (h : ofDecl d = .ok s) :
    s.Readable := by
  obtain ⟨fields, hfields, h⟩ := except_bind_eq_ok.mp h
  obtain ⟨permissions, hpermissions, h⟩ := except_bind_eq_ok.mp h
  obtain ⟨effects, heffects, h⟩ := except_bind_eq_ok.mp h
  obtain ⟨checks, hchecks, h⟩ := except_bind_eq_ok.mp h
  cases h
  have hfield : ∀ e ∈ fields, e.2.Readable := by
    refine forall_mem_of_mapM_eq_ok hfields fun decl e he => ?_
    obtain ⟨d, hd, hpair⟩ := except_bind_eq_ok.mp he
    cases hpair
    exact Field.readable_of_ofDecl hd
  -- The rules are the values of tables whose keys are their names.
  obtain ⟨effectTable, rfl, heffect⟩ :=
    exists_table_of_readRules heffects fun _ _ _ => Effect.readable_of_ofJson
  obtain ⟨checkTable, rfl, hcheck⟩ :=
    exists_table_of_readRules hchecks fun _ _ _ => Check.readable_of_ofJson
  exact {
    fields := fun e he => hfield e (Table.mem_of_mem_ofList he)
    permissions := Permissions.readable_of_ofDecl hpermissions
    effects := List.forall_mem_map.mpr fun e he => (heffect e he).1
    checks := List.forall_mem_map.mpr fun e he => (hcheck e he).1
    effectNames := Table.pairwise_values fun e he => (heffect e he).2
    checkNames := Table.pairwise_values fun e he => (hcheck e he).2 }

/-- `ofBundle` makes a registry of `Readable` structs, with the settings that it was
given. -/
theorem Registry.readable_of_ofBundle {v : Json} {config : Config} {r : Registry}
    (h : ofBundle v config = .ok r) : r.config = config ∧ ∀ s ∈ r.structs, s.Readable := by
  rw [ofBundle] at h
  split at h
  · cases h
  · obtain ⟨structs, hstructs, h⟩ := except_bind_eq_ok.mp h
    cases h
    refine ⟨rfl, ?_⟩
    rw [Bundle.understand] at hstructs
    split at hstructs
    · cases hstructs
    -- A struct of the table is one of those that were understood.
    · have hall : ∀ s ∈ structs, s.Readable := by
        refine forall_mem_of_mapM_eq_ok hstructs fun d s hs => ?_
        rw [StructDecl.understand] at hs
        split at hs
        · next hd =>
            cases hs
            exact Struct.readable_of_ofDecl hd
        · cases hs
      rw [Registry.structs, Table.values, List.forall_mem_map]
      intro e he
      obtain ⟨s, hs, rfl⟩ := List.mem_map.mp (Table.mem_of_mem_ofList he)
      exact hall s hs

end EntityRules
