import EntityRules.Checks
import EntityRules.Proofs.Effects.Gating
import EntityRules.Proofs.Ownership.Derived

/-!
# `EntityRules.Proofs.Access.Marks`: the marks of a field tell what runs do to it

A field is marked as derived, as read by an effect or as read by a check when the
declaration of its struct says so, before anything runs. What is marked is a path
without its snapshot root: a field of either state has the marks of the field.

* `Registry.isDerived_of_mem_mutations`, `Struct.readByEffect_of_mem_mutations`: a
  run of the effects writes marked paths and reads marked paths, on every event,
  whatever the values are and whether effects fail or not.
* `Struct.readByCheck_of_mem_checkResults`: a check reads marked paths.
* `Registry.marks_cover_runs`: both, and the marks of a field under a root are
  those of the field.

The converse fails by design: a statement may run on another event, and a match
reads one of its values only.
-/

set_option autoImplicit false

namespace EntityRules

/-! ### Snapshot roots -/

/-- `relative` takes off the root that `rooted` puts in front. -/
theorem Path.relative_rooted (p : Path) (root : Snapshot) : (p.rooted root).relative = p := by
  cases root with
  | prev => rfl
  | curr => rfl
  | borrow => rfl

/-- A path without a root has the same `relative` path under one. -/
theorem Path.relative_rooted_eq {p : Path} (h : p.snapshot? = none) (root : Snapshot) :
    (p.rooted root).relative = p.relative := by
  rw [relative_rooted, relative_of_snapshot?_eq_none h]

section Relative

variable {p q : Path} (h : q.relative = p.relative)
include h

/-- `reads` looks at the `relative` path only. -/
theorem Expr.reads_congr (e : Expr) : e.reads q = e.reads p := by
  rw [reads, reads, h]

/-- `readByCheck` looks at the `relative` path only. -/
theorem Struct.readByCheck_congr (s : Struct) : s.readByCheck q = s.readByCheck p := by
  simp only [readByCheck, Expr.reads_congr h]

/-- `readByEffect` looks at the `relative` path only. -/
theorem Struct.readByEffect_congr (s : Struct) : s.readByEffect q = s.readByEffect p := by
  simp only [readByEffect, Expr.reads_congr h]

/-- `isDerived` looks at the `relative` path only. -/
theorem Registry.isDerived_congr (r : Registry) (s : Struct) (ancestors : List Ancestor) :
    r.isDerived s ancestors q = r.isDerived s ancestors p := by
  rw [isDerived, isDerived, h]

end Relative

/-! ### What runs -/

/-- `reads` holds of every path that `referencedPaths` lists. -/
theorem Expr.reads_of_mem {e : Expr} {p : Path} (h : p ∈ e.referencedPaths) :
    e.reads p = true :=
  List.any_eq_true.mpr ⟨p, h, beq_self_eq_true p.relative⟩

section Runs

variable {r : Registry} {s : Struct} {event : Event} {resolver : Resolver}
  {changed : Option PathSet} {m : Mutation} {p : Path}

/-- `isDerived` marks the target of every mutation, whichever ancestors are listed. -/
theorem Registry.isDerived_of_mem_mutations
    (h : m ∈ (r.effectsReport s event resolver changed).mutations) (ancestors : List Ancestor) :
    r.isDerived s ancestors m.target = true := by
  obtain ⟨statement, hstatement, -, htarget, -⟩ := exists_statement_of_mem_mutations h
  have htargets : s.Targets m.target.relative := ⟨statement, hstatement, by rw [htarget]⟩
  rw [isDerived, Struct.writes_iff.mpr htargets, Bool.true_or]

/-- `readByEffect` marks every path that a mutation has read. -/
theorem Struct.readByEffect_of_mem_mutations
    (h : m ∈ (r.effectsReport s event resolver changed).mutations) (hp : p ∈ m.reads) :
    s.readByEffect p = true := by
  obtain ⟨statement, hstatement, -, -, hgives⟩ := Registry.exists_statement_of_mem_mutations h
  have hreads : statement.expr.reads p = true := Expr.reads_of_mem (hgives.mem_referencedPaths hp)
  exact List.any_eq_true.mpr ⟨statement, hstatement, hreads⟩

/-- `readByCheck` marks every path that a check has read. -/
theorem Struct.readByCheck_of_mem_checkResults {result : CheckResult}
    (h : result ∈ (r.checkResults s resolver).values) (hp : p ∈ result.reads) :
    s.readByCheck p = true := by
  obtain ⟨check, hcheck, rfl⟩ := Registry.exists_check_of_mem_values h
  have hreads : check.expr.reads p = true :=
    Expr.reads_of_mem (Resolver.mem_referencedPaths_of_mem_recorded hp)
  exact List.any_eq_true.mpr ⟨check, hcheck, hreads⟩

end Runs

namespace Registry

/-- The marks of a struct cover what its runs do. Whatever the effects write on any
event, for any values and any changed paths, has the mark `isDerived`, also where some
effects fail; whatever they read for it has `readByEffect`; and what the checks read,
passed or not, has `readByCheck`. A path without a snapshot root keeps its marks when it
is `rooted`. -/
theorem marks_cover_runs (r : Registry) (s : Struct) :
    (∀ event resolver changed, ∀ m ∈ (r.effectsReport s event resolver changed).mutations,
      r.isDerived s [] m.target = true ∧ ∀ p ∈ m.reads, s.readByEffect p = true) ∧
    (∀ resolver, ∀ result ∈ (r.checkResults s resolver).values,
      ∀ p ∈ result.reads, s.readByCheck p = true) ∧
    ∀ (p : Path) (root : Snapshot), p.snapshot? = none →
      (∀ ancestors, r.isDerived s ancestors (p.rooted root) = r.isDerived s ancestors p) ∧
      s.readByEffect (p.rooted root) = s.readByEffect p ∧
      s.readByCheck (p.rooted root) = s.readByCheck p := by
  refine ⟨?_, ?_, ?_⟩
  · intro event resolver changed m hm
    exact ⟨isDerived_of_mem_mutations hm [], fun p hp => Struct.readByEffect_of_mem_mutations hm hp⟩
  · intro resolver result hresult p hp
    exact Struct.readByCheck_of_mem_checkResults hresult hp
  · intro p root hp
    have hrelative : (p.rooted root).relative = p.relative := Path.relative_rooted_eq hp root
    exact ⟨isDerived_congr hrelative r s, Struct.readByEffect_congr hrelative s,
      Struct.readByCheck_congr hrelative s⟩

/-- An update of an account writes how far the balance moved and reads both
balances for it, and the check reads the balance after. So the fields have these
marks; the name, which nothing reads, has none. -/
theorem marks_cover_runs_account :
    let moved : Path := ⟨["moved"]⟩
    let balance : Path := ⟨["balance"]⟩
    let name : Path := ⟨["name"]⟩
    (∃ m ∈ (bank.effectsReport account .update accountBalances none).mutations,
      m.target = moved.rooted .curr ∧
        m.reads = [balance.rooted .curr, balance.rooted .prev]) ∧
    (∃ result ∈ (bank.checkResults account accountBalances).values,
      result.reads = [balance.rooted .curr]) ∧
    bank.isDerived account [] moved = true ∧ account.readByEffect balance = true ∧
    account.readByCheck balance = true ∧ bank.isDerived account [] name = false ∧
    account.readByEffect name = false ∧ account.readByCheck name = false := by
  have hmutation : ∃ m ∈ (bank.effectsReport account .update accountBalances none).mutations,
      m.target = Path.rooted .curr ⟨["moved"]⟩ ∧
        m.reads = [Path.rooted .curr ⟨["balance"]⟩, Path.rooted .prev ⟨["balance"]⟩] :=
    ⟨_, List.mem_singleton_self _, rfl, rfl⟩
  have hresult : ∃ result ∈ (bank.checkResults account accountBalances).values,
      result.reads = [Path.rooted .curr ⟨["balance"]⟩] :=
    ⟨_, List.mem_singleton_self _, rfl⟩
  obtain ⟨hruns, hchecks, hrooted⟩ := marks_cover_runs bank account
  -- The marks of the paths under their roots, and then those of the fields.
  refine ⟨hmutation, hresult, ?_, ?_, ?_, rfl, rfl, rfl⟩
  · obtain ⟨m, hm, htarget, -⟩ := hmutation
    have hderived := (hruns _ _ _ m hm).1
    rw [htarget] at hderived
    exact ((hrooted ⟨["moved"]⟩ .curr rfl).1 []).symm.trans hderived
  · obtain ⟨m, hm, -, hreads⟩ := hmutation
    have hread := (hruns _ _ _ m hm).2 (Path.rooted .prev ⟨["balance"]⟩) (by simp [hreads])
    exact (hrooted ⟨["balance"]⟩ .prev rfl).2.1.symm.trans hread
  · obtain ⟨result, hresult, hreads⟩ := hresult
    have hread := hchecks _ result hresult (Path.rooted .curr ⟨["balance"]⟩) (by simp [hreads])
    exact (hrooted ⟨["balance"]⟩ .curr rfl).2.2.symm.trans hread

end Registry

end EntityRules
