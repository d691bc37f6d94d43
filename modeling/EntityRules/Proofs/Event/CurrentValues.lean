import EntityRules.Event.Outcome
import EntityRules.Proofs.Effects.Gating

/-!
# `EntityRules.Proofs.Event.CurrentValues`: one current value of a field for all that reads it

The uniqueness keys of an entity are taken from its current values without an
environment, while checks and effects read these values in trees that are built for
their expressions. Both fall back on the defaults of the schema. The theorems say that
there is one current value of a field, whichever way it is asked for.

* `Resolver.withDefaults_current`: it is what is answered for the field, or else the
  default that the struct declares.
* `Resolver.evaluate_path`: an expression that is a single path gives what is answered
  for the path.
* `Resolver.sees_of_mem_recorded`: an evaluation that has read a current value has met
  the one that the path gives by itself.
* `Registry.uniqueKeys_agree_with_evaluation`: the keys are those of the groups that have
  a current value for every field, and they hold the values that checks and effects see.

A path can only be refused for another one, so a path by itself always has its tree;
this is why a missing value is all that an evaluation of it can fail on.
-/

set_option autoImplicit false

namespace EntityRules

open Proofs

/-- `Path.current field`: the path `_curr.field` of the current value. -/
abbrev Path.current (field : String) : Path := .rooted .curr ⟨[field]⟩

/-- `s.currentValue? resolver field`: what is answered for the current value of the
field, or else its default. -/
def Struct.currentValue? (s : Struct) (resolver : Resolver) (field : String) : Option Leaf :=
  resolver (.current field) <|> (s.field? field).bind (·.default)

/-- `Path.current` has two segments. -/
theorem Path.current_ne_empty (field : String) : Path.current field ≠ .empty := by
  intro h
  exact List.cons_ne_nil _ _ (congrArg Path.segments h)

namespace Resolver

variable {resolver : Resolver} {e : Expr} {p : Path}

/-- `withDefaults` answers `Path.current` with the `currentValue?` of the field. -/
theorem withDefaults_current (resolver : Resolver) (r : Registry) (s : Struct) (field : String) :
    resolver.withDefaults r s (.current field) = s.currentValue? resolver field := rfl

/-! ### One path by itself -/

/-- `environmentFor` makes a tree for a single path, unless it is empty. -/
theorem exists_environmentFor_path (resolver : Resolver) (hp : p ≠ .empty) :
    ∃ env, resolver.environmentFor (.path p) = .ok env := by
  have hbound : ∀ q ∈ resolver.bound [p], q = p := by
    intro q hq
    exact List.mem_singleton.mp (mem_bound.mp hq).1
  by_contra hnone
  have hfails : ∃ fault, resolver.build [p] = .error fault := except_fails_iff.mpr hnone
  obtain hempty | ⟨q, hq, q', hq', habove⟩ := build_fails_iff.mp hfails
  · exact hp (hbound _ hempty).symm
  · -- The path would be strictly above itself.
    exact habove.2 ((hbound q hq).trans (hbound q' hq').symm)

/-- `evaluate` gives what is answered for a path, if the expression is only that. -/
theorem evaluate_path (resolver : Resolver) (hp : p ≠ .empty) :
    resolver.evaluate (.path p) = ⟨[p], resolver.lookup p⟩ := by
  obtain ⟨env, henv⟩ := exists_environmentFor_path resolver hp
  rw [evaluate, henv, ← lookup_build henv (List.mem_singleton_self p)]
  rfl

/-! ### What an evaluation sees -/

/-- `resolver.Sees e p seen`: what the evaluation of `e` meets at `p` is `seen`, the
answer in the environment that is built for `e`. -/
def Sees (resolver : Resolver) (e : Expr) (p : Path) (seen : Except EvalError Leaf) : Prop :=
  ∃ env, resolver.environmentFor e = .ok env ∧ env.lookup p = seen

/-- An evaluation that has read `p` has met what `p` gives by itself. -/
theorem sees_of_mem_recorded (hp : p ≠ .empty) (h : p ∈ (resolver.evaluate e).recorded) :
    resolver.Sees e p (resolver.evaluate (.path p)).result := by
  obtain ⟨env, henv, -⟩ := exists_environmentFor_of_mem_recorded h
  have hmem : p ∈ e.referencedPaths := mem_referencedPaths_of_mem_recorded h
  rw [evaluate_path resolver hp]
  exact ⟨env, henv, lookup_build henv hmem⟩

/-! ### Keys -/

/-- `uniqueKey?` gives a key when there is a value for every field of the group. -/
theorem isSome_uniqueKey? (resolver : Resolver) (group : List String) :
    (resolver.uniqueKey? group).isSome =
      group.all fun field => (resolver (.current field)).isSome := by
  rw [← isSome_mapM, uniqueKey?]
  cases group.mapM fun field => resolver (.current field) <;> rfl

/-- `uniqueKey?` gives the fields of the group, and their values in the same order. -/
theorem uniqueKey?_eq_some_iff {group : List String} {key : UniqueKey} :
    resolver.uniqueKey? group = some key ↔ key.fields = group ∧
      List.Forall₂ (fun field value => resolver (.current field) = some value)
        group key.values := by
  rw [← mapM_eq_some_iff, uniqueKey?]
  cases group.mapM fun field => resolver (.current field) with
  | none => simp
  | some values =>
      obtain ⟨fields, values'⟩ := key
      simp [eq_comm]

end Resolver

namespace Registry

/-- `uniqueKeys` belong one by one to the groups that have a `currentValue?` for every
field. -/
theorem forall₂_uniqueKeys (r : Registry) (s : Struct) (resolver : Resolver) :
    List.Forall₂
      (fun group key => key.fields = group ∧
        List.Forall₂ (fun field value => s.currentValue? resolver field = some value)
          group key.values)
      (s.unique.filter fun group =>
        group.all fun field => (s.currentValue? resolver field).isSome)
      (r.uniqueKeys s resolver) := by
  have hkeys := forall₂_filter_filterMap (resolver.withDefaults r s).uniqueKey? s.unique
  simp only [Resolver.isSome_uniqueKey?, Resolver.uniqueKey?_eq_some_iff,
    Resolver.withDefaults_current] at hkeys
  exact hkeys

section Current

variable {r : Registry} {s : Struct} {resolver : Resolver} {field : String} {value : Leaf}

/-- `Path.current` evaluates to the `currentValue?` of the field. -/
theorem result_current_eq_ok_iff :
    ((resolver.withDefaults r s).evaluate (.path (.current field))).result = .ok value ↔
      s.currentValue? resolver field = some value := by
  rw [Resolver.evaluate_path _ (Path.current_ne_empty field)]
  show (resolver.withDefaults r s).lookup (.current field) = .ok value ↔ _
  rw [Resolver.lookup, Resolver.withDefaults_current]
  cases s.currentValue? resolver field with
  | none => simp
  | some value' => simp

/-- `Path.current` fails where there is no `currentValue?`. -/
theorem result_current_fails_iff :
    (∃ fault, ((resolver.withDefaults r s).evaluate (.path (.current field))).result =
      .error fault) ↔ s.currentValue? resolver field = none := by
  rw [except_fails_iff, Option.eq_none_iff_forall_ne_some, not_exists]
  exact forall_congr' fun value => not_congr result_current_eq_ok_iff

end Current

/-- `uniqueKeys` of an entity hold what its expressions see. There is a key for each
uniqueness group of the struct that has a `currentValue?` for every field, and for no
other, in the order of the groups and as often as a group is declared. It has the fields
of the group and one value for each, in their order, and this is the value that the
expression `_curr.field` has, in an environment of its own and with the same defaults. A
field is without a current value exactly when the expression fails. And every expression
that reads `_curr.field` for the entity `Sees` the same value there, the checks and the
statements of the effects among them: all of these are evaluated with the same
`answers`. -/
theorem uniqueKeys_agree_with_evaluation (r : Registry) (s : Struct) (resolver : Resolver) :
    let answers := resolver.withDefaults r s
    let seen (field : String) := (answers.evaluate (.path (.current field))).result
    List.Forall₂
      (fun group key => key.fields = group ∧
        List.Forall₂ (fun field value => seen field = .ok value) group key.values)
      (s.unique.filter fun group =>
        group.all fun field => (s.currentValue? resolver field).isSome)
      (r.uniqueKeys s resolver) ∧
    (∀ field, (∃ fault, seen field = .error fault) ↔ s.currentValue? resolver field = none) ∧
    (∀ e field, .current field ∈ (answers.evaluate e).recorded →
      answers.Sees e (.current field) (seen field)) ∧
    (∀ result ∈ (r.checkResults s resolver).values,
      ∃ c ∈ s.checks, result = c.evaluate answers) ∧
    ∀ event changed, ∀ m ∈ (r.effectsReport s event resolver changed).mutations,
      ∃ statement ∈ s.statements, m.target = statement.target ∧
        statement.Gives answers m.value m.reads := by
  intro answers seen
  refine ⟨?keys, ?missing, ?reads, ?checks, ?effects⟩
  case keys =>
    -- The keys are the groups whose values are all there, and a value that is there is
    -- what the path evaluates to.
    refine (r.forall₂_uniqueKeys s resolver).imp ?_
    intro group key ⟨hfields, hvalues⟩
    refine ⟨hfields, hvalues.imp ?_⟩
    intro field value hvalue
    exact result_current_eq_ok_iff.mpr hvalue
  case missing =>
    intro field
    exact result_current_fails_iff
  case reads =>
    intro e field h
    -- Whatever is evaluated sees what it records, checks and statements among it.
    exact Resolver.sees_of_mem_recorded (Path.current_ne_empty field) h
  case checks =>
    intro result hresult
    exact exists_check_of_mem_values hresult
  case effects =>
    intro event changed m hm
    obtain ⟨statement, hstatement, -, htarget, hgives⟩ := exists_statement_of_mem_mutations hm
    exact ⟨statement, hstatement, htarget, hgives⟩

/-- Of a `good` the `code` is known, and the `region` has a default. So of its three
groups the first and the last have keys, and the one with the batch has none. The check
on the region meets the default that the key holds. -/
theorem uniqueKeys_agree_with_evaluation_good :
    let code : Leaf := .text "A-1"
    let region : Leaf := .text "eu"
    let check : Check := ⟨"near", .comparator .equals .text (.path (.current "region"))
      (.literal region) [], "FAR"⟩
    let good : Struct := { Struct.ofFields "Good" [("batch", ⟨.primitive .number, none⟩),
        ("code", ⟨.primitive .text, none⟩), ("region", ⟨.primitive .text, some region⟩)] with
      unique := [["code", "region"], ["batch", "code"], ["code"]], checks := [check] }
    let r : Registry := .ofStructs "shop" [good] {}
    let known : Resolver := fun p => if p = .current "code" then some code else none
    let answers := known.withDefaults r good
    let seen (field : String) := (answers.evaluate (.path (.current field))).result
    r.uniqueKeys good known =
      [⟨["code", "region"], [code, region]⟩, ⟨["code"], [code]⟩] ∧
    seen "code" = .ok code ∧ seen "region" = .ok region ∧
    (∃ fault, seen "batch" = .error fault) ∧
    (check.evaluate answers).reads = [.current "region"] ∧
    answers.Sees check.expr (.current "region") (.ok region) := by
  intro code region check good r known answers seen
  obtain ⟨hkeys, hmissing, hreads, -, -⟩ := uniqueKeys_agree_with_evaluation r good known
  -- The group with the batch has a value missing, so two keys are left.
  have hgroups : (good.unique.filter fun group =>
      group.all fun field => (good.currentValue? known field).isSome) =
        [["code", "region"], ["code"]] := by decide
  have hheld : r.uniqueKeys good known =
      [⟨["code", "region"], [code, region]⟩, ⟨["code"], [code]⟩] := by decide
  have hread : (check.evaluate answers).reads = [.current "region"] := by decide
  rw [hgroups, hheld] at hkeys
  -- The key of the code and the region tells what both evaluate to.
  have hfirst := (List.forall₂_cons.mp hkeys).1.2
  obtain ⟨hcode, hrest⟩ := List.forall₂_cons.mp hfirst
  have hregion : seen "region" = .ok region := (List.forall₂_cons.mp hrest).1
  have hmem : .current "region" ∈ (check.evaluate answers).reads := by
    rw [hread]
    exact List.mem_singleton_self _
  have hsees := hreads check.expr "region" hmem
  exact ⟨hheld, hcode, hregion, (hmissing "batch").mpr (by decide), hread, hregion ▸ hsees⟩

end Registry

end EntityRules
