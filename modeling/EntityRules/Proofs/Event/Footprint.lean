import EntityRules.Event.Outcome
import EntityRules.Proofs.Effects.Gating

/-!
# `EntityRules.Proofs.Event.Footprint`: what an event asks for

What comes of an event depends on the answers of a resolver to a few paths only,
and which these are can be seen from the declaration of the struct: the paths of
the statements that run on the event and, where there is a state after it, the
paths of the checks and the fields of the uniqueness groups. `Struct.consulted`
lists them.

* `Registry.effectsReport_congr`, `Registry.checkResults_congr`,
  `Registry.uniqueKeys_congr`: resolvers that agree on the paths of a part give
  one result for the part.
* `Registry.eventOutcome_congr`: resolvers that agree on what is consulted give
  one outcome.
* `Registry.eventOutcome_footprint`: so a creation does not see the state before
  in its effects, and a deletion does not see the state after at all.

The defaults of the schema do not widen the list: a default stands in for the
missing answer to the same path.
-/

set_option autoImplicit false

namespace EntityRules

open Proofs

/-! ### The paths of a struct -/

namespace Struct

/-- `s.effectPaths event`: the paths of the statements that run on the event. -/
def effectPaths (s : Struct) (event : Event) : List Path :=
  (s.statements.filter (·.runsOn event)).flatMap (·.expr.referencedPaths)

/-- `s.checkPaths`: the paths of the checks. -/
def checkPaths (s : Struct) : List Path := s.checks.flatMap (·.expr.referencedPaths)

/-- `s.keyPaths`: the current fields of the uniqueness groups. -/
def keyPaths (s : Struct) : List Path :=
  s.unique.flatMap fun group => group.map fun field => .rooted .curr ⟨[field]⟩

/-- `s.consulted event`: the paths that are consulted on the event. After a deletion
there is no state to be checked. -/
def consulted (s : Struct) (event : Event) : List Path :=
  s.effectPaths event ++
    match event with
    | .create | .update => s.checkPaths ++ s.keyPaths
    | .delete => []

/-- On an event whose statements do not mention `root`, no path under it is among
`effectPaths`. -/
theorem not_rooted_of_mem_effectPaths {s : Struct} {event : Event} {root : Snapshot}
    (hevent : ∀ statement : Statement,
      statement.runsOn event = true → statement.mentions root = false)
    {p : Path} (hp : p ∈ s.effectPaths event) : p.snapshot? ≠ some root := by
  obtain ⟨statement, hstatement, hp⟩ := List.mem_flatMap.mp hp
  have hruns := (List.mem_filter.mp hstatement).2
  exact (Statement.mentions_eq_false_iff.mp (hevent statement hruns)).2 p hp

end Struct

/-! ### Parts of an outcome -/

section Parts

variable {resolver resolver' : Resolver}

/-- `mutation` is the same for resolvers that agree on the paths of the statement. -/
theorem Statement.mutation_congr {s : Statement} {effect : String}
    (h : ∀ p ∈ s.expr.referencedPaths, resolver p = resolver' p) :
    s.mutation resolver effect = s.mutation resolver' effect := by
  rw [mutation, mutation, Resolver.evaluate_congr h]

/-- `block` is the same for resolvers that agree on the paths of the `running`
statements. -/
theorem Effect.block_congr {e : Effect} {event : Event}
    (h : ∀ s ∈ e.running event, ∀ p ∈ s.expr.referencedPaths, resolver p = resolver' p) :
    e.block resolver event = e.block resolver' event :=
  mapM_congr fun s hs => Statement.mutation_congr (h s hs)

/-- `withDefaults` answers a path alike for resolvers that agree on it. -/
theorem Resolver.withDefaults_congr (r : Registry) (s : Struct) {p : Path}
    (h : resolver p = resolver' p) :
    resolver.withDefaults r s p = resolver'.withDefaults r s p := by
  rw [withDefaults, withDefaults, h]

namespace Registry

variable {r : Registry} {s : Struct}

/-- `effectsReport` is the same for resolvers that agree on `effectPaths`. -/
theorem effectsReport_congr {event : Event} {changed : Option PathSet}
    (h : ∀ p ∈ s.effectPaths event, resolver p = resolver' p) :
    r.effectsReport s event resolver changed = r.effectsReport s event resolver' changed := by
  -- Both runs take in one effect after another, so they are compared step by step.
  refine List.foldl_ext _ _ _ fun report e he => ?_
  have hblock : e.block (resolver.withDefaults r s) event =
      e.block (resolver'.withDefaults r s) event := by
    refine Effect.block_congr fun statement hrunning p hp => ?_
    obtain ⟨hstatement, hruns⟩ := List.mem_filter.mp hrunning
    have hmem : statement ∈ s.statements := List.mem_flatMap.mpr ⟨e, he, hstatement⟩
    have hconsulted : p ∈ s.effectPaths event :=
      List.mem_flatMap.mpr ⟨statement, List.mem_filter.mpr ⟨hmem, hruns⟩, hp⟩
    exact Resolver.withDefaults_congr r s (h p hconsulted)
  rw [Effect.run, Effect.run, hblock]

/-- `checkResults` are the same, with the same reads, for resolvers that agree on
`checkPaths`. -/
theorem checkResults_congr (h : ∀ p ∈ s.checkPaths, resolver p = resolver' p) :
    r.checkResults s resolver = r.checkResults s resolver' := by
  have hchecks : ∀ c ∈ s.checks,
      c.evaluate (resolver.withDefaults r s) = c.evaluate (resolver'.withDefaults r s) := by
    intro c hc
    have hvalue : (resolver.withDefaults r s).evaluate c.expr =
        (resolver'.withDefaults r s).evaluate c.expr := by
      refine Resolver.evaluate_congr fun p hp => ?_
      exact Resolver.withDefaults_congr r s (h p (List.mem_flatMap.mpr ⟨c, hc, hp⟩))
    rw [Check.evaluate, Check.evaluate, hvalue]
  rw [checkResults, checkResults, List.map_congr_left fun c hc => by rw [hchecks c hc]]

/-- `uniqueKeys` are the same for resolvers that agree on `keyPaths`. -/
theorem uniqueKeys_congr (h : ∀ p ∈ s.keyPaths, resolver p = resolver' p) :
    r.uniqueKeys s resolver = r.uniqueKeys s resolver' := by
  refine List.filterMap_congr fun group hgroup => ?_
  have hvalues : ∀ field ∈ group, resolver.withDefaults r s (.rooted .curr ⟨[field]⟩) =
      resolver'.withDefaults r s (.rooted .curr ⟨[field]⟩) := by
    intro field hfield
    have hkey : .rooted .curr ⟨[field]⟩ ∈ s.keyPaths :=
      List.mem_flatMap.mpr ⟨group, hgroup, List.mem_map.mpr ⟨field, hfield, rfl⟩⟩
    exact Resolver.withDefaults_congr r s (h _ hkey)
  rw [Resolver.uniqueKey?, Resolver.uniqueKey?, mapM_congr hvalues]

/-- `eventOutcome` is the same for resolvers that agree on what is `consulted`; for an
unknown struct it is the same error. -/
theorem eventOutcome_congr {struct : String} {event : Event} {changed : Option PathSet}
    (h : ∀ s, r.find? struct = some s → ∀ p ∈ s.consulted event, resolver p = resolver' p) :
    r.eventOutcome struct event resolver changed =
      r.eventOutcome struct event resolver' changed := by
  unfold eventOutcome
  rw [get]
  cases hfind : r.find? struct with
  | none => rfl
  | some s =>
      obtain ⟨heffects, hstate⟩ := List.forall_mem_append.mp (h s hfind)
      rw [except_bind_ok, except_bind_ok, effectsReport_congr heffects]
      -- The state after the change is looked at unless there is none.
      cases event with
      | create =>
          obtain ⟨hchecks, hkeys⟩ := List.forall_mem_append.mp hstate
          rw [checkResults_congr hchecks, uniqueKeys_congr hkeys]
      | update =>
          obtain ⟨hchecks, hkeys⟩ := List.forall_mem_append.mp hstate
          rw [checkResults_congr hchecks, uniqueKeys_congr hkeys]
      | delete => rfl

end Registry

end Parts

namespace Registry

/-- `eventOutcome` depends on the paths that are `consulted` alone: resolvers that agree
on them give the same results of the checks, with what they read, the same keys,
mutations and failures, or the same error. In particular the effects of a creation are
the same whatever the state before is said to be, and a deletion is the same whatever
the state after is said to be. -/
theorem eventOutcome_footprint (r : Registry) (resolver resolver' : Resolver)
    (changed : Option PathSet) :
    (∀ (struct : String) (event : Event),
      (∀ s, r.find? struct = some s → ∀ p ∈ s.consulted event, resolver p = resolver' p) →
        r.eventOutcome struct event resolver changed =
          r.eventOutcome struct event resolver' changed) ∧
    ((∀ p, p.snapshot? ≠ some .prev → resolver p = resolver' p) →
      ∀ s, r.effectsReport s .create resolver changed =
        r.effectsReport s .create resolver' changed) ∧
    ((∀ p, p.snapshot? ≠ some .curr → resolver p = resolver' p) →
      ∀ struct, r.eventOutcome struct .delete resolver changed =
        r.eventOutcome struct .delete resolver' changed) := by
  refine ⟨fun struct event h => eventOutcome_congr h, ?_, ?_⟩
  · intro h s
    refine effectsReport_congr fun p hp => h p ?_
    exact Struct.not_rooted_of_mem_effectPaths
      (fun _ => Statement.mentions_prev_of_runsOn_create) hp
  · intro h struct
    refine eventOutcome_congr fun s _ p hp => h p ?_
    -- Nothing but the effects consults anything on delete.
    rw [Struct.consulted, List.append_nil] at hp
    exact Struct.not_rooted_of_mem_effectPaths
      (fun _ => Statement.mentions_curr_of_runsOn_delete) hp

/-- `accountWithout root`: what is known of an account without the state that `root`
stands for. -/
def accountWithout (root : Snapshot) : Resolver := fun p =>
  if p.snapshot? = some root then none else accountBalances p

/-- `accountOpened`: what is known of an account that was opened with the balance that
it has. -/
def accountOpened : Resolver := fun p =>
  if p = ⟨["_curr", "opened"]⟩ then accountBalances ⟨["_curr", "balance"]⟩
  else accountBalances p

/-- An update of an account does not ask for the balance that it was opened with
(`accountOpened`). Its effects on create are the same without the state before, and its
deletion is the same without the state after. On update, where both states count, the
balance before would be taken for zero. -/
theorem eventOutcome_footprint_account :
    let five : Leaf := .number ⟨5, by decide, by decide⟩
    accountOpened ⟨["_curr", "opened"]⟩ ≠ accountBalances ⟨["_curr", "opened"]⟩ ∧
    (∀ p ∈ account.consulted .update, accountOpened p = accountBalances p) ∧
    bank.eventOutcome "Account" .update accountOpened none =
      bank.eventOutcome "Account" .update accountBalances none ∧
    bank.effectsReport account .create (accountWithout .prev) none =
      bank.effectsReport account .create accountBalances none ∧
    bank.eventOutcome "Account" .delete (accountWithout .curr) none =
      bank.eventOutcome "Account" .delete accountBalances none ∧
    (bank.effectsReport account .update (accountWithout .prev) none).instructions =
      [(⟨["_curr", "moved"]⟩, five)] ∧
    (bank.effectsReport account .update accountBalances none).instructions ≠
      [(⟨["_curr", "moved"]⟩, five)] := by
  have hconsulted : ∀ p ∈ account.consulted .update, accountOpened p = accountBalances p := by
    decide +kernel
  have hwithout : ∀ root p, p.snapshot? ≠ some root →
      accountWithout root p = accountBalances p := by
    intro root p hp
    rw [accountWithout, if_neg hp]
  refine ⟨by decide, hconsulted, ?_, ?_, ?_, rfl, by decide +kernel⟩
  -- An update does not consult what the account was opened with, a new account nothing
  -- before the change, and one that is gone nothing after it.
  · refine (eventOutcome_footprint bank accountOpened accountBalances none).1 "Account" .update ?_
    intro s hs
    have haccount : s = account := Option.some.inj hs.symm
    rw [haccount]
    exact hconsulted
  · exact (eventOutcome_footprint bank _ _ none).2.1 (hwithout .prev) account
  · exact (eventOutcome_footprint bank _ _ none).2.2 (hwithout .curr) "Account"

end Registry

end EntityRules
