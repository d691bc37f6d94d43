import EntityRules.Event.Basic
import EntityRules.Schema.Defaults

/-!
# `EntityRules.Effects`: the values that change with an entity

The effects of a struct serve all three events in the life of an entity. Which
of its statements run on which event can be seen from the snapshot roots that
they mention: only the state after on create, only the state before on delete,
both on update. On update, an effect fires only if one of its dependencies
changed, where it is known what changed.

The statements of an effect take effect together. If one of them fails, the
effect is recorded as failed with the first failure, and none of its statements
is carried out; other effects are not concerned. No statement sees what another
one writes.
-/

set_option autoImplicit false

namespace EntityRules

/-! ### What runs -/

/-- Whether a statement mentions a snapshot root, in its target or in its
expression. -/
def Statement.mentions (s : Statement) (root : Snapshot) : Bool :=
  s.expr.mentions root || s.target.snapshot? == some root

/-- Whether a statement runs on an event. -/
def Statement.runsOn (s : Statement) : Event → Bool
  | .create => s.mentions .curr && !s.mentions .prev
  | .update => s.mentions .prev && s.mentions .curr
  | .delete => s.mentions .prev && !s.mentions .curr

/-- Whether one of the changed paths is a dependency of an effect. -/
def Effect.dependsOn (e : Effect) (changed : PathSet) : Bool :=
  e.dependencies.any fun d => changed.toList.any fun c => c.relative == d.relative

/-- Whether an effect fires on an event; what changed matters on update only. -/
def Effect.fires (e : Effect) (event : Event) (changed : Option PathSet) : Bool :=
  match event, changed with
  | .update, some changed => e.dependsOn changed
  | _, _ => true

/-- The statements of an effect that run on an event. -/
def Effect.running (e : Effect) (event : Event) : List Statement :=
  e.statements.filter (·.runsOn event)

/-! ### What comes of it -/

/-- A value to be written, and the paths that were read to find it. -/
structure Mutation where
  effect : String
  target : Path
  value : Leaf
  reads : List Path

/-- Evaluates a statement of an effect. -/
def Statement.mutation (resolver : Resolver) (effect : String) (s : Statement) :
    Except EvalError Mutation :=
  let value := resolver.evaluate s.expr
  value.result.map fun v => ⟨effect, s.target, v, value.recorded⟩

/-- The mutations of an effect on an event, all of them or the first failure. -/
def Effect.block (resolver : Resolver) (event : Event) (e : Effect) :
    Except EvalError (List Mutation) :=
  (e.running event).mapM (Statement.mutation resolver e.name)

/-- What came of the effects of a struct. -/
structure EffectsReport where
  mutations : List Mutation
  /-- The effects that failed, by name. -/
  failures : Table String EvalError

namespace EffectsReport

/-- The report before any effect ran. -/
def start : EffectsReport := ⟨[], .empty⟩

/-- Takes the outcome of one more effect into a report. -/
def absorb (report : EffectsReport) (effect : String) :
    Except EvalError (List Mutation) → EffectsReport
  | .ok block => { report with mutations := report.mutations ++ block }
  | .error fault => { report with failures := report.failures.insert effect fault }

/-- Whether no effect failed. -/
def isClean (report : EffectsReport) : Bool := report.failures.entries.isEmpty

/-- What is to be written, in order. -/
def instructions (report : EffectsReport) : List (Path × Leaf) :=
  report.mutations.map fun m => (m.target, m.value)

end EffectsReport

/-- Runs one effect, if it fires. -/
def Effect.run (resolver : Resolver) (event : Event) (changed : Option PathSet)
    (report : EffectsReport) (e : Effect) : EffectsReport :=
  if e.fires event changed then report.absorb e.name (e.block resolver event) else report

/-- Runs the effects of a struct, one after another. -/
def Registry.effectsReport (r : Registry) (s : Struct) (event : Event) (resolver : Resolver)
    (changed : Option PathSet) : EffectsReport :=
  s.effects.foldl (Effect.run (resolver.withDefaults r s) event changed) .start

end EntityRules
