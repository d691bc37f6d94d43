import EntityRules.Checks
import EntityRules.Effects
import EntityRules.UniqueKeys

/-!
# `EntityRules.Event.Outcome`: what comes of an event

On create and update an entity is checked, its uniqueness keys are found and its
effects run. A deleted entity has no state after the event: only its effects run.
-/

set_option autoImplicit false

namespace EntityRules

/-- What came of an event. -/
structure EventOutcome where
  checks : Table String CheckResult
  effects : EffectsReport
  uniqueKeys : List UniqueKey

/-- Whether every check is passed and no effect failed. -/
def EventOutcome.isValid (o : EventOutcome) : Bool :=
  o.checks.values.all CheckResult.passed && o.effects.isClean

/-- What comes of an event on an entity of a struct. -/
def Registry.eventOutcome (r : Registry) (struct : String) (event : Event) (resolver : Resolver)
    (changed : Option PathSet) : Except EvalError EventOutcome := do
  let s ← r.get struct
  let effects := r.effectsReport s event resolver changed
  match event with
  | .delete => return ⟨.empty, effects, []⟩
  | .create | .update =>
    return ⟨r.checkResults s resolver, effects, r.uniqueKeys s resolver⟩

end EntityRules
