import EntityRules.Schema.Defaults

/-!
# `EntityRules.Checks`: the checks of an entity

Every check of a struct is evaluated for itself, against the values of an entity
and the defaults of its schema. A check that cannot be evaluated, or that gives
anything but a boolean, is not passed.
-/

set_option autoImplicit false

namespace EntityRules

/-- What came of a check. -/
structure CheckResult where
  errorCode : String
  outcome : Except EvalError Bool
  /-- The paths that the evaluation read. -/
  reads : List Path

/-- Whether a check is passed. -/
def CheckResult.passed (c : CheckResult) : Bool :=
  match c.outcome with
  | .ok true => true
  | _ => false

/-- The verdict that a leaf gives: only a boolean gives one. -/
def Leaf.verdict : Leaf → Except EvalError Bool
  | boolean b => .ok b
  | leaf => .error (.typeMismatch .boolean leaf.kind)

/-- Evaluates a check. -/
def Check.evaluate (resolver : Resolver) (c : Check) : CheckResult :=
  let value := resolver.evaluate c.expr
  { errorCode := c.errorCode
    outcome := value.result.bind Leaf.verdict
    reads := value.recorded }

/-- Evaluates every check of a struct; the results stand under the names of the
checks. -/
def Registry.checkResults (r : Registry) (s : Struct) (resolver : Resolver) :
    Table String CheckResult :=
  .ofList (s.checks.map fun c => (c.name, c.evaluate (resolver.withDefaults r s)))

/-- Every result is that of a check of the struct. -/
theorem Registry.exists_check_of_mem_checkResults {r : Registry} {s : Struct}
    {resolver : Resolver} {entry : String × CheckResult}
    (h : entry ∈ (r.checkResults s resolver).entries) :
    ∃ c ∈ s.checks, entry = (c.name, c.evaluate (resolver.withDefaults r s)) := by
  obtain ⟨c, hc, rfl⟩ := List.mem_map.mp (Table.mem_of_mem_ofList h)
  exact ⟨c, hc, rfl⟩

/-- Without the names too, every result is that of a check of the struct. -/
theorem Registry.exists_check_of_mem_values {r : Registry} {s : Struct} {resolver : Resolver}
    {result : CheckResult} (h : result ∈ (r.checkResults s resolver).values) :
    ∃ c ∈ s.checks, result = c.evaluate (resolver.withDefaults r s) := by
  obtain ⟨entry, hentry, rfl⟩ := List.mem_map.mp h
  obtain ⟨c, hc, rfl⟩ := exists_check_of_mem_checkResults hentry
  exact ⟨c, hc, rfl⟩

end EntityRules
