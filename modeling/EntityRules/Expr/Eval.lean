import EntityRules.Environment
import EntityRules.Expr.Basic
import EntityRules.Expr.Traced
import EntityRules.Leaf.Arithmetic

/-!
# `EntityRules.Expr.Eval`: evaluation

An expression is evaluated against a way to look paths up, and what a node makes
of its operands is a function of their traced results alone:

* `arithmeticFrom` folds a list of operands, one checked step at a time;
* `chainFrom` compares neighbours, and once false stays false, though every
  operand is still evaluated;
* `connectFrom` asks every operand for a boolean, also after the result is
  settled;
* `select` reads keys until one equals the condition, and only that arm's value.

A failing operand ends the evaluation of the node.
-/

set_option autoImplicit false

namespace EntityRules

namespace Expr

/-- A way to look paths up. -/
abbrev Lookup := Path → Except EvalError Leaf

/-- Goes on with an arithmetic result through the remaining operands. -/
def arithmeticFrom (op : ArithmeticOp) (kind : NumericKind) (acc : Leaf) :
    List (Traced Leaf) → Traced Leaf
  | [] => pure acc
  | operand :: rest => do
    let next ← operand
    let acc ← Traced.lift (Leaf.arithmetic op kind acc next)
    arithmeticFrom op kind acc rest

/-- Goes on with a chain of comparisons through the remaining operands. -/
def chainFrom (op : ComparatorOp) (kind : ScalarKind) (acc : Bool) (previous : Leaf) :
    List (Traced Leaf) → Traced Bool
  | [] => pure acc
  | operand :: rest => do
    let next ← operand
    let acc ← if acc then Traced.lift (Leaf.compare op kind previous next) else pure false
    chainFrom op kind acc next rest

/-- An operand of a connective. -/
def boolean (operand : Traced Leaf) : Traced Bool := do
  let value ← operand
  Traced.lift value.asBoolean

/-- Goes on with a connective through the remaining operands. -/
def connectFrom (op : LogicalOp) (acc : Bool) : List (Traced Leaf) → Traced Bool
  | [] => pure acc
  | operand :: rest => do
    let next ← boolean operand
    connectFrom op (op.combine acc next) rest

/-- The value of the first arm whose key has the kind and the value of the
condition. -/
def select (condition : Leaf) (otherwise : Traced Leaf) :
    List (Traced Leaf × Traced Leaf) → Traced Leaf
  | [] => otherwise
  | (key, value) :: rest => do
    let key ← key
    if key.sameVariant condition then value else select condition otherwise rest

mutual

/-- Evaluates an expression, looking each path up as it is reached. -/
def evalWith (look : Lookup) : Expr → Traced Leaf
  | literal value => pure value
  | path p => ⟨[p], look p⟩
  | arithmetic op kind first rest => do
    let first ← evalWith look first
    let acc ← Traced.lift (first.coerce kind.leafKind)
    arithmeticFrom op kind acc (evalAll look rest)
  | comparator op kind first second rest => do
    let first ← evalWith look first
    let second ← evalWith look second
    let acc ← Traced.lift (Leaf.compare op kind first second)
    let result ← chainFrom op kind acc second (evalAll look rest)
    return .boolean result
  | logical op first second rest => do
    let first ← boolean (evalWith look first)
    let second ← boolean (evalWith look second)
    let result ← connectFrom op (op.combine first second) (evalAll look rest)
    return .boolean result
  | not operand => do
    let value ← boolean (evalWith look operand)
    return .boolean !value
  | matching condition arms otherwise => do
    let condition ← evalWith look condition
    select condition (evalWith look otherwise) (evalArms look arms)

/-- Evaluates a list of operands, each for itself. -/
def evalAll (look : Lookup) : List Expr → List (Traced Leaf)
  | [] => []
  | e :: rest => evalWith look e :: evalAll look rest

/-- Evaluates the arms of a match, each key and value for itself. -/
def evalArms (look : Lookup) : List (Expr × Expr) → List (Traced Leaf × Traced Leaf)
  | [] => []
  | (key, value) :: rest => (evalWith look key, evalWith look value) :: evalArms look rest

end

/-- Operands are evaluated one by one. -/
theorem evalAll_eq_map (look : Lookup) (es : List Expr) :
    evalAll look es = es.map (evalWith look) := by
  induction es with
  | nil => rfl
  | cons e rest ih => rw [evalAll, ih, List.map_cons]

/-- Arms are evaluated one by one. -/
theorem evalArms_eq_map (look : Lookup) (arms : List (Expr × Expr)) :
    evalArms look arms = arms.map fun arm => (evalWith look arm.1, evalWith look arm.2) := by
  induction arms with
  | nil => rfl
  | cons arm rest ih => rw [evalArms, ih, List.map_cons]

/-- Evaluates an expression in an environment. -/
def eval (env : Environment) (e : Expr) : Traced Leaf := e.evalWith env.lookup

end Expr

/-- What answers paths with current values; `none` leaves a path unbound. -/
abbrev Resolver := Path → Option Leaf

namespace Resolver

/-- Binds every path of a list that has a value. -/
def bindAll (resolver : Resolver) (env : Environment) :
    List Path → Except EvalError Environment
  | [] => .ok env
  | p :: rest =>
    match resolver p with
    | none => bindAll resolver env rest
    | some value => do
      let env ← env.insert p value
      bindAll resolver env rest

/-- The environment of a list of paths. -/
def build (resolver : Resolver) (paths : List Path) : Except EvalError Environment :=
  resolver.bindAll .empty paths

/-- The environment that an expression needs. -/
def environmentFor (resolver : Resolver) (e : Expr) : Except EvalError Environment :=
  resolver.build e.referencedPaths

/-- Evaluates an expression in an environment of its own. If that cannot be
built, nothing is read. -/
def evaluate (resolver : Resolver) (e : Expr) : Traced Leaf :=
  match resolver.environmentFor e with
  | .ok env => e.eval env
  | .error fault => ⟨[], .error fault⟩

/-- Looks paths up without an environment. -/
def lookup (resolver : Resolver) (p : Path) : Except EvalError Leaf :=
  match resolver p with
  | some value => .ok value
  | none => .error (.unknownField p.text)

end Resolver

end EntityRules
