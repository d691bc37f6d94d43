import EntityRules.Expr.Eval
import EntityRules.Proofs.Expr.Literals
import EntityRules.Proofs.FirstFault

/-!
# `EntityRules.Proofs.Expr.Steps`: what every step keeps, an evaluation keeps

An evaluation is put together from look-ups and from steps that read nothing, one after
the other. The nodes differ in how they do this, but a property of computations that
look-ups and such steps have, and that two steps one after the other keep, does not depend
on the nodes.

* `StepInvariant`: such a property.
* `StepInvariant.evalWith`: every evaluation has it, by induction on the expression, with
  one induction on the operands for each loop over them.

A step that reads nothing fails on the values that it is given (`FailsOnValues`): one of
them is of a wrong kind, or a calculation has no result.
-/

set_option autoImplicit false

namespace EntityRules

open Proofs

/-! ### Steps that read nothing -/

/-- `fault.OfValues`: the error is one that values cause. -/
def EvalError.OfValues : EvalError → Prop
  | typeMismatch _ _ => True
  | arithmetic _ => True
  | _ => False

/-- `FailsOnValues result`: the result is there, or its error is one `OfValues`. -/
def FailsOnValues {α : Type} (result : Except EvalError α) : Prop :=
  ∀ fault, result = .error fault → fault.OfValues

section Results

variable {α β : Type}

theorem failsOnValues_ok (a : α) : FailsOnValues (.ok a) := by
  intro fault h
  cases h

theorem failsOnValues_bind {x : Except EvalError α} {f : α → Except EvalError β}
    (hx : FailsOnValues x) (hf : ∀ a, FailsOnValues (f a)) : FailsOnValues (x >>= f) := by
  cases x with
  | ok a => exact hf a
  | error e =>
      intro fault h
      cases h
      exact hx e rfl

theorem failsOnValues_map {x : Except EvalError α} (hx : FailsOnValues x) (f : α → β) :
    FailsOnValues (x.map f) := by
  cases x with
  | ok a => exact failsOnValues_ok (f a)
  | error e =>
      intro fault h
      cases h
      exact hx e rfl

end Results

namespace Leaf

/-- `asNumber` fails for a leaf that is no number, or too large for one. -/
theorem failsOnValues_asNumber (leaf : Leaf) : FailsOnValues leaf.asNumber := by
  cases leaf with
  | number n => exact failsOnValues_ok n
  | decimal d =>
      intro fault h
      rw [asNumber, truncated] at h
      split at h
      · cases h
      · cases h
        trivial
  | text s => rintro _ ⟨⟩; trivial
  | boolean b => rintro _ ⟨⟩; trivial

theorem failsOnValues_asDecimal (leaf : Leaf) : FailsOnValues leaf.asDecimal := by
  cases leaf with
  | number n => exact failsOnValues_ok _
  | decimal d => exact failsOnValues_ok d
  | text s => rintro _ ⟨⟩; trivial
  | boolean b => rintro _ ⟨⟩; trivial

theorem failsOnValues_asBoolean (leaf : Leaf) : FailsOnValues leaf.asBoolean := by
  cases leaf with
  | number n => rintro _ ⟨⟩; trivial
  | decimal d => rintro _ ⟨⟩; trivial
  | text s =>
      intro fault h
      rw [asBoolean] at h
      split at h
      · cases h
      · split at h
        · cases h
        · cases h
          trivial
  | boolean b => exact failsOnValues_ok b

theorem failsOnValues_coerce (leaf : Leaf) (kind : LeafKind) :
    FailsOnValues (leaf.coerce kind) := by
  cases kind with
  | number => exact failsOnValues_map leaf.failsOnValues_asNumber _
  | decimal => exact failsOnValues_map leaf.failsOnValues_asDecimal _
  | text => exact failsOnValues_ok _
  | boolean => exact failsOnValues_map leaf.failsOnValues_asBoolean _

/-- `checked` fails for a zero divisor or a result out of range. -/
theorem failsOnValues_checked {α : Type} (op : ArithmeticOp) (zeroDivisor : Bool)
    (result : Option α) : FailsOnValues (op.checked zeroDivisor result) := by
  intro fault h
  rw [ArithmeticOp.checked.eq_def] at h
  split at h
  · cases h
    trivial
  · split at h
    · cases h
    · cases h
      trivial

theorem failsOnValues_arithmetic (op : ArithmeticOp) (kind : NumericKind) (l r : Leaf) :
    FailsOnValues (arithmetic op kind l r) := by
  cases kind with
  | number =>
      refine failsOnValues_bind l.failsOnValues_asNumber fun a => ?_
      refine failsOnValues_bind r.failsOnValues_asNumber fun b => ?_
      exact failsOnValues_bind (failsOnValues_checked op _ _) fun n => failsOnValues_ok _
  | decimal =>
      refine failsOnValues_bind l.failsOnValues_asDecimal fun a => ?_
      refine failsOnValues_bind r.failsOnValues_asDecimal fun b => ?_
      exact failsOnValues_bind (failsOnValues_checked op _ _) fun d => failsOnValues_ok _

theorem failsOnValues_compare (op : ComparatorOp) (kind : ScalarKind) (l r : Leaf) :
    FailsOnValues (compare op kind l r) := by
  cases kind with
  | number =>
      refine failsOnValues_bind l.failsOnValues_asNumber fun a => ?_
      exact failsOnValues_bind r.failsOnValues_asNumber fun b => failsOnValues_ok _
  | decimal =>
      refine failsOnValues_bind l.failsOnValues_asDecimal fun a => ?_
      exact failsOnValues_bind r.failsOnValues_asDecimal fun b => failsOnValues_ok _
  | text => exact failsOnValues_ok _

end Leaf

/-! ### Properties that steps keep -/

namespace Expr

/-- `chainFrom` goes on with the comparison of the next pair, or with what it is settled
at. -/
theorem chainFrom_cons (op : ComparatorOp) (kind : ScalarKind) (acc : Bool) (previous : Leaf)
    (operand : Traced Leaf) (rest : List (Traced Leaf)) :
    chainFrom op kind acc previous (operand :: rest) =
      operand >>= fun next =>
        Traced.lift (if acc then Leaf.compare op kind previous next else .ok false) >>=
          fun acc => chainFrom op kind acc next rest := by
  cases acc with
  | true => rfl
  | false => rfl

/-- `StepInvariant P`: the property `P` of computations over a look-up is one that steps
have and that two steps, one after the other, keep. -/
structure StepInvariant (P : ∀ α : Type, (Lookup → Traced α) → Prop) : Prop where
  /-- A step that reads nothing. -/
  lift : ∀ {α : Type} {result : Except EvalError α}, FailsOnValues result →
    P α fun _ => Traced.lift result
  /-- A single look-up. -/
  path : ∀ p, P Leaf fun look => ⟨[p], look p⟩
  /-- Two steps, the second for each value of the first. -/
  bind : ∀ {α β : Type} {t : Lookup → Traced α} {next : Lookup → α → Traced β},
    P α t → (∀ a, P β fun look => next look a) → P β fun look => t look >>= next look

namespace StepInvariant

variable {P : ∀ α : Type, (Lookup → Traced α) → Prop} {es : List Expr} {arms : List (Expr × Expr)}

theorem pure (h : StepInvariant P) {α : Type} (a : α) : P α fun _ => Pure.pure a :=
  h.lift (failsOnValues_ok a)

/-- `Expr.boolean` asks a leaf that was evaluated for its truth value. -/
theorem boolean (h : StepInvariant P) {t : Lookup → Traced Leaf} (ht : P Leaf t) :
    P Bool fun look => Expr.boolean (t look) :=
  h.bind ht fun value => h.lift value.failsOnValues_asBoolean

theorem arithmeticFrom (h : StepInvariant P) (hes : ∀ e ∈ es, P Leaf fun look => e.evalWith look)
    (op : ArithmeticOp) (kind : NumericKind) (acc : Leaf) :
    P Leaf fun look => Expr.arithmeticFrom op kind acc (evalAll look es) := by
  induction es generalizing acc with
  | nil => exact h.pure acc
  | cons e rest ih =>
      obtain ⟨he, hrest⟩ := List.forall_mem_cons.mp hes
      refine h.bind he fun next => ?_
      refine h.bind (h.lift (Leaf.failsOnValues_arithmetic op kind acc next)) fun acc => ?_
      exact ih hrest acc

theorem chainFrom (h : StepInvariant P) (hes : ∀ e ∈ es, P Leaf fun look => e.evalWith look)
    (op : ComparatorOp) (kind : ScalarKind) (acc : Bool) (previous : Leaf) :
    P Bool fun look => Expr.chainFrom op kind acc previous (evalAll look es) := by
  induction es generalizing acc previous with
  | nil => exact h.pure acc
  | cons e rest ih =>
      obtain ⟨he, hrest⟩ := List.forall_mem_cons.mp hes
      simp only [evalAll, chainFrom_cons]
      refine h.bind he fun next => ?_
      refine h.bind (h.lift ?_) fun acc => ih hrest acc next
      -- A chain that is settled does not compare.
      cases acc with
      | true => exact Leaf.failsOnValues_compare op kind previous next
      | false => exact failsOnValues_ok false

theorem connectFrom (h : StepInvariant P) (hes : ∀ e ∈ es, P Leaf fun look => e.evalWith look)
    (op : LogicalOp) (acc : Bool) :
    P Bool fun look => Expr.connectFrom op acc (evalAll look es) := by
  induction es generalizing acc with
  | nil => exact h.pure acc
  | cons e rest ih =>
      obtain ⟨he, hrest⟩ := List.forall_mem_cons.mp hes
      exact h.bind (h.boolean he) fun next => ih hrest (op.combine acc next)

theorem select (h : StepInvariant P)
    (harms : ∀ arm ∈ arms, (P Leaf fun look => arm.1.evalWith look) ∧
      P Leaf fun look => arm.2.evalWith look)
    {otherwise : Lookup → Traced Leaf} (hotherwise : P Leaf otherwise) (condition : Leaf) :
    P Leaf fun look => Expr.select condition (otherwise look) (evalArms look arms) := by
  induction arms with
  | nil => exact hotherwise
  | cons arm rest ih =>
      obtain ⟨⟨hkey, hvalue⟩, hrest⟩ := List.forall_mem_cons.mp harms
      refine h.bind hkey fun key => ?_
      -- The key decides whether the value of this arm is read or the next key.
      cases hsame : key.sameVariant condition with
      | true => simpa [hsame] using hvalue
      | false => simpa [hsame] using ih hrest

/-- `evalWith` has every property that is a `StepInvariant`. -/
theorem evalWith (h : StepInvariant P) (e : Expr) : P Leaf fun look => e.evalWith look := by
  induction e with
  | literal value => exact h.pure value
  | path p => exact h.path p
  -- Every node is made of its operands and of steps that read nothing.
  | arithmetic op kind first rest ihfirst ihrest =>
      refine h.bind ihfirst fun first => ?_
      refine h.bind (h.lift (first.failsOnValues_coerce kind.leafKind)) fun acc => ?_
      exact h.arithmeticFrom ihrest op kind acc
  | comparator op kind first second rest ihfirst ihsecond ihrest =>
      refine h.bind ihfirst fun first => ?_
      refine h.bind ihsecond fun second => ?_
      refine h.bind (h.lift (Leaf.failsOnValues_compare op kind first second)) fun acc => ?_
      exact h.bind (h.chainFrom ihrest op kind acc second) fun result => h.pure _
  | logical op first second rest ihfirst ihsecond ihrest =>
      refine h.bind (h.boolean ihfirst) fun first => ?_
      refine h.bind (h.boolean ihsecond) fun second => ?_
      exact h.bind (h.connectFrom ihrest op _) fun result => h.pure _
  | not operand ih => exact h.bind (h.boolean ih) fun value => h.pure _
  | matching condition arms otherwise ihcondition iharms ihotherwise =>
      exact h.bind ihcondition fun condition => h.select iharms ihotherwise condition

end StepInvariant

end Expr

end EntityRules
