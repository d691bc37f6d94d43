import EntityRules.Proofs.Expr.Literals

/-!
# `EntityRules.Proofs.Expr.Kinds`: the kind of a result as a relation

`resultKind?` computes the kind of an expression where it is known without
evaluation. `HasKind` says the same by one rule for each form of an expression: a
path has no kind, and a match has one when all values that it could select have
it, its otherwise included.

* `resultKind?_eq_some_iff`: what is computed is what the rules give.
-/

set_option autoImplicit false

namespace EntityRules.Expr

/-- `e.HasKind kind`: by the rules the expression yields leaves of this kind. -/
inductive HasKind : Expr → LeafKind → Prop
  | literal (value : Leaf) : HasKind (literal value) value.kind
  | arithmetic (op : ArithmeticOp) (kind : NumericKind) (first : Expr) (rest : List Expr) :
      HasKind (arithmetic op kind first rest) kind.leafKind
  | comparator (op : ComparatorOp) (kind : ScalarKind) (first second : Expr) (rest : List Expr) :
      HasKind (comparator op kind first second rest) .boolean
  | logical (op : LogicalOp) (first second : Expr) (rest : List Expr) :
      HasKind (logical op first second rest) .boolean
  | not (operand : Expr) : HasKind (not operand) .boolean
  | matching {condition otherwise : Expr} {arms : List (Expr × Expr)} {kind : LeafKind}
      (values : ∀ arm ∈ arms, HasKind arm.2 kind) (fallback : HasKind otherwise kind) :
      HasKind (matching condition arms otherwise) kind

/-- `resultKind?` finds the kind that the expression has by `HasKind`. -/
theorem HasKind.resultKind?_eq {e : Expr} {kind : LeafKind} (h : e.HasKind kind) :
    e.resultKind? = some kind := by
  induction h with
  | literal value => rfl
  | arithmetic op kind first rest => rfl
  | comparator op kind first second rest => rfl
  | logical op first second rest => rfl
  | not operand => rfl
  | @matching condition otherwise arms kind _ _ ihvalues ihfallback =>
      have hyield : armsYield kind arms = true := by
        rw [armsYield_eq_all, List.all_eq_true]
        exact fun arm harm => beq_iff_eq.mpr (ihvalues arm harm)
      simp only [resultKind?, ihfallback, hyield, if_true]

/-- `resultKind?` finds only kinds by `HasKind`. -/
theorem hasKind_of_resultKind?_eq {e : Expr} {kind : LeafKind} (h : e.resultKind? = some kind) :
    e.HasKind kind := by
  induction e generalizing kind with
  -- These show their kind, but a path, which has none before it is looked up.
  | literal value =>
      obtain rfl := Option.some.inj h
      exact .literal value
  | path p => cases h
  | arithmetic op kind' first rest =>
      obtain rfl := Option.some.inj h
      exact .arithmetic op kind' first rest
  | comparator op kind' first second rest =>
      obtain rfl := Option.some.inj h
      exact .comparator op kind' first second rest
  | logical op first second rest =>
      obtain rfl := Option.some.inj h
      exact .logical op first second rest
  | not operand =>
      obtain rfl := Option.some.inj h
      exact .not operand
  -- A match has the kind of its last branch, if all its arms have it too.
  | matching condition arms otherwise _ iharms ihotherwise =>
      rw [resultKind?] at h
      cases hkind : resultKind? otherwise with
      | none =>
          rw [hkind] at h
          cases h
      | some kind' =>
          simp only [hkind, Option.ite_none_right_eq_some, Option.some.injEq] at h
          obtain ⟨hyield, rfl⟩ := h
          rw [armsYield_eq_all, List.all_eq_true] at hyield
          refine .matching (fun arm harm => ?_) (ihotherwise hkind)
          exact (iharms arm harm).2 (beq_iff_eq.mp (hyield arm harm))

/-- `resultKind?` computes `HasKind`. -/
theorem resultKind?_eq_some_iff {e : Expr} {kind : LeafKind} :
    e.resultKind? = some kind ↔ e.HasKind kind :=
  ⟨hasKind_of_resultKind?_eq, HasKind.resultKind?_eq⟩

end EntityRules.Expr
