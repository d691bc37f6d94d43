import EntityRules.Expr.Basic
import EntityRules.Proofs.Lists

/-!
# `EntityRules.Proofs.Expr.Literals`: the literals of an expression

An expression nests lists of operands and lists of arms, so the recursor that
Lean generates speaks of both. `inductionOn` hides them: what holds of all parts
of an expression may be assumed, whichever list a part stands in. `inductionOnChildren`
also leaves out which part is which.

* `literals`: the leaves that an expression holds, in reading order.
* `mapLiterals`: the expression with every such leaf replaced.
* `mapLiterals_eq_self_iff`: a replacement changes nothing exactly when it keeps
  each of the literals.
* `resultKind?_mapLiterals`: a replacement of leaves by leaves of their kinds
  keeps the kind of the result.
-/

set_option autoImplicit false

namespace EntityRules.Expr

open Proofs

/-- Induction over an expression, its operands and its arms. -/
@[elab_as_elim, induction_eliminator]
theorem inductionOn {motive : Expr → Prop}
    (literal : ∀ value, motive (.literal value))
    (path : ∀ p, motive (.path p))
    (arithmetic : ∀ op kind first rest, motive first → (∀ e ∈ rest, motive e) →
      motive (.arithmetic op kind first rest))
    (comparator : ∀ op kind first second rest, motive first → motive second →
      (∀ e ∈ rest, motive e) → motive (.comparator op kind first second rest))
    (logical : ∀ op first second rest, motive first → motive second →
      (∀ e ∈ rest, motive e) → motive (.logical op first second rest))
    (not : ∀ operand, motive operand → motive (.not operand))
    (matching : ∀ condition arms otherwise, motive condition →
      (∀ arm ∈ arms, motive arm.1 ∧ motive arm.2) → motive otherwise →
      motive (.matching condition arms otherwise))
    (e : Expr) : motive e :=
  @Expr.rec motive (fun es => ∀ e ∈ es, motive e)
    (fun arms => ∀ arm ∈ arms, motive arm.1 ∧ motive arm.2)
    (fun arm => motive arm.1 ∧ motive arm.2)
    literal path arithmetic comparator logical not matching
    (fun _ h => absurd h List.not_mem_nil) (fun _ _ he hes => List.forall_mem_cons.mpr ⟨he, hes⟩)
    (fun _ h => absurd h List.not_mem_nil) (fun _ _ ha has => List.forall_mem_cons.mpr ⟨ha, has⟩)
    (fun _ _ hk hv => ⟨hk, hv⟩) e

/-- `children` of a match are its condition, its keys and values and its last branch. -/
theorem forall_mem_children_matching {P : Expr → Prop} {condition otherwise : Expr}
    {arms : List (Expr × Expr)} : (∀ c ∈ (matching condition arms otherwise).children, P c) ↔
      P condition ∧ (∀ arm ∈ arms, P arm.1 ∧ P arm.2) ∧ P otherwise := by
  rw [children, List.forall_mem_append, List.forall_mem_cons, List.forall_mem_singleton,
    List.forall_mem_flatMap, and_assoc]
  simp

/-- What holds of an expression if it holds of its `children` holds of every expression.
-/
@[elab_as_elim]
theorem inductionOnChildren {motive : Expr → Prop}
    (step : ∀ e, (∀ c ∈ e.children, motive c) → motive e) (e : Expr) : motive e := by
  -- The claim is made for the direct parts, where structural induction gives it for the
  -- parts of these.
  refine step e ?_
  induction e with
  | literal value => simp [children]
  | path p => simp [children]
  | arithmetic op kind first rest ihfirst ihrest =>
      simpa [children] using ⟨step _ ihfirst, fun e he => step e (ihrest e he)⟩
  | comparator op kind first second rest ihfirst ihsecond ihrest =>
      simpa [children] using ⟨step _ ihfirst, step _ ihsecond, fun e he => step e (ihrest e he)⟩
  | logical op first second rest ihfirst ihsecond ihrest =>
      simpa [children] using ⟨step _ ihfirst, step _ ihsecond, fun e he => step e (ihrest e he)⟩
  | not operand ih => simpa [children] using step _ ih
  | matching condition arms otherwise ihcondition iharms ihotherwise =>
      refine forall_mem_children_matching.mpr ⟨step _ ihcondition, ?_, step _ ihotherwise⟩
      intro arm harm
      exact ⟨step _ (iharms arm harm).1, step _ (iharms arm harm).2⟩

/-! ### Replacing literals -/

mutual

/-- `e.mapLiterals f`: the expression with `f` applied to every literal. -/
def mapLiterals (f : Leaf → Leaf) : Expr → Expr
  | literal value => literal (f value)
  | path p => path p
  | arithmetic op kind first rest =>
    arithmetic op kind (mapLiterals f first) (mapLiteralsAll f rest)
  | comparator op kind first second rest =>
    comparator op kind (mapLiterals f first) (mapLiterals f second) (mapLiteralsAll f rest)
  | logical op first second rest =>
    logical op (mapLiterals f first) (mapLiterals f second) (mapLiteralsAll f rest)
  | not operand => not (mapLiterals f operand)
  | matching condition arms otherwise =>
    matching (mapLiterals f condition) (mapLiteralsArms f arms) (mapLiterals f otherwise)

/-- `mapLiterals` for a list of operands. -/
def mapLiteralsAll (f : Leaf → Leaf) : List Expr → List Expr
  | [] => []
  | e :: rest => mapLiterals f e :: mapLiteralsAll f rest

/-- `mapLiterals` for the arms of a match. -/
def mapLiteralsArms (f : Leaf → Leaf) : List (Expr × Expr) → List (Expr × Expr)
  | [] => []
  | (key, value) :: rest => (mapLiterals f key, mapLiterals f value) :: mapLiteralsArms f rest

end

mutual

/-- `e.literals`: the literals of the expression, in reading order. -/
def literals : Expr → List Leaf
  | literal value => [value]
  | path _ => []
  | arithmetic _ _ first rest => literals first ++ literalsAll rest
  | comparator _ _ first second rest => literals first ++ (literals second ++ literalsAll rest)
  | logical _ first second rest => literals first ++ (literals second ++ literalsAll rest)
  | not operand => literals operand
  | matching condition arms otherwise =>
    literals condition ++ (literalsArms arms ++ literals otherwise)

/-- `literals` of a list of operands. -/
def literalsAll : List Expr → List Leaf
  | [] => []
  | e :: rest => literals e ++ literalsAll rest

/-- `literals` of the arms of a match. -/
def literalsArms : List (Expr × Expr) → List Leaf
  | [] => []
  | (key, value) :: rest => literals key ++ (literals value ++ literalsArms rest)

end

variable (f : Leaf → Leaf)

@[simp] theorem mapLiteralsAll_eq_map (es : List Expr) :
    mapLiteralsAll f es = es.map (mapLiterals f) := by
  induction es with
  | nil => rfl
  | cons e rest ih => rw [mapLiteralsAll, ih, List.map_cons]

@[simp] theorem mapLiteralsArms_eq_map (arms : List (Expr × Expr)) :
    mapLiteralsArms f arms = arms.map fun arm => (arm.1.mapLiterals f, arm.2.mapLiterals f) := by
  induction arms with
  | nil => rfl
  | cons arm rest ih => rw [mapLiteralsArms, ih, List.map_cons]

@[simp] theorem literalsAll_eq_flatMap (es : List Expr) : literalsAll es = es.flatMap literals := by
  induction es with
  | nil => rfl
  | cons e rest ih => rw [literalsAll, ih, List.flatMap_cons]

@[simp] theorem literalsArms_eq_flatMap (arms : List (Expr × Expr)) :
    literalsArms arms = arms.flatMap fun arm => arm.1.literals ++ arm.2.literals := by
  induction arms with
  | nil => rfl
  | cons arm rest ih => rw [literalsArms, ih, List.flatMap_cons, List.append_assoc]

/-- `mapLiterals` changes nothing exactly when `f` keeps each of the `literals`. -/
theorem mapLiterals_eq_self_iff {e : Expr} :
    e.mapLiterals f = e ↔ ∀ leaf ∈ e.literals, f leaf = leaf := by
  -- The operands of every kind of node are such a list.
  have hlist : ∀ es : List Expr,
      (∀ e ∈ es, e.mapLiterals f = e ↔ ∀ leaf ∈ e.literals, f leaf = leaf) →
      (es.map (mapLiterals f) = es ↔ ∀ leaf ∈ es.flatMap literals, f leaf = leaf) := by
    intro es ih
    rw [map_eq_self_iff, List.forall_mem_flatMap]
    exact forall₂_congr ih
  induction e with
  | literal value => simp [mapLiterals, literals]
  | path p => simp [mapLiterals, literals]
  | arithmetic op kind first rest ihfirst ihrest =>
      simp only [mapLiterals, literals, arithmetic.injEq, true_and, ihfirst, mapLiteralsAll_eq_map,
        literalsAll_eq_flatMap, hlist rest ihrest, List.forall_mem_append]
  | comparator op kind first second rest ihfirst ihsecond ihrest =>
      simp only [mapLiterals, literals, comparator.injEq, true_and, ihfirst, ihsecond,
        mapLiteralsAll_eq_map, literalsAll_eq_flatMap, hlist rest ihrest, List.forall_mem_append]
  | logical op first second rest ihfirst ihsecond ihrest =>
      simp only [mapLiterals, literals, logical.injEq, true_and, ihfirst, ihsecond,
        mapLiteralsAll_eq_map, literalsAll_eq_flatMap, hlist rest ihrest, List.forall_mem_append]
  | not operand ih => simp [mapLiterals, literals, ih]
  | matching condition arms otherwise ihcondition iharms ihotherwise =>
      have harms : (arms.map fun arm => (arm.1.mapLiterals f, arm.2.mapLiterals f)) = arms ↔
          ∀ leaf ∈ arms.flatMap fun arm => arm.1.literals ++ arm.2.literals, f leaf = leaf := by
        rw [map_eq_self_iff, List.forall_mem_flatMap]
        refine forall₂_congr fun arm harm => ?_
        obtain ⟨ihkey, ihvalue⟩ := iharms arm harm
        rw [Prod.ext_iff, List.forall_mem_append]
        exact and_congr ihkey ihvalue
      simp only [mapLiterals, literals, matching.injEq, ihcondition, ihotherwise,
        mapLiteralsArms_eq_map, literalsArms_eq_flatMap, harms, List.forall_mem_append]

/-! ### The kind of the result -/

variable {f}

/-- `armsYield` asks each arm for the kind of its value. -/
theorem armsYield_eq_all (kind : LeafKind) (arms : List (Expr × Expr)) :
    armsYield kind arms = arms.all fun arm => arm.2.resultKind? == some kind := by
  induction arms with
  | nil => rfl
  | cons arm rest ih => rw [armsYield, ih, List.all_cons]

/-- `resultKind?` looks at literals only for their kinds, so `mapLiterals` keeps it if
`f` keeps these. -/
theorem resultKind?_mapLiterals (hf : ∀ leaf, (f leaf).kind = leaf.kind) (e : Expr) :
    (e.mapLiterals f).resultKind? = e.resultKind? := by
  induction e with
  | literal value => simp [mapLiterals, resultKind?, hf]
  | path p => rfl
  | arithmetic op kind first rest => rfl
  | comparator op kind first second rest => rfl
  | logical op first second rest => rfl
  | not operand => rfl
  | matching condition arms otherwise _ iharms ihotherwise =>
      have harms : ∀ kind, armsYield kind (mapLiteralsArms f arms) = armsYield kind arms := by
        intro kind
        rw [mapLiteralsArms_eq_map, armsYield_eq_all, armsYield_eq_all, Bool.eq_iff_iff,
          List.all_map, List.all_eq_true, List.all_eq_true]
        refine forall₂_congr fun arm harm => ?_
        rw [Function.comp_apply, (iharms arm harm).2]
      simp only [mapLiterals, resultKind?, ihotherwise, harms]

end EntityRules.Expr
