import EntityRules.Checks
import EntityRules.Proofs.Expr.Kinds
import EntityRules.Proofs.FirstFault

/-!
# `EntityRules.Proofs.Expr.Soundness`: a known kind is the kind of the value

The kind of an expression is known where its outermost operator decides it, or where
all values of a match agree. Evaluation may still fail, but when it gives a leaf, the
leaf is of that kind.

* `HasKind.kind_eq`: by induction on the rules for kinds, for any way to look paths
  up.
* `Check.exists_outcome_of_resultKind?`: a check that is known to be a boolean has a
  verdict as soon as it can be evaluated.
* `resultKind?_sound`: both, for environments and for the results of a struct.

Arithmetic is the only node that carries a leaf from one operand to the next.
`kind_arithmeticFrom` says that it is of the kind of the operator before every step:
the first operand is read as that kind, and a step answers in it.
-/

set_option autoImplicit false

namespace EntityRules

open Proofs

/-! ### Leaves that an operator makes -/

namespace Leaf

variable {leaf leaf' : Leaf}

/-- `coerce kind` gives leaves of this `kind`. -/
theorem kind_of_coerce {kind : LeafKind} (h : leaf.coerce kind = .ok leaf') :
    leaf'.kind = kind := by
  cases kind with
  | number =>
      obtain ⟨n, -, rfl⟩ := except_map_eq_ok.mp h
      rfl
  | decimal =>
      obtain ⟨d, -, rfl⟩ := except_map_eq_ok.mp h
      rfl
  | text =>
      obtain rfl := Except.ok.inj h
      rfl
  | boolean =>
      obtain ⟨b, -, rfl⟩ := except_map_eq_ok.mp h
      rfl

/-- `arithmetic op kind` gives leaves of this `kind`. -/
theorem kind_of_arithmetic {op : ArithmeticOp} {kind : NumericKind} {l r : Leaf}
    (h : arithmetic op kind l r = .ok leaf) : leaf.kind = kind.leafKind := by
  cases kind with
  | number =>
      obtain ⟨a, -, h⟩ := except_bind_eq_ok.mp h
      obtain ⟨b, -, h⟩ := except_bind_eq_ok.mp h
      obtain ⟨n, -, h⟩ := except_bind_eq_ok.mp h
      obtain rfl := Except.ok.inj h
      rfl
  | decimal =>
      obtain ⟨a, -, h⟩ := except_bind_eq_ok.mp h
      obtain ⟨b, -, h⟩ := except_bind_eq_ok.mp h
      obtain ⟨d, -, h⟩ := except_bind_eq_ok.mp h
      obtain rfl := Except.ok.inj h
      rfl

/-- Leaves of `kind` `boolean` are the booleans. -/
theorem kind_eq_boolean_iff : leaf.kind = .boolean ↔ ∃ b, leaf = .boolean b := by
  cases leaf with
  | number n => simp [kind]
  | decimal d => simp [kind]
  | text s => simp [kind]
  | boolean b => simp [kind]

end Leaf

/-! ### Values of expressions -/

namespace Expr

variable {leaf : Leaf}

/-- `arithmeticFrom op kind` ends on a leaf of this `kind` if it sets out from one. -/
theorem kind_arithmeticFrom {op : ArithmeticOp} {kind : NumericKind} {acc : Leaf}
    {operands : List (Traced Leaf)} (hacc : acc.kind = kind.leafKind)
    (h : (arithmeticFrom op kind acc operands).result = .ok leaf) :
    leaf.kind = kind.leafKind := by
  induction operands generalizing acc with
  | nil =>
      obtain rfl := Except.ok.inj h
      exact hacc
  | cons operand rest ih =>
      obtain ⟨next, -, h⟩ := Traced.result_bind_eq_ok_iff.mp h
      obtain ⟨step, hstep, h⟩ := Traced.result_bind_eq_ok_iff.mp h
      exact ih (Leaf.kind_of_arithmetic hstep) h

/-- `select` gives the value of an arm or the last branch. -/
theorem of_select_eq_ok {condition : Leaf} {otherwise : Traced Leaf}
    {arms : List (Traced Leaf × Traced Leaf)}
    (h : (select condition otherwise arms).result = .ok leaf) :
    otherwise.result = .ok leaf ∨ ∃ arm ∈ arms, arm.2.result = .ok leaf := by
  induction arms with
  | nil => exact .inl h
  | cons arm rest ih =>
      obtain ⟨key, -, h⟩ := Traced.result_bind_eq_ok_iff.mp h
      split at h
      · exact .inr ⟨arm, List.mem_cons_self, h⟩
      · rcases ih h with h | ⟨other, hother, h⟩
        · exact .inl h
        · exact .inr ⟨other, List.mem_cons_of_mem _ hother, h⟩

/-- A bind, `>>=`, gives a boolean leaf if its last step makes one. -/
theorem kind_of_bind_boolean {t : Traced Bool} {f : Bool → Bool}
    (h : (t >>= fun b => pure (Leaf.boolean (f b))).result = .ok leaf) :
    leaf.kind = .boolean := by
  obtain ⟨b, -, h⟩ := Traced.result_bind_eq_ok_iff.mp h
  obtain rfl := Except.ok.inj h
  rfl

/-- `evalWith` gives only leaves of the kind that the expression has by `HasKind`. -/
theorem HasKind.kind_eq {e : Expr} {kind : LeafKind} {look : Lookup} (hkind : e.HasKind kind)
    (h : (e.evalWith look).result = .ok leaf) : leaf.kind = kind := by
  induction hkind generalizing leaf with
  | literal value =>
      obtain rfl := Except.ok.inj h
      rfl
  -- Arithmetic sets out from a leaf that was coerced to its kind.
  | arithmetic op kind first rest =>
      obtain ⟨value, -, h⟩ := Traced.result_bind_eq_ok_iff.mp h
      obtain ⟨acc, hacc, h⟩ := Traced.result_bind_eq_ok_iff.mp h
      exact kind_arithmeticFrom (Leaf.kind_of_coerce hacc) h
  -- These end on a boolean.
  | comparator op kind first second rest =>
      obtain ⟨a, -, h⟩ := Traced.result_bind_eq_ok_iff.mp h
      obtain ⟨b, -, h⟩ := Traced.result_bind_eq_ok_iff.mp h
      obtain ⟨acc, -, h⟩ := Traced.result_bind_eq_ok_iff.mp h
      exact kind_of_bind_boolean h
  | logical op first second rest =>
      obtain ⟨a, -, h⟩ := Traced.result_bind_eq_ok_iff.mp h
      obtain ⟨b, -, h⟩ := Traced.result_bind_eq_ok_iff.mp h
      exact kind_of_bind_boolean h
  | not operand => exact kind_of_bind_boolean h
  -- What is selected is one of the values that have the kind.
  | matching _ _ ihvalues ihfallback =>
      obtain ⟨value, -, h⟩ := Traced.result_bind_eq_ok_iff.mp h
      rcases of_select_eq_ok h with h | ⟨arm, harm, h⟩
      · exact ihfallback h
      · rw [evalArms_eq_map, List.mem_map] at harm
        obtain ⟨arm, harm, rfl⟩ := harm
        exact ihvalues arm harm h

/-- `resultKind?` of a match is a kind when it is that of the last branch and of the
value of every arm. -/
theorem resultKind?_matching_eq_some_iff {condition otherwise : Expr}
    {arms : List (Expr × Expr)} {kind : LeafKind} :
    (matching condition arms otherwise).resultKind? = some kind ↔
      otherwise.resultKind? = some kind ∧ ∀ arm ∈ arms, arm.2.resultKind? = some kind := by
  simp only [resultKind?_eq_some_iff]
  constructor
  · intro h
    cases h with
    | matching values fallback => exact ⟨fallback, values⟩
  · intro ⟨fallback, values⟩
    exact .matching values fallback

end Expr

/-! ### Checks -/

/-- `Check.evaluate` has a verdict for a check whose `resultKind?` is `boolean`, when
its expression can be evaluated. -/
theorem Check.exists_outcome_of_resultKind? {c : Check} {resolver : Resolver} {leaf : Leaf}
    (hkind : c.expr.resultKind? = some .boolean)
    (h : (resolver.evaluate c.expr).result = .ok leaf) :
    ∃ b, leaf = .boolean b ∧ (c.evaluate resolver).outcome = .ok b := by
  -- A value means that the environment was built.
  have hvalue : ∃ look, (c.expr.evalWith look).result = .ok leaf := by
    rw [Resolver.evaluate] at h
    cases henv : resolver.environmentFor c.expr with
    | error fault =>
        rw [henv] at h
        cases h
    | ok env =>
        rw [henv] at h
        exact ⟨env.lookup, h⟩
  obtain ⟨look, hlook⟩ := hvalue
  obtain ⟨b, rfl⟩ :=
    Leaf.kind_eq_boolean_iff.mp ((Expr.hasKind_of_resultKind?_eq hkind).kind_eq hlook)
  refine ⟨b, rfl, ?_⟩
  show (resolver.evaluate c.expr).result.bind Leaf.verdict = .ok b
  rw [h]
  rfl

/-- `resultKind?` of an expression is the `kind` of its value, in every environment
where it has one. That of a match is a kind only when it is that of the value of every
arm and of the last branch. So among the `checkResults` of a struct, that of a check
whose `resultKind?` is `boolean` is the boolean that the check evaluates to, once it
evaluates to anything. -/
theorem resultKind?_sound :
    (∀ (e : Expr) (env : Environment) (kind : LeafKind) (leaf : Leaf),
      e.resultKind? = some kind → (e.eval env).result = .ok leaf → leaf.kind = kind) ∧
    (∀ (condition otherwise : Expr) (arms : List (Expr × Expr)) (kind : LeafKind),
      (Expr.matching condition arms otherwise).resultKind? = some kind ↔
        otherwise.resultKind? = some kind ∧ ∀ arm ∈ arms, arm.2.resultKind? = some kind) ∧
    ∀ (r : Registry) (s : Struct) (resolver : Resolver),
      ∀ entry ∈ (r.checkResults s resolver).entries, ∃ c ∈ s.checks,
        entry = (c.name, c.evaluate (resolver.withDefaults r s)) ∧
        (c.expr.resultKind? = some .boolean → ∀ leaf,
          ((resolver.withDefaults r s).evaluate c.expr).result = .ok leaf →
            ∃ b, leaf = .boolean b ∧ entry.2.outcome = .ok b) := by
  refine ⟨?_, ?_, ?_⟩
  · intro e env kind leaf hkind h
    exact (Expr.hasKind_of_resultKind?_eq hkind).kind_eq h
  · intro condition otherwise arms kind
    exact Expr.resultKind?_matching_eq_some_iff
  · intro r s resolver entry hentry
    obtain ⟨c, hc, rfl⟩ := Registry.exists_check_of_mem_checkResults hentry
    exact ⟨c, hc, rfl, fun hkind leaf h => Check.exists_outcome_of_resultKind? hkind h⟩

/-- An item is visible by its grade, and what makes a new item visible is decided by
a match again. All values of both matches are booleans, so the check is known to be
one, and with the grade answered and the flag left to its default it has the verdict
that the match evaluates to. -/
theorem resultKind?_sound_item :
    let grade : Path := ⟨["_curr", "grade"]⟩
    let listed : Path := ⟨["_curr", "listed"]⟩
    let new : Expr := .matching (.path listed)
      [(.literal (.text "yes"), .literal (.boolean true))] (.not (.path listed))
    let e : Expr := .matching (.path grade)
      [(.literal (.text "new"), new), (.literal (.text "old"), .literal (.boolean false))]
      (.comparator .equals .text (.path grade) (.literal (.text "used")) [])
    let check : Check := ⟨"visible", e, "hidden"⟩
    let item : Struct := ⟨"Item", .ofList [("grade", ⟨.primitive .text, none⟩),
      ("listed", ⟨.primitive .boolean, some (.boolean false)⟩)], [], .none, [], [check]⟩
    let r : Registry := .ofStructs "shop" [item] {}
    let answers : Resolver := fun p => if p = grade then some (.text "new") else none
    let env : Environment := .node
      [("_curr", .node [("grade", .leaf (.text "new")), ("listed", .leaf (.boolean false))])]
    e.resultKind? = some .boolean ∧ new.resultKind? = some .boolean ∧
    (e.eval env).result = .ok (.boolean true) ∧ Leaf.kind (.boolean true) = .boolean ∧
    ∃ entry ∈ (r.checkResults item answers).entries,
      entry.1 = "visible" ∧ entry.2.outcome = .ok true := by
  intro grade listed new e check item r answers env
  -- The flag is answered by its default only, and the check evaluates to true with it.
  have hvalue : ((answers.withDefaults r item).evaluate e).result = .ok (.boolean true) := by
    subst answers r item check e new listed grade
    rfl
  obtain ⟨hkinds, hmatch, hchecks⟩ := resultKind?_sound
  have hkind : e.resultKind? = some .boolean := rfl
  have hvalues := ((hmatch _ _ _ _).mp hkind).2
  refine ⟨hkind, hvalues _ List.mem_cons_self, rfl, hkinds e env .boolean _ hkind rfl, ?_⟩
  refine ⟨_, List.mem_singleton_self _, rfl, ?_⟩
  -- There is one check, and its verdict is the boolean that it evaluates to.
  obtain ⟨c, hc, hentry, hverdict⟩ := hchecks r item answers _ (List.mem_singleton_self _)
  obtain rfl := List.mem_singleton.mp hc
  obtain ⟨b, hb, houtcome⟩ := hverdict hkind _ hvalue
  obtain rfl := Leaf.boolean.inj hb
  exact houtcome

end EntityRules
