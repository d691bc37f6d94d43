import EntityRules.Proofs.Expr.RoundTrip

/-!
# `EntityRules.Proofs.Expr.Rewriting`: an expression written, read and written again

What is read from the JSON of an expression is the expression with its literals
made canonical (`ofJson_toJson`). That is the same expression as far as values
go: `same` compares decimals by value, and dropping the sign of a zero changes no
value. It is not always written the same, since the JSON of a decimal shows its
sign.

* `same_mapLiterals`: a replacement of literals by literals of the same value
  makes the same expression.
* `canonical_eq_iff`: an expression is canonical when none of its literals is a
  zero with a minus, and `toJson_canonical_eq_iff`: that is also when the
  canonical expression is written like it.
* `reread_same_and_rewritten_iff`: every readable expression, and so everything
  that was read, is read back as the same expression; it is written again as it
  was exactly when none of its literals is a zero with a minus.
* `rewritten_negativeZero`: a literal that is read and not written again as it
  was.
-/

set_option autoImplicit false

namespace EntityRules

open Proofs

/-! ### Values -/

/-- `canonical` keeps the value of a decimal: a zero counts as many units without its
sign. -/
theorem Decimal.sameValue_canonical (d : Decimal) : d.canonical.sameValue d = true := by
  obtain ⟨negative, mantissa, scale, hmantissa, hscale⟩ := d
  have hunits : ∀ b : Bool, (negative = b ∨ mantissa = 0) →
      (⟨b, mantissa, scale, hmantissa, hscale⟩ : Decimal).units =
        (⟨negative, mantissa, scale, hmantissa, hscale⟩ : Decimal).units := by
    rintro b (rfl | rfl)
    · rfl
    · simp [units, signed]
  rw [sameValue, canonical, beq_iff_eq]
  refine hunits _ ?_
  by_cases hzero : mantissa = 0
  · exact .inr hzero
  · exact .inl (by simp [hzero])

namespace Leaf

/-- `leaf.canonical` is of the kind and the value of `leaf`, by `sameVariant`. -/
theorem sameVariant_canonical (leaf : Leaf) : leaf.canonical.sameVariant leaf = true := by
  cases leaf with
  | decimal d => exact d.sameValue_canonical
  | number n => simp [canonical, sameVariant]
  | text s => simp [canonical, sameVariant]
  | boolean b => simp [canonical, sameVariant]

/-- `leaf.canonical` is no zero with a minus (`IsNegativeZero`). -/
theorem not_isNegativeZero_canonical (leaf : Leaf) : ¬ leaf.canonical.IsNegativeZero := by
  cases leaf with
  | decimal d =>
      rintro ⟨hnegative, hmantissa⟩
      have hmantissa : d.mantissa = 0 := hmantissa
      simp [Decimal.canonical, hmantissa] at hnegative
  | number n => exact id
  | text s => exact id
  | boolean b => exact id

end Leaf

namespace Expr

/-! ### The same expression -/

/-- `sameAll` holds of operands and their images under `f` if `same` holds of each pair.
-/
theorem sameAll_map {f : Expr → Expr} {es : List Expr} (h : ∀ e ∈ es, (f e).same e = true) :
    sameAll (es.map f) es = true := by
  induction es with
  | nil => rfl
  | cons e rest ih =>
      obtain ⟨he, hrest⟩ := List.forall_mem_cons.mp h
      rw [List.map_cons, sameAll, he, ih hrest]
      rfl

/-- `sameArms` holds of arms and their images under `f` if `same` holds of the keys and
the values. -/
theorem sameArms_map {f : Expr → Expr} {arms : List (Expr × Expr)}
    (h : ∀ arm ∈ arms, (f arm.1).same arm.1 = true ∧ (f arm.2).same arm.2 = true) :
    sameArms (arms.map fun arm => (f arm.1, f arm.2)) arms = true := by
  induction arms with
  | nil => rfl
  | cons arm rest ih =>
      obtain ⟨⟨hkey, hvalue⟩, hrest⟩ := List.forall_mem_cons.mp h
      rw [List.map_cons, sameArms, hkey, hvalue, ih hrest]
      rfl

/-- `mapLiterals f` makes the `same` expression if `f` keeps the kind and the value of a
literal. -/
theorem same_mapLiterals {f : Leaf → Leaf} (hf : ∀ leaf, (f leaf).sameVariant leaf = true)
    (e : Expr) : (e.mapLiterals f).same e = true := by
  induction e with
  | literal value => exact hf value
  | path p => simp [mapLiterals, same]
  | arithmetic op kind first rest ihfirst ihrest =>
      simp [mapLiterals, same, ihfirst, sameAll_map ihrest]
  | comparator op kind first second rest ihfirst ihsecond ihrest =>
      simp [mapLiterals, same, ihfirst, ihsecond, sameAll_map ihrest]
  | logical op first second rest ihfirst ihsecond ihrest =>
      simp [mapLiterals, same, ihfirst, ihsecond, sameAll_map ihrest]
  | not operand ih => exact ih
  | matching condition arms otherwise ihcondition iharms ihotherwise =>
      simp [mapLiterals, same, ihcondition, ihotherwise, sameArms_map iharms]

/-! ### Canonical expressions -/

/-- `e.canonical` is `e` when none of the `literals` of `e` is a zero with a minus. -/
theorem canonical_eq_iff {e : Expr} :
    e.canonical = e ↔ ∀ leaf ∈ e.literals, ¬ leaf.IsNegativeZero := by
  rw [canonical, mapLiterals_eq_self_iff]
  exact forall₂_congr fun leaf _ => Leaf.canonical_eq_self_iff

/-- The `literals` of `e.mapLiterals f` are values of `f`. -/
theorem forall_mem_literals_mapLiterals {f : Leaf → Leaf} {P : Leaf → Prop}
    (hf : ∀ leaf, P (f leaf)) (e : Expr) : ∀ leaf ∈ (e.mapLiterals f).literals, P leaf := by
  -- The operands of every kind of node are such a list.
  have hlist : ∀ es : List Expr, (∀ e ∈ es, ∀ leaf ∈ (e.mapLiterals f).literals, P leaf) →
      ∀ leaf ∈ (es.map (mapLiterals f)).flatMap literals, P leaf := by
    intro es ih
    rw [List.forall_mem_flatMap, List.forall_mem_map]
    exact ih
  induction e with
  | literal value => simpa [mapLiterals, literals] using hf value
  | path p => simp [mapLiterals, literals]
  | arithmetic op kind first rest ihfirst ihrest =>
      simp only [mapLiterals, literals, mapLiteralsAll_eq_map, literalsAll_eq_flatMap,
        List.forall_mem_append]
      exact ⟨ihfirst, hlist rest ihrest⟩
  | comparator op kind first second rest ihfirst ihsecond ihrest =>
      simp only [mapLiterals, literals, mapLiteralsAll_eq_map, literalsAll_eq_flatMap,
        List.forall_mem_append]
      exact ⟨ihfirst, ihsecond, hlist rest ihrest⟩
  | logical op first second rest ihfirst ihsecond ihrest =>
      simp only [mapLiterals, literals, mapLiteralsAll_eq_map, literalsAll_eq_flatMap,
        List.forall_mem_append]
      exact ⟨ihfirst, ihsecond, hlist rest ihrest⟩
  | not operand ih => exact ih
  | matching condition arms otherwise ihcondition iharms ihotherwise =>
      simp only [mapLiterals, literals, mapLiteralsArms_eq_map, literalsArms_eq_flatMap,
        List.forall_mem_append]
      refine ⟨ihcondition, ?_, ihotherwise⟩
      rw [List.forall_mem_flatMap, List.forall_mem_map]
      intro arm harm
      rw [List.forall_mem_append]
      exact iharms arm harm

/-- `canonical` of an expression stays as it is when taken again. -/
theorem canonical_canonical (e : Expr) : e.canonical.canonical = e.canonical :=
  canonical_eq_iff.mpr (forall_mem_literals_mapLiterals Leaf.not_isNegativeZero_canonical e)

/-- `e.canonical` and `e` have one `toJson` when `e` is canonical itself: what is
written shows the sign of every zero. -/
theorem toJson_canonical_eq_iff {e : Expr} :
    e.canonical.toJson = e.toJson ↔ ∀ leaf ∈ e.literals, ¬ leaf.IsNegativeZero := by
  rw [← canonical_eq_iff]
  constructor
  · exact fun h => eq_of_toJson_eq e.canonical_canonical h
  · exact fun h => congrArg toJson h

/-! ### Written, read and written again -/

/-- An expression that is `Readable` is read back from its `toJson` as the `same`
expression, decimals compared by value, and whatever `ofJson` reads is `Readable`. It is
read back as `e.canonical`, which is `e` itself, and is written again with the same
digits, exactly when none of its `literals` is a zero with a minus
(`Leaf.IsNegativeZero`). -/
theorem reread_same_and_rewritten_iff {e : Expr}
    (h : e.Readable ∨ ∃ v : Json, ofJson v = .ok e) :
    e.Readable ∧ ofJson e.toJson = .ok e.canonical ∧ e.canonical.same e = true ∧
      (e.canonical = e ↔ ∀ leaf ∈ e.literals, ¬ leaf.IsNegativeZero) ∧
      (e.canonical.toJson = e.toJson ↔ ∀ leaf ∈ e.literals, ¬ leaf.IsNegativeZero) := by
  have he : e.Readable := by
    rcases h with he | ⟨v, hv⟩
    · exact he
    · exact readable_of_ofJson v hv
  have hsame : e.canonical.same e = true := same_mapLiterals Leaf.sameVariant_canonical e
  exact ⟨he, ofJson_toJson he, hsame, canonical_eq_iff, toJson_canonical_eq_iff⟩

/-- A price for open orders, and none for others. -/
def priceForm : Json :=
  form "match" "match" [
    form "path" "ref" [.str "_curr.status"],
    form "guard" "pair" [
      form "literal" "text" [.str "open"],
      form "literal" "decimal" [.str "-1.50"]],
    form "literal" "decimal" [.str "0.00"]]

/-- The decimals of `priceForm` are no zeros with a minus: the price is read back as it
is, and written again as it was. -/
theorem reread_price : ∃ e, ofJson priceForm = .ok e ∧
    (∀ leaf ∈ e.literals, ¬ leaf.IsNegativeZero) ∧ ofJson e.toJson = .ok e ∧
      e.toJson = priceForm := by
  have hread : ∃ e, ofJson priceForm = .ok e ∧ (∀ leaf ∈ e.literals, ¬ leaf.IsNegativeZero) ∧
      e.toJson = priceForm := ⟨_, rfl, by decide +kernel, rfl⟩
  obtain ⟨e, he, hzero, hwritten⟩ := hread
  obtain ⟨-, hreread, -, hcanonical, -⟩ := reread_same_and_rewritten_iff (.inr ⟨priceForm, he⟩)
  rw [hcanonical.mpr hzero] at hreread
  exact ⟨e, he, hzero, hreread, hwritten⟩

/-- A decimal that rounds to a zero with a minus. -/
def negativeZeroForm : Json := form "literal" "decimal" [.str "-0.4e-28"]

/-- `negativeZeroForm`, a literal that is a zero with a minus, is read back as the same
value and written again without the minus. -/
theorem rewritten_negativeZero : ∃ e e', ofJson negativeZeroForm = .ok e ∧
    ofJson e.toJson = .ok e' ∧ e'.same e = true ∧ e'.toJson ≠ e.toJson := by
  have hread : ∃ e, ofJson negativeZeroForm = .ok e ∧ ∃ leaf ∈ e.literals, leaf.IsNegativeZero :=
    ⟨_, rfl, by decide +kernel⟩
  obtain ⟨e, he, leaf, hleaf, hzero⟩ := hread
  have hreadable : e.Readable := readable_of_ofJson negativeZeroForm he
  refine ⟨e, e.canonical, he, ofJson_toJson hreadable,
    same_mapLiterals Leaf.sameVariant_canonical e, fun hwritten => ?_⟩
  exact toJson_canonical_eq_iff.mp hwritten leaf hleaf hzero

end Expr

end EntityRules
