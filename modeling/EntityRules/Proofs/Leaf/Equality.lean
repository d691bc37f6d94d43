import EntityRules.Proofs.Leaf.WholeNumbers

/-!
# `EntityRules.Proofs.Leaf.Equality`: the equalities of leaves

Leaves are equal in three ways: as leaves of one kind and value (`sameVariant`), in the
kind in which they meet (`equals`), and by a comparison in a kind that is given. Each reads
the leaves in its own way, and where two of them apply they agree.

* `equals_of_kind_eq`, `equals_of_text`, `equals_of_numeric`: what `equals` asks, by the
  kinds of both sides. Leaves of one kind are not read as anything else, beside a text only
  texts count, and numeric leaves are compared as decimals.
* `Decimal.order_eq_eq_iff`, `textOrder_eq_eq_iff`: what a comparison for equality asks.
* `equalities_agree`: from there all the laws. None of them looks at the digits of a
  decimal, only at its value.
-/

set_option autoImplicit false

namespace EntityRules

open Proofs

/-! ### Level in an order -/

/-- `order` has numbers level when they are the same. -/
theorem Number.order_eq_eq_iff {l r : Number} : l.order r = .eq ↔ l = r := by
  rw [order, Std.LawfulEqCmp.compare_eq_iff_eq]
  constructor
  · intro h
    obtain ⟨n, hlower, hupper⟩ := l
    obtain ⟨m, hlower', hupper'⟩ := r
    obtain rfl : n = m := h
    rfl
  · rintro rfl
    rfl

/-- `order` has decimals level when they have the `sameValue`. -/
theorem Decimal.order_eq_eq_iff {l r : Decimal} : l.order r = .eq ↔ l.sameValue r = true := by
  rw [order, sameValue, Std.LawfulEqCmp.compare_eq_iff_eq, beq_iff_eq]

namespace Leaf

variable {a b : Leaf}

/-- `textOrder` has texts level when they are the same. -/
theorem textOrder_eq_eq_iff {l r : String} : textOrder l r = .eq ↔ l = r := by
  rw [textOrder]
  split
  · next hlt =>
      simp only [reduceCtorEq, false_iff]
      rintro rfl
      exact Std.lt_irrefl hlt
  · split
    · next heq => simp [heq]
    · next hne => simp [hne]

/-! ### Leaves of one kind -/

/-- `sameVariant` holds of leaves of one `kind` only: a number is never a decimal. -/
theorem kind_eq_of_sameVariant (h : a.sameVariant b = true) : a.kind = b.kind := by
  revert h
  cases a <;> cases b <;> simp [sameVariant, kind]

/-- `sameVariant` holds of a leaf and itself. -/
theorem sameVariant_self (a : Leaf) : a.sameVariant a = true := by
  cases a with
  | number n => simp [sameVariant]
  | decimal d => simp [sameVariant, Decimal.sameValue]
  | text s => simp [sameVariant]
  | boolean x => simp [sameVariant]

/-- `sameVariant` is the same from either side. -/
theorem sameVariant_comm (a b : Leaf) : a.sameVariant b = b.sameVariant a := by
  cases a <;> cases b <;> simp [sameVariant, Decimal.sameValue, eq_comm, Bool.beq_comm]

/-- `coerce` to its own `kind` leaves a leaf as it is. -/
theorem coerce_kind (a : Leaf) : a.coerce a.kind = .ok a := by
  cases a <;> rfl

/-- `equals` is `sameVariant` for leaves of one `kind`. -/
theorem equals_of_kind_eq (h : a.kind = b.kind) : a.equals b = a.sameVariant b := by
  have hb : b.coerce a.kind = .ok b := h ▸ b.coerce_kind
  simp only [equals, meetingKind, if_pos h, coerce_kind, hb]

/-! ### Leaves of different kinds -/

/-- `a.IsNumeric`: the leaf has a value that can be calculated with. -/
def IsNumeric (a : Leaf) : Prop := a.kind = .number ∨ a.kind = .decimal

/-- `equals` compares texts, by `asText`, if one of the leaves is a text. -/
theorem equals_of_text (h : a.kind = .text ∨ b.kind = .text) :
    a.equals b = true ↔ a.asText = b.asText := by
  have hmeeting : meetingKind a.kind b.kind = .text := by
    rcases h with h | h
    · rw [h]
      cases b.kind <;> rfl
    · rw [h]
      cases a.kind <;> rfl
  simp only [equals, hmeeting, coerce, sameVariant, decide_eq_true_iff]

/-- `ofNumber` of two numbers has the `sameValue` when they are the same. -/
theorem sameValue_ofNumber_iff {n m : Number} :
    (Decimal.ofNumber n).sameValue (Decimal.ofNumber m) = true ↔ n = m := by
  rw [← Decimal.order_eq_eq_iff, Decimal.order_ofNumber, Number.order_eq_eq_iff]

/-- `equals` of leaves that are `IsNumeric` asks whether their decimals have the
`sameValue`. -/
theorem equals_of_numeric (ha : a.IsNumeric) (hb : b.IsNumeric) : ∃ x y,
    a.asDecimal = .ok x ∧ b.asDecimal = .ok y ∧ (a.equals b = true ↔ x.sameValue y = true) := by
  cases a with
  | number n =>
      cases b with
      | number m =>
          -- Two numbers are not read as decimals, but would be equal as these too.
          refine ⟨_, _, rfl, rfl, ?_⟩
          rw [sameValue_ofNumber_iff]
          exact decide_eq_true_iff
      | decimal e => exact ⟨_, _, rfl, rfl, Iff.rfl⟩
      | text s => simp [IsNumeric, kind] at hb
      | boolean y => simp [IsNumeric, kind] at hb
  | decimal d =>
      cases b with
      | number m => exact ⟨_, _, rfl, rfl, Iff.rfl⟩
      | decimal e => exact ⟨_, _, rfl, rfl, Iff.rfl⟩
      | text s => simp [IsNumeric, kind] at hb
      | boolean y => simp [IsNumeric, kind] at hb
  | text s => simp [IsNumeric, kind] at ha
  | boolean x => simp [IsNumeric, kind] at ha

/-- `equals` of a boolean and a leaf that `IsNumeric` is false. -/
theorem equals_eq_false_of_boolean (ha : a.kind = .boolean) (hb : b.IsNumeric) :
    a.equals b = false ∧ b.equals a = false := by
  cases a with
  | boolean x =>
      cases b with
      | number n => exact ⟨rfl, rfl⟩
      | decimal d => exact ⟨rfl, rfl⟩
      | text s => simp [IsNumeric, kind] at hb
      | boolean y => simp [IsNumeric, kind] at hb
  | _ => cases ha

/-! ### Comparisons for equality -/

/-- `compare` for equality in the kind of texts asks whether `asText` gives one text. -/
theorem compare_equals_text_iff : compare .equals .text a b = .ok true ↔ a.asText = b.asText := by
  rw [← textOrder_eq_eq_iff]
  simp [compare, ComparatorOp.holds]

/-- `compare` for equality in the kind of decimals asks whether both leaves have
decimals, of the `sameValue`. -/
theorem compare_equals_decimal_iff : compare .equals .decimal a b = .ok true ↔
    ∃ x y, a.asDecimal = .ok x ∧ b.asDecimal = .ok y ∧ x.sameValue y = true := by
  simp [compare, except_bind_eq_ok, ComparatorOp.holds, Decimal.order_eq_eq_iff]

/-! ### The laws -/

/-- A leaf `IsNumeric`, is a text or is a boolean. -/
theorem isNumeric_or_kind_eq (a : Leaf) : a.IsNumeric ∨ a.kind = .text ∨ a.kind = .boolean := by
  cases a <;> simp [IsNumeric, kind]

/-- `equals` is the same from either side. -/
theorem equals_comm (a b : Leaf) : a.equals b = b.equals a := by
  by_cases hkind : a.kind = b.kind
  · rw [equals_of_kind_eq hkind, equals_of_kind_eq hkind.symm, sameVariant_comm]
  -- Where the kinds differ, the left side decides only beside a boolean, and then nothing
  -- is equal.
  · rcases a.isNumeric_or_kind_eq with ha | ha | ha
    · rcases b.isNumeric_or_kind_eq with hb | hb | hb
      · obtain ⟨x, y, hx, hy, hab⟩ := equals_of_numeric ha hb
        obtain ⟨y', x', hy', hx', hba⟩ := equals_of_numeric hb ha
        obtain rfl : x = x' := Except.ok.inj (hx.symm.trans hx')
        obtain rfl : y = y' := Except.ok.inj (hy.symm.trans hy')
        rw [Bool.eq_iff_iff, hab, hba, Decimal.sameValue, Decimal.sameValue, Bool.beq_comm]
      · rw [Bool.eq_iff_iff, equals_of_text (.inr hb), equals_of_text (.inl hb), eq_comm]
      · obtain ⟨hba, hab⟩ := equals_eq_false_of_boolean hb ha
        rw [hab, hba]
    · rw [Bool.eq_iff_iff, equals_of_text (.inl ha), equals_of_text (.inr ha), eq_comm]
    · rcases b.isNumeric_or_kind_eq with hb | hb | hb
      · obtain ⟨hab, hba⟩ := equals_eq_false_of_boolean ha hb
        rw [hab, hba]
      · rw [Bool.eq_iff_iff, equals_of_text (.inr hb), equals_of_text (.inl hb), eq_comm]
      · exact absurd (ha.trans hb.symm) hkind

/-- The equalities of leaves agree. `equals` is the same from either side, and every
leaf `equals` itself. Leaves that are `IsNumeric` are equal when `compare` in the kind
of decimals says so, and leaves of which one is a text when `compare` in the kind of
texts does. A boolean equals no number and no decimal. And `sameVariant` holds of leaves
that are equal and of one `kind`. -/
theorem equalities_agree (a b : Leaf) :
    a.equals b = b.equals a ∧ a.equals a = true ∧
    (a.IsNumeric → b.IsNumeric →
      (a.equals b = true ↔ compare .equals .decimal a b = .ok true)) ∧
    (a.kind = .text ∨ b.kind = .text →
      (a.equals b = true ↔ compare .equals .text a b = .ok true)) ∧
    (a.kind = .boolean → b.IsNumeric → a.equals b = false ∧ b.equals a = false) ∧
    (a.sameVariant b = true ↔ a.equals b = true ∧ a.kind = b.kind) := by
  refine ⟨equals_comm a b, ?self, ?decimals, ?texts, equals_eq_false_of_boolean, ?variant⟩
  case self => rw [equals_of_kind_eq rfl, sameVariant_self]
  case decimals =>
    intro ha hb
    -- Both sides read the leaves as decimals, and a leaf has one decimal.
    obtain ⟨x, y, hx, hy, hequals⟩ := equals_of_numeric ha hb
    rw [hequals, compare_equals_decimal_iff]
    constructor
    · intro hvalue
      exact ⟨x, y, hx, hy, hvalue⟩
    · rintro ⟨x', y', hx', hy', hvalue⟩
      obtain rfl : x = x' := Except.ok.inj (hx.symm.trans hx')
      obtain rfl : y = y' := Except.ok.inj (hy.symm.trans hy')
      exact hvalue
  case texts =>
    intro h
    rw [equals_of_text h, compare_equals_text_iff]
  case variant =>
    constructor
    · intro h
      have hkind := kind_eq_of_sameVariant h
      exact ⟨(equals_of_kind_eq hkind).trans h, hkind⟩
    · rintro ⟨hequals, hkind⟩
      rw [← equals_of_kind_eq hkind, hequals]

/-- Two, two with two zeros after the point, and the text of the latter. The number and the
decimal are equal and compare so, but not of one kind; the text shows the zeros, so only the
decimal is equal to it. -/
theorem equalities_agree_two :
    let two : Leaf := number ⟨2, by decide, by decide⟩
    let exact : Leaf := decimal ⟨false, 200, 2, by decide, by decide⟩
    compare .equals .decimal two exact = .ok true ∧ two.equals exact = true ∧
    two.sameVariant exact = false ∧
    compare .equals .text exact (text "2.00") = .ok true ∧ exact.equals (text "2.00") = true ∧
    two.equals (text "2.00") = false ∧ (boolean true).equals two = false := by
  intro two exact
  have hdecimal : compare .equals .decimal two exact = .ok true := rfl
  have htext : compare .equals .text exact (text "2.00") = .ok true :=
    compare_equals_text_iff.mpr (by decide +kernel)
  have hother : compare .equals .text two (text "2.00") ≠ .ok true :=
    mt compare_equals_text_iff.mp (by decide +kernel)
  refine ⟨hdecimal, ?_, ?_, htext, ?_, ?_, ?_⟩
  · exact ((equalities_agree two exact).2.2.1 (.inl rfl) (.inr rfl)).mpr hdecimal
  · rw [Bool.eq_false_iff]
    intro hsame
    cases ((equalities_agree two exact).2.2.2.2.2.mp hsame).2
  · exact ((equalities_agree exact (text "2.00")).2.2.2.1 (.inr rfl)).mpr htext
  · rw [Bool.eq_false_iff, ne_eq, (equalities_agree two (text "2.00")).2.2.2.1 (.inr rfl)]
    exact hother
  · exact ((equalities_agree (boolean true) two).2.2.2.2.1 rfl (.inl rfl)).1

end Leaf

end EntityRules
