import EntityRules.Leaf.Arithmetic
import EntityRules.Proofs.Decimal.Quotients
import EntityRules.Proofs.Expr.Arithmetic

/-!
# `EntityRules.Proofs.Leaf.WholeNumbers`: numbers calculate alike as decimals

A number can be calculated with as it is, or as the decimal without digits after the
point. `Decimal.Whole` says that a decimal is such an integer, whether a number holds it
or not, and it is what the operations keep.

* `Decimal.Whole.exists_add?`, `Decimal.Whole.exists_mul?`, `Decimal.Whole.exists_mod?`:
  sums, products and remainders of integers are integers, and exact.
* `Decimal.Whole.exists_div?`: a quotient has digits after the point, and without them
  is the quotient of the integers.
* `Decimal.order_ofNumber`: numbers are ordered as their decimals are.
* `Leaf.number_decimal_agree`: from there the steps of arithmetic and the comparisons.
-/

set_option autoImplicit false

namespace EntityRules

open Proofs

namespace Decimal

/-! ### Integers among the decimals -/

/-- `d.Whole x`: the decimal is the integer `x`, without digits after the point; zero
has no sign. -/
structure Whole (d : Decimal) (x : Int) : Prop where
  negative_eq : d.negative = decide (x < 0)
  mantissa_eq : d.mantissa = x.natAbs
  scale_eq : d.scale = 0

variable {d l r : Decimal} {x y : Int} {n : Number}

/-- `ofNumber n` is `Whole`, the integer of `n`. -/
theorem whole_ofNumber (n : Number) : (ofNumber n).Whole n.toInt := ⟨rfl, rfl, rfl⟩

/-- `ofNumber n` is the only decimal that is `Whole` with the integer of `n`. -/
theorem Whole.eq_ofNumber (h : d.Whole n.toInt) : d = ofNumber n := by
  obtain ⟨negative, mantissa, scale, hmantissa, hscale⟩ := d
  obtain ⟨rfl, rfl, rfl⟩ := h
  rfl

/-- `signed` of a decimal that is the integer `x` is `x`. -/
theorem Whole.signed_eq (h : d.Whole x) : d.signed = x := by
  rw [signed, h.negative_eq, h.mantissa_eq]
  split
  · next hneg => rw [decide_eq_true_iff] at hneg; omega
  · next hneg => rw [decide_eq_true_iff] at hneg; omega

/-- `signedAt 0` is the integer itself. -/
theorem Whole.signedAt_zero (h : d.Whole x) : d.signedAt 0 = x := by
  rw [signedAt, h.signed_eq, Nat.zero_sub]
  exact Int.mul_one x

/-- `truncate` finds no fraction to cut off. -/
theorem Whole.truncate_eq (h : d.Whole x) : d.truncate = x := by
  have hsigned := h.signed_eq
  rw [signed] at hsigned
  rw [truncate, h.scale_eq, Nat.pow_zero, Nat.div_one]
  exact hsigned

/-- `isZero` holds of the integer zero only. -/
theorem Whole.isZero_iff (h : d.Whole x) : d.isZero = true ↔ x = 0 := by
  rw [isZero, h.mantissa_eq, beq_iff_eq, Int.natAbs_eq_zero]

/-- `neg` of the integer `x` is `-x`. -/
theorem Whole.neg (h : d.Whole x) : d.neg.Whole (-x) := by
  rw [Decimal.neg]
  split
  · next hzero =>
      have hx : x = 0 := h.isZero_iff.mp hzero
      subst hx
      exact h
  · next hzero =>
      have hx : x ≠ 0 := fun hx => hzero (h.isZero_iff.mpr hx)
      refine ⟨?_, ?_, h.scale_eq⟩
      · show (!d.negative) = _
        rw [h.negative_eq, ← decide_not, decide_eq_decide]
        omega
      · show d.mantissa = _
        rw [h.mantissa_eq, Int.natAbs_neg]

/-- `ofParts?` makes an integer of parts without digits after the point; a zero loses
its sign. -/
theorem exists_whole_ofParts? {negative : Bool} {mantissa : Nat}
    (hvalue : (if negative then -(mantissa : Int) else mantissa) = x) (hlt : mantissa < 2 ^ 96) :
    ∃ d, ofParts? negative mantissa 0 = some d ∧ d.Whole x := by
  rw [ofParts?, signedParts?, dif_pos ⟨hlt, by decide⟩]
  refine ⟨_, rfl, ?_, ?_, rfl⟩
  · show (negative && mantissa != 0) = decide (x < 0)
    rw [Bool.eq_iff_iff, Bool.and_eq_true, bne_iff_ne, decide_eq_true_iff]
    cases negative with
    | false => simp at hvalue ⊢; omega
    | true => simp at hvalue ⊢; omega
  · show mantissa = x.natAbs
    split at hvalue <;> omega

/-- `fit?` has nothing to round without digits after the point. -/
theorem fit?_zero {mantissa : Nat} (h : mantissa < 2 ^ 96) :
    fit? mantissa 0 = some (mantissa, 0) := by
  have hround : roundHalfEven mantissa 1 = mantissa := by
    rw [roundHalfEven, Nat.div_one, Nat.mod_one]
    simp
  have hlimit : mantissa < mantissaLimit := h
  simp [fit?, maxScale, hround, hlimit]

/-! ### The operations on integers -/

/-- `add?` of integers is exact. -/
theorem Whole.exists_add? (hl : l.Whole x) (hr : r.Whole y) (hsum : (x + y).natAbs < 2 ^ 96) :
    ∃ d, l.add? r = some d ∧ d.Whole (x + y) := by
  rw [add?]
  split
  -- Zero gives the other one back as it is.
  · next hzero =>
      rw [hl.isZero_iff.mp hzero, Int.zero_add]
      exact ⟨r, rfl, hr⟩
  · split
    · next hzero =>
        rw [hr.isZero_iff.mp hzero, Int.add_zero]
        exact ⟨l, rfl, hl⟩
    -- Otherwise the mantissas are added without a digit after the point.
    · simp only [hl.scale_eq, hr.scale_eq, Nat.max_self, hl.signedAt_zero, hr.signedAt_zero,
        fitted?, fit?_zero hsum, Option.bind_eq_bind, Option.bind_some]
      refine exists_whole_ofParts? ?_ hsum
      split
      · next hneg => rw [decide_eq_true_iff] at hneg; omega
      · next hneg => rw [decide_eq_true_iff] at hneg; omega

/-- A product of integers that are not zero is negative when one of them is and the
other is not. -/
theorem decide_neg_bne (hx : x ≠ 0) (hy : y ≠ 0) :
    (decide (x < 0) != decide (y < 0)) = decide (x * y < 0) := by
  rw [Bool.eq_iff_iff, bne_iff_ne, ne_eq, decide_eq_decide, decide_eq_true_iff]
  rcases Int.lt_or_gt_of_ne hx with hx | hx
  · rcases Int.lt_or_gt_of_ne hy with hy | hy
    · have hproduct := Int.mul_pos_of_neg_of_neg hx hy
      omega
    · have hproduct := Int.mul_neg_of_neg_of_pos hx hy
      omega
  · rcases Int.lt_or_gt_of_ne hy with hy | hy
    · have hproduct := Int.mul_neg_of_pos_of_neg hx hy
      omega
    · have hproduct := Int.mul_pos hx hy
      omega

/-- `mul?` of integers is exact. -/
theorem Whole.exists_mul? (hl : l.Whole x) (hr : r.Whole y) (hproduct : (x * y).natAbs < 2 ^ 96) :
    ∃ d, l.mul? r = some d ∧ d.Whole (x * y) := by
  rw [mul?]
  by_cases hzero : l.isZero || r.isZero
  -- A product with zero is zero without a sign.
  · have hproduct : x * y = 0 := by
      rw [Bool.or_eq_true, hl.isZero_iff, hr.isZero_iff] at hzero
      exact Int.mul_eq_zero.mpr hzero
    rw [hproduct]
    exact ⟨zero, by simp [hzero], rfl, rfl, rfl⟩
  -- Any other has the product of the mantissas, and no digit to round.
  · obtain ⟨hx, hy⟩ : x ≠ 0 ∧ y ≠ 0 := by
      rw [Bool.or_eq_true, hl.isZero_iff, hr.isZero_iff, not_or] at hzero
      exact hzero
    have hmantissa : l.mantissa * r.mantissa = (x * y).natAbs := by
      rw [hl.mantissa_eq, hr.mantissa_eq, Int.natAbs_mul]
    have hnonzero : ((x * y).natAbs != 0) = true := by
      rw [bne_iff_ne, Int.natAbs_mul]
      exact Nat.mul_ne_zero (Int.natAbs_ne_zero.mpr hx) (Int.natAbs_ne_zero.mpr hy)
    have hparts : signedParts? (decide (x * y < 0)) (x * y).natAbs 0 =
        some ⟨decide (x * y < 0), (x * y).natAbs, 0, hproduct, by decide⟩ :=
      dif_pos ⟨hproduct, by decide⟩
    refine ⟨⟨decide (x * y < 0), (x * y).natAbs, 0, hproduct, by decide⟩, ?_, rfl, rfl, rfl⟩
    rw [← hparts]
    simp [hzero, hl.scale_eq, hr.scale_eq, hmantissa, fit?_zero hproduct, hnonzero,
      hl.negative_eq, hr.negative_eq, decide_neg_bne hx hy]

/-- `mod?` of integers is exact, if the divisor is a word of 64 bits. -/
theorem Whole.exists_mod? (hl : l.Whole x) (hr : r.Whole y) (hy : y ≠ 0)
    (hword : r.mantissa < 2 ^ 64) : ∃ d, l.mod? r = some d ∧ d.Whole (x.tmod y) := by
  rw [hr.mantissa_eq] at hword
  have habs : (x.tmod y).natAbs = x.natAbs % y.natAbs := Int.natAbs_tmod ..
  have hsmall : x.natAbs % y.natAbs < y.natAbs := Nat.mod_lt _ (Int.natAbs_pos.mpr hy)
  have hdivision : TruncatedDivision x y _ _ := truncatedDivision_iff.mpr ⟨hy, rfl, rfl⟩
  have hnonneg := hdivision.nonneg
  have hnonpos := hdivision.nonpos
  have hzero : x.tmod y = 0 → zero.Whole (x.tmod y) := fun h => h ▸ ⟨rfl, rfl, rfl⟩
  rw [mod?]
  split
  -- Nothing remains of zero.
  · next hl0 =>
      have hx : x = 0 := hl.isZero_iff.mp hl0
      exact ⟨zero, rfl, hzero (by omega)⟩
  · simp only [hl.scale_eq, hr.scale_eq, Nat.max_self, hl.signedAt_zero, hr.signedAt_zero]
    split
    -- Nothing remains if the mantissas are the same.
    · next heq =>
        rw [heq, Nat.mod_self] at habs
        exact ⟨zero, rfl, hzero (by omega)⟩
    · split
      -- All of a smaller mantissa remains.
      · next hlt =>
          rw [Nat.mod_eq_of_lt hlt] at habs
          have hsame : x.tmod y = x := by omega
          refine ⟨l, rfl, ?_⟩
          rw [hsame]
          exact hl
      · -- Only a divisor of more than 64 bits is treated in another way.
        have hnarrow : ¬ isWide y.natAbs = true := by
          rw [isWide, decide_eq_true_iff]
          omega
        rw [if_neg hnarrow]
        refine exists_whole_ofParts? ?_ (by omega)
        rw [hl.negative_eq]
        split
        · next hneg => rw [decide_eq_true_iff] at hneg; omega
        · next hneg => rw [decide_eq_true_iff] at hneg; omega

/-- `Int.tdiv` by the signs and the mantissas of the integers. -/
theorem tdiv_eq_ite (x y : Int) : x.tdiv y =
    if decide (x < 0) != decide (y < 0) then -((x.natAbs / y.natAbs : Nat) : Int)
      else (x.natAbs / y.natAbs : Nat) := by
  have habs : (x.tdiv y).natAbs = x.natAbs / y.natAbs := Int.natAbs_tdiv ..
  -- The amount is the same in all cases, and the signs give the sign.
  rcases Int.lt_or_le x 0 with hx | hx
  · rcases Int.lt_or_le y 0 with hy | hy
    · have hsign := Int.tdiv_nonneg_of_nonpos_of_nonpos (Int.le_of_lt hx) (Int.le_of_lt hy)
      rw [decide_eq_true hx, decide_eq_true hy]
      show _ = ((x.natAbs / y.natAbs : Nat) : Int)
      omega
    · have hsign := Int.tdiv_nonneg (Int.neg_nonneg_of_nonpos (Int.le_of_lt hx)) hy
      rw [Int.neg_tdiv] at hsign
      rw [decide_eq_true hx, decide_eq_false (Int.not_lt.mpr hy)]
      show _ = -((x.natAbs / y.natAbs : Nat) : Int)
      omega
  · rcases Int.lt_or_le y 0 with hy | hy
    · have hsign := Int.tdiv_nonpos_of_nonneg_of_nonpos hx (Int.le_of_lt hy)
      rw [decide_eq_false (Int.not_lt.mpr hx), decide_eq_true hy]
      show _ = -((x.natAbs / y.natAbs : Nat) : Int)
      omega
    · have hsign := Int.tdiv_nonneg hx hy
      rw [decide_eq_false (Int.not_lt.mpr hx), decide_eq_false (Int.not_lt.mpr hy)]
      show _ = ((x.natAbs / y.natAbs : Nat) : Int)
      omega

/-- `div?` of integers has the quotient of the integers before the point. -/
theorem Whole.exists_div? (hl : l.Whole x) (hr : r.Whole y) (hy : y ≠ 0)
    (hdividend : l.mantissa < 2 ^ 64) (hword : r.mantissa < 2 ^ 64) :
    ∃ d, l.div? r = some d ∧ d.truncate = x.tdiv y := by
  have hdivisor : 0 < r.mantissa := by
    rw [hr.mantissa_eq]
    exact Int.natAbs_pos.mpr hy
  obtain ⟨d, hd, htruncate⟩ :=
    Decimal.exists_div? hl.scale_eq hr.scale_eq hdividend hword hdivisor
  refine ⟨d, hd, ?_⟩
  rw [htruncate, tdiv_eq_ite, hl.negative_eq, hr.negative_eq, hl.mantissa_eq, hr.mantissa_eq]

/-! ### Numbers as decimals -/

/-- `ofNumber n` has a word of 64 bits as its mantissa. -/
theorem mantissa_ofNumber_lt (n : Number) : (ofNumber n).mantissa < 2 ^ 64 := by
  have hfits := n.fits_toInt
  rw [Number.Fits] at hfits
  show n.toInt.natAbs < 2 ^ 64
  omega

/-- `ofNumber` keeps `order`. -/
theorem order_ofNumber (a b : Number) : (ofNumber a).order (ofNumber b) = a.order b := by
  have hunits : ∀ n : Number, (ofNumber n).units = n.toInt * 10 ^ 28 := by
    intro n
    rw [units, (whole_ofNumber n).signed_eq]
    rfl
  have hlt : a.toInt * 10 ^ 28 < b.toInt * 10 ^ 28 ↔ a.toInt < b.toInt := by omega
  have heq : a.toInt * 10 ^ 28 = b.toInt * 10 ^ 28 ↔ a.toInt = b.toInt := by omega
  rw [order, Number.order, hunits, hunits]
  simp only [compare, compareOfLessAndEq, hlt, heq]

end Decimal

namespace ArithmeticOp

/-- `onDecimals?` has a result where `onNumbers` has one. It truncates to that, and it
is that unless a quotient was rounded. -/
theorem exists_onDecimals? {op : ArithmeticOp} {a b n : Number}
    (h : op.onNumbers a b = .ok n) :
    ∃ d, op.onDecimals? (.ofNumber a) (.ofNumber b) = some d ∧
      (op ≠ .divide → d.Whole n.toInt) ∧ d.truncate = n.toInt := by
  obtain ⟨hgives, -⟩ := onNumbers_eq_ok_iff.mp h
  obtain ⟨hzero, hn⟩ := gives_iff.mp hgives
  have ha := Decimal.whole_ofNumber a
  have hb := Decimal.whole_ofNumber b
  -- The result is a number, so it has less than 96 bits.
  have hfits : n.toInt.natAbs < 2 ^ 96 := by
    have hfits := n.fits_toInt
    rw [Number.Fits] at hfits
    omega
  have hexact : ∀ {result : Option Decimal}, (∃ d, result = some d ∧ d.Whole n.toInt) →
      ∃ d, result = some d ∧ (op ≠ .divide → d.Whole n.toInt) ∧ d.truncate = n.toInt := by
    rintro result ⟨d, hd, hwhole⟩
    exact ⟨d, hd, fun _ => hwhole, hwhole.truncate_eq⟩
  rw [← hn] at hfits hexact ⊢
  cases op with
  | add => exact hexact (ha.exists_add? hb hfits)
  | subtract =>
      rw [integer, Int.sub_eq_add_neg] at hfits hexact ⊢
      exact hexact (ha.exists_add? hb.neg hfits)
  | multiply => exact hexact (ha.exists_mul? hb hfits)
  | divide =>
      have hy : b.toInt ≠ 0 := fun hy => hzero ⟨rfl, hy⟩
      obtain ⟨d, hd, htruncate⟩ :=
        ha.exists_div? hb hy (Decimal.mantissa_ofNumber_lt a) (Decimal.mantissa_ofNumber_lt b)
      exact ⟨d, hd, fun hop => absurd rfl hop, htruncate⟩
  | modulus =>
      have hy : b.toInt ≠ 0 := fun hy => hzero ⟨rfl, hy⟩
      exact hexact (ha.exists_mod? hb hy (Decimal.mantissa_ofNumber_lt b))

end ArithmeticOp

namespace Leaf

variable {op : ArithmeticOp} {a b : Number}

/-- `arithmetic` on two numbers in the kind of decimals is `onDecimals?` on their
decimals. -/
theorem arithmetic_decimal_numbers (op : ArithmeticOp) (a b : Number) :
    arithmetic op .decimal (.number a) (.number b) =
      (op.checked (b.toInt == 0) (op.onDecimals? (.ofNumber a) (.ofNumber b))).map .decimal := by
  have hzero : (Decimal.ofNumber b).isZero = (b.toInt == 0) := by
    rw [Bool.eq_iff_iff, (Decimal.whole_ofNumber b).isZero_iff, beq_iff_eq]
  rw [← hzero]
  rfl

/-- `arithmetic` refuses a zero divisor in either kind. -/
theorem arithmetic_by_zero (hop : op.divides = true) (hb : b.toInt = 0) (kind : NumericKind) :
    arithmetic op kind (.number a) (.number b) = .error (.arithmetic (.byZero op)) := by
  have hchecked : ∀ {α : Type} (result : Option α),
      op.checked (b.toInt == 0) result = .error (.arithmetic (.byZero op)) := by
    intro α result
    rw [ArithmeticOp.checked_eq_error_iff]
    exact .inl ⟨⟨hop, beq_iff_eq.mpr hb⟩, rfl⟩
  cases kind with
  | number =>
      show (op.checked (b.toInt == 0) (op.onNumbers? a b)).map number = _
      rw [hchecked]
      rfl
  | decimal =>
      rw [arithmetic_decimal_numbers, hchecked]
      rfl

/-- `arithmetic` on numbers is the same in the kind of numbers and in that of decimals,
as far as there is a number to compare with. Where a step has a number `n` as its
result, the step on decimals has a result too: `Decimal.ofNumber n`, or for a quotient a
decimal that truncates to `n`, however it was rounded. A zero that divides is refused
alike. And `compare` says the same of numbers in both kinds. -/
theorem number_decimal_agree (a b : Number) :
    (∀ (op : ArithmeticOp) (n : Number),
      arithmetic op .number (.number a) (.number b) = .ok (.number n) →
        ∃ d, arithmetic op .decimal (.number a) (.number b) = .ok (.decimal d) ∧
          (op ≠ .divide → d = .ofNumber n) ∧ (decimal d).asNumber = .ok n) ∧
    (∀ op : ArithmeticOp, op.divides = true → b.toInt = 0 → ∀ kind,
      arithmetic op kind (.number a) (.number b) = .error (.arithmetic (.byZero op))) ∧
    ∀ op : ComparatorOp, compare op .number (.number a) (.number b) =
      compare op .decimal (.number a) (.number b) := by
  refine ⟨?_, fun op hop hb => arithmetic_by_zero hop hb, ?_⟩
  · intro op n h
    obtain ⟨m, hm, hn⟩ := except_map_eq_ok.mp
      (show (op.onNumbers a b).map number = .ok (.number n) from h)
    cases hn
    obtain ⟨d, hd, hwhole, htruncate⟩ := ArithmeticOp.exists_onDecimals? hm
    -- The divisor is not zero, since there is a result to divide into.
    have hzero := (ArithmeticOp.checked_eq_ok_iff.mp hm).1
    refine ⟨d, ?_, fun hop => (hwhole hop).eq_ofNumber, ?_⟩
    · rw [arithmetic_decimal_numbers, ArithmeticOp.checked_eq_ok_iff.mpr ⟨hzero, hd⟩]
      rfl
    · rw [asNumber, truncated, Decimal.toNumber?, htruncate, Number.ofInt?_toInt]
  · intro op
    show Except.ok (op.holds (a.order b)) =
      .ok (op.holds ((Decimal.ofNumber a).order (.ofNumber b)))
    rw [Decimal.order_ofNumber]

/-- The greatest number but one falls short of the greatest by less than the digits of a
decimal can tell. Their quotient is rounded up in its last place, and it still truncates
to zero. -/
theorem number_decimal_agree_greatest :
    let greatest : Number := ⟨2 ^ 63 - 1, by decide, by decide⟩
    let before : Number := ⟨2 ^ 63 - 2, by decide, by decide⟩
    let quotient : Decimal := ⟨false, 9999999999999999998915797828, 28, by decide, by decide⟩
    arithmetic .divide .number (.number before) (.number greatest) = .ok (.number .zero) ∧
    arithmetic .divide .decimal (.number before) (.number greatest) = .ok (.decimal quotient) ∧
    (decimal quotient).asNumber = .ok .zero := by
  intro greatest before quotient
  have hnumber : arithmetic .divide .number (.number before) (.number greatest) =
      .ok (.number .zero) := rfl
  have hquotient : (Decimal.ofNumber before).div? (.ofNumber greatest) = some quotient := by
    decide +kernel
  have hdecimal : arithmetic .divide .decimal (.number before) (.number greatest) =
      .ok (.decimal quotient) := by
    rw [arithmetic_decimal_numbers, ArithmeticOp.onDecimals?, hquotient]
    rfl
  obtain ⟨d, hd, -, htruncated⟩ :=
    (number_decimal_agree before greatest).1 .divide .zero hnumber
  rw [hdecimal] at hd
  cases hd
  exact ⟨hnumber, hdecimal, htruncated⟩

end Leaf

end EntityRules
