import EntityRules.Proofs.Leaf.RoundTrip
import EntityRules.Proofs.Leaf.WholeNumbers

/-!
# `EntityRules.Proofs.Leaf.Coercions`: numbers and decimals read as one another

A number widens to the decimal that is its integer, and a decimal cuts off its fraction to
become a number, if there is one. Nothing is lost on the way there and back, and what is cut
off never turns the order of two leaves around.

* `Decimal.IntegerPart`, `Decimal.integerPart_iff`: the integer part of a decimal by what
  rounding toward zero means, and that truncation computes it, whatever sign and scale.
* `Decimal.truncate_le_truncate`: truncation keeps order. Counted in units, all decimals
  are divided by the same power of ten, so it is the order of quotients by one divisor.
* `Decimal.text_ofNumber`: a number and its decimal show the same text, so a JSON integer
  is the same number by its value and by its text.
* `Leaf.coercions_exact`: from there the coercions of leaves.
-/

set_option autoImplicit false

namespace EntityRules

open Proofs

/-- `order` has a number at most another when its integer is. -/
theorem Number.lessThanEquals_order_iff {l r : Number} :
    ComparatorOp.lessThanEquals.holds (l.order r) = true ↔ l.toInt ≤ r.toInt := by
  rw [ComparatorOp.holds, order, bne_iff_ne, Int.compare_ne_gt]

namespace Decimal

variable {d l r : Decimal} {q : Int}

/-! ### The integer part -/

/-- `d.IntegerPart q`: `q` is the signed mantissa of `d` divided by the power of ten of
its scale, rounded toward zero. -/
def IntegerPart (d : Decimal) (q : Int) : Prop :=
  ∃ fraction, TruncatedDivision d.signed (10 ^ d.scale) q fraction

/-- `truncate` is division of the `signed` mantissa. -/
theorem truncate_eq_tdiv (d : Decimal) : d.truncate = d.signed.tdiv (10 ^ d.scale) := by
  have hpower : ((10 : Int) ^ d.scale) = ((10 ^ d.scale : Nat) : Int) := by push_cast; rfl
  rw [truncate, signed, hpower]
  cases d.negative with
  | false => exact (Int.ofNat_tdiv ..).symm
  | true =>
      show -((d.mantissa / 10 ^ d.scale : Nat) : Int) = (-(d.mantissa : Int)).tdiv _
      rw [Int.neg_tdiv, ← Int.ofNat_tdiv]

/-- `truncate` gives the `IntegerPart`, and there is only one. -/
theorem integerPart_iff : d.IntegerPart q ↔ d.truncate = q := by
  have hpower : (10 : Int) ^ d.scale ≠ 0 := Int.pow_ne_zero (by decide)
  simp only [IntegerPart, truncatedDivision_iff, truncate_eq_tdiv]
  constructor
  · rintro ⟨fraction, -, hquotient, -⟩
    exact hquotient
  · intro hquotient
    exact ⟨_, hpower, hquotient, rfl⟩

/-! ### Order -/

/-- `truncate` of a decimal of any scale is one and the same division of its `units`. -/
theorem truncate_eq_units_tdiv (d : Decimal) : d.truncate = d.units.tdiv (10 ^ 28) := by
  have hscale : (10 : Int) ^ 28 = 10 ^ d.scale * 10 ^ (28 - d.scale) := by
    rw [← Int.pow_add, Nat.add_sub_cancel' d.scale_le]
  have hpower : (0 : Int) < 10 ^ (28 - d.scale) := Int.pow_pos (by decide)
  -- The zeros that bring the mantissa to scale 28 are a factor of both sides.
  rw [truncate_eq_tdiv, units, hscale, Int.mul_tdiv_mul_of_pos_left _ _ hpower]

/-- `truncate` keeps the order of `units`. -/
theorem truncate_le_truncate (h : l.units ≤ r.units) : l.truncate ≤ r.truncate := by
  rw [truncate_eq_units_tdiv, truncate_eq_units_tdiv]
  exact Int.tdiv_le_tdiv (by decide) h

/-- `order` has a decimal at most another when it counts no more `units`. -/
theorem lessThanEquals_order_iff :
    ComparatorOp.lessThanEquals.holds (l.order r) = true ↔ l.units ≤ r.units := by
  rw [ComparatorOp.holds, order, bne_iff_ne, Int.compare_ne_gt]

/-! ### The text of a number -/

variable (n : Number)

/-- `digits` of `ofNumber n` are those of the integer: none stand after the point, so no
zero is put in front. -/
theorem digits_ofNumber : (ofNumber n).digits = Nat.toDigits 10 n.toInt.natAbs := by
  have hlength : 0 < (Nat.toDigits 10 n.toInt.natAbs).length := Nat.length_toDigits_pos
  have hnone : 1 - (Nat.toDigits 10 n.toInt.natAbs).length = 0 := by omega
  show List.leftpad (0 + 1) '0' (Nat.toDigits 10 n.toInt.natAbs) = _
  rw [List.leftpad, Nat.zero_add, hnone, List.replicate_zero, List.nil_append]

/-- `chars` of `ofNumber n` are its sign and its digits. -/
theorem chars_ofNumber : (ofNumber n).chars =
    (if n.toInt < 0 then ['-'] else []) ++ Nat.toDigits 10 n.toInt.natAbs := by
  have hwhole : (ofNumber n).wholeDigits = (ofNumber n).digits := List.take_length
  have hscale : (ofNumber n).scale = 0 := rfl
  have hsign : (ofNumber n).negative = decide (n.toInt < 0) := rfl
  rw [chars, hwhole, digits_ofNumber, hscale, if_pos rfl, List.append_nil, hsign]
  simp only [decide_eq_true_eq]

/-- `toString` of an integer shows its sign and its digits. -/
theorem toList_toString_int (x : Int) : (toString x).toList =
    (if x < 0 then ['-'] else []) ++ Nat.toDigits 10 x.natAbs := by
  cases x with
  | ofNat m =>
      have hsign : ¬ Int.ofNat m < 0 := Int.not_lt.mpr (Int.natCast_nonneg m)
      show (Nat.repr m).toList = _
      rw [Nat.toList_repr, if_neg hsign]
      rfl
  | negSucc m =>
      show ("-" ++ Nat.repr (m + 1)).toList = _
      rw [String.toList_append, Nat.toList_repr, if_pos (Int.negSucc_lt_zero m)]
      rfl

/-- `ofNumber n` shows the same `text` as `n`. -/
theorem text_ofNumber : (ofNumber n).text = n.text := by
  rw [← String.toList_inj, text, String.toList_ofList, chars_ofNumber, Number.text,
    toList_toString_int]

/-- `ofNumber n` is no zero with a minus. -/
theorem canonical_ofNumber : (ofNumber n).canonical = ofNumber n := by
  rw [canonical_eq_self_iff]
  rintro ⟨hnegative, hzero⟩
  have hlt : n.toInt < 0 := of_decide_eq_true hnegative
  have habs : n.toInt.natAbs = 0 := hzero
  omega

end Decimal

namespace Leaf

variable {a b : Leaf} {d : Decimal} {n m : Number} {e : EvalError}

/-! ### Decimals as numbers -/

/-- `asNumber` of a decimal is the number that it truncates to. -/
theorem asNumber_decimal_eq_ok_iff : (decimal d).asNumber = .ok n ↔ d.truncate = n.toInt := by
  rw [asNumber, truncated, Decimal.toNumber?, eq_comm (a := d.truncate),
    ← Number.ofInt?_eq_some_iff]
  split
  · next m hm => simp [hm]
  · next hnone => simp [hnone]

/-- `asNumber` refuses a decimal that truncates to no number, and the refusal shows it.
-/
theorem asNumber_decimal_eq_error_iff : (decimal d).asNumber = .error e ↔
    ¬ Number.Fits d.truncate ∧ e = .arithmetic (.outOfRange d) := by
  rw [asNumber, truncated, Decimal.toNumber?, ← Number.ofInt?_eq_none_iff]
  split
  · next m hm => simp [hm]
  · next hnone => simp [hnone, eq_comm]

/-! ### Comparisons -/

/-- `asDecimal` is there where `asNumber` is, and truncates to it. -/
theorem exists_asDecimal_of_asNumber (h : a.asNumber = .ok n) :
    ∃ x, a.asDecimal = .ok x ∧ x.truncate = n.toInt := by
  cases a with
  | number k =>
      cases h
      exact ⟨_, rfl, (Decimal.whole_ofNumber _).truncate_eq⟩
  | decimal d => exact ⟨d, rfl, asNumber_decimal_eq_ok_iff.mp h⟩
  | text s => cases h
  | boolean x => cases h

/-- `compare` in the kind of decimals is a comparison of what `asDecimal` gives. -/
theorem compare_decimal_of_asDecimal (op : ComparatorOp) {x y : Decimal}
    (ha : a.asDecimal = .ok x) (hb : b.asDecimal = .ok y) :
    compare op .decimal a b = .ok (op.holds (x.order y)) := by
  simp only [compare, ha, hb, except_bind_ok, except_pure]

/-- `compare` in the kind of numbers is a comparison of what `asNumber` gives. -/
theorem compare_number_of_asNumber (op : ComparatorOp)
    (ha : a.asNumber = .ok n) (hb : b.asNumber = .ok m) :
    compare op .number a b = .ok (op.holds (n.order m)) := by
  simp only [compare, ha, hb, except_bind_ok, except_pure]

/-- `compare` has leaves in order as numbers if it has them in order as decimals. -/
theorem compare_lessThanEquals_number (ha : a.asNumber = .ok n) (hb : b.asNumber = .ok m)
    (h : compare .lessThanEquals .decimal a b = .ok true) :
    compare .lessThanEquals .number a b = .ok true := by
  obtain ⟨x, hx, hxn⟩ := exists_asDecimal_of_asNumber ha
  obtain ⟨y, hy, hym⟩ := exists_asDecimal_of_asNumber hb
  -- A number is what its own decimal truncates to, so both kinds of leaves are one case.
  rw [compare_decimal_of_asDecimal _ hx hy] at h
  have hunits : x.units ≤ y.units := Decimal.lessThanEquals_order_iff.mp (Except.ok.inj h)
  have hle : n.toInt ≤ m.toInt := by
    rw [← hxn, ← hym]
    exact Decimal.truncate_le_truncate hunits
  rw [compare_number_of_asNumber _ ha hb, Number.lessThanEquals_order_iff.mpr hle]

/-! ### JSON integers -/

/-- `readDecimal` of a JSON integer in range is `ofNumber` of it. -/
theorem readDecimal_int (n : Number) : readDecimal (.int n.toInt) = .ok (.ofNumber n) := by
  have htext : (Json.int n.toInt).compact = (Decimal.ofNumber n).text := by
    rw [Decimal.text_ofNumber]
    exact String.ofList_toList
  have hread : Decimal.read (Json.int n.toInt).compact = .ok (.ofNumber n) := by
    rw [htext, Decimal.read_text, Decimal.canonical_ofNumber]
  rw [readDecimal, numeral?]
  simp only [hread]

/-! ### The coercions -/

/-- Numeric coercions are exact and keep order. `asDecimal` of a number is the decimal
that is its integer (`Decimal.Whole`), and `asNumber` reads it back. `asNumber` of a
decimal is its `Decimal.IntegerPart`, rounded toward zero, if this `Number.Fits`, and an
arithmetic error otherwise. Leaves that have numbers and are in order as decimals, by
`compare`, are in order as numbers. And a JSON integer in range is the same number at
once and through the decimal that its text reads as. -/
theorem coercions_exact :
    (∀ n, ∃ d, (number n).asDecimal = .ok d ∧ d.Whole n.toInt ∧ (decimal d).asNumber = .ok n) ∧
    (∀ d : Decimal, ∃ q, d.IntegerPart q ∧
      (∀ n, (decimal d).asNumber = .ok n ↔ q = n.toInt) ∧
      ∀ e, (decimal d).asNumber = .error e ↔
        ¬ Number.Fits q ∧ e = .arithmetic (.outOfRange d)) ∧
    (∀ (a b : Leaf) (n m : Number), a.asNumber = .ok n → b.asNumber = .ok m →
      compare .lessThanEquals .decimal a b = .ok true →
        compare .lessThanEquals .number a b = .ok true) ∧
    ∀ n : Number, (Json.int n.toInt).asNumber? = some n ∧
      ofJson .number (.int n.toInt) = .ok (number n) ∧
      ∃ d, readDecimal (.int n.toInt) = .ok d ∧ d.toNumber? = some n := by
  refine ⟨?widening, ?truncation, ?order, ?json⟩
  case widening =>
    intro n
    have hwhole := Decimal.whole_ofNumber n
    exact ⟨_, rfl, hwhole, asNumber_decimal_eq_ok_iff.mpr hwhole.truncate_eq⟩
  case truncation =>
    intro d
    exact ⟨d.truncate, Decimal.integerPart_iff.mpr rfl, fun n => asNumber_decimal_eq_ok_iff,
      fun e => asNumber_decimal_eq_error_iff⟩
  case order =>
    intro a b n m ha hb
    exact compare_lessThanEquals_number ha hb
  case json =>
    intro n
    have hvalue : (Json.int n.toInt).asNumber? = some n := n.ofInt?_toInt
    have hnumber : (Decimal.ofNumber n).toNumber? = some n := by
      rw [Decimal.toNumber?, (Decimal.whole_ofNumber n).truncate_eq, Number.ofInt?_toInt]
    refine ⟨hvalue, ?_, _, readDecimal_int n, hnumber⟩
    -- The reader takes the integer as it is and never comes to its text.
    rw [ofJson, readNumber, hvalue]
    rfl

/-- Nine tenths below the least number still truncate to it, and one above the greatest is
refused. `-2.9` and `-2.1` are in order, and as numbers they are both `-2`. -/
theorem coercions_exact_bounds :
    let least : Number := ⟨-2 ^ 63, by decide, by decide⟩
    let below : Decimal := ⟨true, 92233720368547758089, 1, by decide, by decide⟩
    let above : Decimal := ⟨false, 92233720368547758080, 1, by decide, by decide⟩
    let low : Leaf := decimal ⟨true, 29, 1, by decide, by decide⟩
    let high : Leaf := decimal ⟨true, 21, 1, by decide, by decide⟩
    (decimal below).asNumber = .ok least ∧
    (decimal above).asNumber = .error (.arithmetic (.outOfRange above)) ∧
    low.asNumber = .ok ⟨-2, by decide, by decide⟩ ∧
    high.asNumber = .ok ⟨-2, by decide, by decide⟩ ∧
    compare .lessThanEquals .decimal low high = .ok true ∧
    compare .lessThanEquals .number low high = .ok true := by
  intro least below above low high
  have hbelow : (decimal below).asNumber = .ok least := by
    obtain ⟨q, hq, hok, -⟩ := coercions_exact.2.1 below
    exact (hok least).mpr ((Decimal.integerPart_iff.mp hq).symm.trans (by decide))
  have habove : (decimal above).asNumber = .error (.arithmetic (.outOfRange above)) := by
    obtain ⟨q, hq, -, herror⟩ := coercions_exact.2.1 above
    rw [herror, ← Decimal.integerPart_iff.mp hq]
    exact ⟨by decide, rfl⟩
  have hlow : low.asNumber = .ok ⟨-2, by decide, by decide⟩ := rfl
  have hhigh : high.asNumber = .ok ⟨-2, by decide, by decide⟩ := rfl
  have hdecimal : compare .lessThanEquals .decimal low high = .ok true := rfl
  exact ⟨hbelow, habove, hlow, hhigh, hdecimal,
    coercions_exact.2.2.1 low high _ _ hlow hhigh hdecimal⟩

end Leaf

end EntityRules
