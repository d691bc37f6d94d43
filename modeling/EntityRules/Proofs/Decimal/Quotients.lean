import EntityRules.Decimal.Arithmetic

/-!
# `EntityRules.Proofs.Decimal.Quotients`: a rounded quotient keeps its whole part

A quotient grows by digits until it is exact or full, and is then rounded. Rounding
moves the last digit, so it could carry through all of them and make the whole part one
more than that of the exact quotient. Between words of 64 bits it never does: the exact
quotient falls short of the next whole number by at least one part of the divisor, and
the last digit of a quotient that was rounded counts for less than that.

* `Quotient.extend_appended`: digit by digit, the division stays the division of the
  scaled dividend, so its state is known at every scale (`appended`).
* `Quotient.exists_complete_appended`: the division ends, with digits that are `Near`
  the exact ones: the same, or one more where the last digit is that fine.
* `Quotient.Near.div_pow`: such digits have the whole part of the exact quotient.
* `Quotient.trims_strip`: stripping takes zeros off the end and nothing else.
-/

set_option autoImplicit false

namespace EntityRules.Decimal

/-- `roundHalfEven` goes down to the quotient or up to the next number. -/
theorem roundHalfEven_eq (n d : Nat) :
    roundHalfEven n d = n / d ∨ roundHalfEven n d = n / d + 1 := by
  show (if _ then _ else _) = _ ∨ (if _ then _ else _) = _
  split
  · exact .inr rfl
  · exact .inl rfl

namespace Quotient

/-! ### Digits of a division -/

/-- `appended dividend divisor count`: the division with `count` digits appended to its
whole part. -/
def appended (dividend divisor count : Nat) (carried : Bool) : Quotient :=
  ⟨dividend * 10 ^ count / divisor, dividend * 10 ^ count % divisor, count, carried⟩

variable {dividend divisor : Nat}

/-- `extend` appends digits: the result is the division with `k + count` of them. -/
theorem extend_appended (hdivisor : 0 < divisor) (k count : Nat) (carried carried' : Bool) :
    (appended dividend divisor k carried).extend divisor count carried' =
      appended dividend divisor (k + count) carried' := by
  have hsplit : dividend * 10 ^ (k + count) =
      divisor * (dividend * 10 ^ k / divisor * 10 ^ count) +
        dividend * 10 ^ k % divisor * 10 ^ count := by
    rw [Nat.pow_add, ← Nat.mul_assoc, ← Nat.mul_assoc, ← Nat.add_mul, Nat.div_add_mod]
  rw [extend, appended, appended, hsplit, Nat.mul_add_div hdivisor, Nat.mul_add_mod]
  simp only [Int.natCast_add]

/-- `room digits bound` stays within `bound`. It is `bound`, or one digit more would
leave 96 bits. -/
theorem room_spec (digits bound : Nat) :
    room digits bound ≤ bound ∧
      (room digits bound ≠ 0 → digits * 10 ^ room digits bound < mantissaLimit) ∧
      (room digits bound = 0 → bound ≠ 0 → mantissaLimit ≤ digits * 10) := by
  induction bound with
  | zero => simp [room]
  | succ n ih =>
      obtain ⟨hle, hfits, hfull⟩ := ih
      rw [room]
      split
      · next hroom => exact ⟨Nat.le_refl _, fun _ => hroom, by omega⟩
      · next hroom =>
          refine ⟨by omega, hfits, fun hzero _ => ?_⟩
          cases n with
          | zero => omega
          | succ n => exact hfull hzero (by omega)

/-! ### Near the exact quotient -/

/-- `Near dividend divisor scale digits`: the digits are those of the exact quotient at
`scale`, or one more in the last place. In the second case the last place is finer than
a part of the divisor. -/
def Near (dividend divisor scale digits : Nat) : Prop :=
  digits = dividend * 10 ^ scale / divisor ∨
    digits = dividend * 10 ^ scale / divisor + 1 ∧ divisor < 10 ^ scale

/-- Digits that are `Near` the exact quotient have its whole part. -/
theorem Near.div_pow {scale digits : Nat} (hdivisor : 0 < divisor)
    (h : Near dividend divisor scale digits) : digits / 10 ^ scale = dividend / divisor := by
  have hpow : 0 < 10 ^ scale := Nat.pow_pos (by decide)
  have hexact : dividend * 10 ^ scale / divisor / 10 ^ scale = dividend / divisor := by
    rw [Nat.div_div_eq_div_mul, Nat.mul_div_mul_right _ _ hpow]
  rcases h with rfl | ⟨rfl, hfine⟩
  · exact hexact
  · -- One more in the last place would have to reach the next whole number.
    have hlow : dividend / divisor * 10 ^ scale ≤ dividend * 10 ^ scale / divisor := by
      rw [← hexact]
      exact Nat.div_mul_le_self _ _
    refine Nat.div_eq_of_lt_le (by omega) (Nat.lt_of_not_le fun hreach => ?_)
    have hnext : dividend + 1 ≤ (dividend / divisor + 1) * divisor :=
      Nat.lt_mul_of_div_lt (Nat.lt_succ_self _) hdivisor
    have hscaled : (dividend + 1) * 10 ^ scale ≤ dividend * 10 ^ scale + divisor := calc
      (dividend + 1) * 10 ^ scale ≤ (dividend / divisor + 1) * divisor * 10 ^ scale :=
        Nat.mul_le_mul_right _ hnext
      _ = (dividend / divisor + 1) * 10 ^ scale * divisor := Nat.mul_right_comm ..
      _ ≤ (dividend * 10 ^ scale / divisor + 1) * divisor := Nat.mul_le_mul_right _ hreach
      _ ≤ dividend * 10 ^ scale + divisor := by
        rw [Nat.add_mul, Nat.one_mul]
        exact Nat.add_le_add_right (Nat.div_mul_le_self _ _) _
    rw [Nat.add_mul, Nat.one_mul] at hscaled
    omega

/-- Where the digits at `scale` outgrow 64 bits, and the dividend has no more, the last
place is finer than a part of the divisor. -/
theorem divisor_lt_pow {scale : Nat} (hdividend : dividend < 2 ^ 64)
    (h : 2 ^ 64 ≤ dividend * 10 ^ scale / divisor) : divisor < 10 ^ scale := by
  have hpow : 0 < 10 ^ scale := Nat.pow_pos (by decide)
  have hscaled : 2 ^ 64 * divisor < 2 ^ 64 * 10 ^ scale := calc
    2 ^ 64 * divisor ≤ dividend * 10 ^ scale / divisor * divisor := Nat.mul_le_mul_right _ h
    _ ≤ dividend * 10 ^ scale := Nat.div_mul_le_self _ _
    _ < 2 ^ 64 * 10 ^ scale := Nat.mul_lt_mul_of_pos_right hdividend hpow
  exact Nat.lt_of_mul_lt_mul_left hscaled

/-- The exact digits at `scale` are those at `scale + 1` without the last. -/
theorem exact_div_ten (dividend divisor scale : Nat) :
    dividend * 10 ^ (scale + 1) / divisor / 10 = dividend * 10 ^ scale / divisor := by
  rw [Nat.div_div_eq_div_mul, Nat.pow_succ, ← Nat.mul_assoc,
    Nat.mul_div_mul_right _ _ (by decide)]

/-- `shortened` leaves the digits before the last one, or one more. -/
theorem shortened_digits (q : Quotient) (divisor : Nat) :
    (q.shortened divisor).digits = q.digits / 10 ∨
      (q.shortened divisor).digits = q.digits / 10 + 1 ∧ q.digits % 10 ≠ 0 := by
  show (if _ then _ else _) = _ ∨ (if _ then _ else _) = _ ∧ _
  split
  · next hup =>
      refine .inr ⟨rfl, fun hzero => ?_⟩
      have hup : 5 < q.digits % 10 ∨ q.digits % 10 = 5 ∧ _ := hup
      omega
  · exact .inl rfl

/-- `Settled dividend divisor q`: what a division has come to when it ends, digits
`Near` the exact ones within the bounds of a decimal. -/
def Settled (dividend divisor : Nat) (q : Quotient) : Prop :=
  ∃ scale : Nat, q.scale = scale ∧ scale ≤ maxScale ∧ q.digits < mantissaLimit ∧
    Near dividend divisor scale q.digits

/-- A quotient that has outgrown 96 bits by its last digit is `Settled` when it is
`shortened`. -/
theorem settled_shortened (hdividend : dividend < 2 ^ 64) {q : Quotient} (scale : Nat)
    (hscale : q.scale = (scale + 1 : Nat)) (hle : scale ≤ maxScale)
    (hdigits : q.digits = dividend * 10 ^ (scale + 1) / divisor ∨
      q.digits = dividend * 10 ^ (scale + 1) / divisor + 1)
    (hout : mantissaLimit ≤ q.digits) (hroom : q.digits < 2 * mantissaLimit) :
    Settled dividend divisor (q.shortened divisor) := by
  have hlimit : mantissaLimit = 2 ^ 96 := rfl
  have hten := exact_div_ten dividend divisor scale
  have hfine : divisor < 10 ^ scale := divisor_lt_pow hdividend (by omega)
  refine ⟨scale, ?_, hle, ?_, ?_⟩
  · show q.scale - 1 = _
    omega
  · rcases shortened_digits q divisor with h | h <;> omega
  · rw [Near]
    rcases shortened_digits q divisor with h | h <;> omega

/-- `rounded` takes the digits of `appended` to those of `roundHalfEven`. -/
theorem digits_rounded_appended (dividend divisor k : Nat) (carried : Bool) :
    ((appended dividend divisor k carried).rounded divisor).digits =
      roundHalfEven (dividend * 10 ^ k) divisor := by
  show roundHalfEven
    (dividend * 10 ^ k / divisor * divisor + dividend * 10 ^ k % divisor) divisor = _
  rw [Nat.div_add_mod']

/-- A division without room for another digit is `Settled` when it is `rounded`, and
also `shortened` where rounding carries through all of its digits. -/
theorem settled_rounded (hdividend : dividend < 2 ^ 64) {k : Nat} (carried : Bool)
    (hk : k ≤ maxScale) (hlimit : dividend * 10 ^ k / divisor < mantissaLimit)
    (hfine : divisor < 10 ^ k) :
    let full := (appended dividend divisor k carried).rounded divisor
    (full.digits < mantissaLimit → Settled dividend divisor full) ∧
      (¬ full.digits < mantissaLimit → Settled dividend divisor (full.shortened divisor)) := by
  intro full
  have hdigits : full.digits = dividend * 10 ^ k / divisor ∨
      full.digits = dividend * 10 ^ k / divisor + 1 := by
    rw [digits_rounded_appended]
    exact roundHalfEven_eq _ _
  have hroom : full.digits < 2 * mantissaLimit := by
    have hbits : mantissaLimit = 2 ^ 96 := rfl
    omega
  refine ⟨fun hlt => ?_, fun hge => ?_⟩
  · refine ⟨k, rfl, hk, hlt, ?_⟩
    rw [Near]
    omega
  · cases k with
    | zero =>
        -- A whole quotient of words is far from 96 bits.
        have hbits : mantissaLimit = 2 ^ 96 := rfl
        have hle : dividend * 10 ^ 0 / divisor ≤ dividend * 10 ^ 0 := Nat.div_le_self ..
        omega
    | succ scale =>
        exact settled_shortened hdividend scale rfl (by omega) hdigits (Nat.le_of_not_lt hge) hroom

/-- A round that appends `count` digits makes a division with more of them. Where that
has outgrown 96 bits, it is `Settled` when it is `shortened`. -/
theorem settled_extended (hdividend : dividend < 2 ^ 64) (hdivisor : 0 < divisor)
    {k count : Nat} (hcount : count ≠ 0) (hnine : count ≤ 9) (hk : k + count ≤ maxScale)
    (hroom : dividend * 10 ^ k / divisor * 10 ^ count < mantissaLimit)
    (hout : mantissaLimit ≤ dividend * 10 ^ (k + count) / divisor) :
    Settled dividend divisor ((appended dividend divisor (k + count) true).shortened divisor) := by
  have hsplit : dividend * 10 ^ (k + count) / divisor =
      dividend * 10 ^ k / divisor * 10 ^ count +
        dividend * 10 ^ k % divisor * 10 ^ count / divisor :=
    congrArg digits (extend_appended hdivisor k count true true).symm
  have hrest : dividend * 10 ^ k % divisor * 10 ^ count / divisor < 10 ^ count :=
    Nat.div_lt_of_lt_mul
      (Nat.mul_lt_mul_of_pos_right (Nat.mod_lt _ hdivisor) (Nat.pow_pos (by decide)))
  have hpow : 10 ^ count ≤ 10 ^ 9 := Nat.pow_le_pow_right (by decide) hnine
  have hsum : dividend * 10 ^ (k + count) / divisor < 2 * mantissaLimit := by
    have hbits : mantissaLimit = 2 ^ 96 := rfl
    omega
  obtain ⟨scale, hscale⟩ : ∃ scale, k + count = scale + 1 := ⟨k + count - 1, by omega⟩
  rw [hscale] at hout hsum ⊢
  exact settled_shortened hdividend scale rfl (by omega) (.inl rfl) hout hsum

/-- `complete` goes on until the division is `Settled`. Every round appends a digit or
ends, so `hfuel` asks for fuel for the digits that are missing. -/
theorem exists_complete_appended (hdividend : dividend < 2 ^ 64) (hdivisor : 0 < divisor)
    (hword : divisor < 2 ^ 64) (fuel k : Nat) (carried : Bool) (hfuel : maxScale < fuel + k)
    (hk : k ≤ maxScale) (hlimit : dividend * 10 ^ k / divisor < mantissaLimit) :
    ∃ q, complete divisor fuel (appended dividend divisor k carried) = some q ∧
      Settled dividend divisor q := by
  induction fuel generalizing k carried with
  | zero => omega
  | succ fuel ih =>
      have hmax : maxScale = 28 := rfl
      have hbits : mantissaLimit = 2 ^ 96 := rfl
      have hscale : (appended dividend divisor k carried).scale = k := rfl
      rw [complete]
      split
      · -- Nothing is left: the quotient is exact.
        rw [if_pos (by omega)]
        exact ⟨_, rfl, k, rfl, hk, hlimit, .inl rfl⟩
      · have hbound : (maxScale - (appended dividend divisor k carried).scale).toNat =
            maxScale - k := by omega
        obtain ⟨hle, hfits, hfull⟩ :=
          room_spec (appended dividend divisor k carried).digits (min 9 (maxScale - k))
        simp only [hbound]
        split
        · next hzero =>
            -- No room: either all places of the scale are used, or all digits.
            have hfine : divisor < 10 ^ k := by
              by_cases hlast : k = maxScale
              · rw [hlast]
                exact Nat.lt_trans hword (by decide)
              · have hmany : mantissaLimit ≤ dividend * 10 ^ k / divisor * 10 :=
                  hfull hzero (by omega)
                exact divisor_lt_pow hdividend (by omega)
            have hsettled := settled_rounded hdividend true hk hlimit hfine
            split
            · next hlt => exact ⟨_, rfl, hsettled.1 hlt⟩
            · next hge => exact ⟨_, rfl, hsettled.2 hge⟩
        · next hcount =>
            rw [extend_appended hdivisor]
            split
            · next hlt => exact ih _ _ (by omega) (by omega) hlt
            · next hge =>
                exact ⟨_, rfl, settled_extended hdividend hdivisor hcount (by omega) (by omega)
                  (hfits hcount) (Nat.le_of_not_lt hge)⟩

/-! ### Stripping zeros -/

/-- `Trims q q'`: the digits of `q` at their scale, without some zeros at their end, are
`q'`. -/
def Trims (q q' : Nat × Nat) : Prop :=
  ∃ zeros, q.1 = q'.1 * 10 ^ zeros ∧ q.2 = q'.2 + zeros

/-- `Trims` twice takes off the zeros of both. -/
theorem Trims.trans {q q' q'' : Nat × Nat} (h : Trims q q') (h' : Trims q' q'') : Trims q q'' := by
  obtain ⟨zeros, hdigits, hscale⟩ := h
  obtain ⟨zeros', hdigits', hscale'⟩ := h'
  refine ⟨zeros' + zeros, ?_, by omega⟩
  rw [hdigits, hdigits', Nat.pow_add, Nat.mul_assoc]

/-- `count` zeros are taken off where `hzeros` finds them. -/
theorem trims_of_mod_eq_zero {q : Nat × Nat} {count : Nat} (hscale : count ≤ q.2)
    (hzeros : q.1 % 10 ^ count = 0) : Trims q (q.1 / 10 ^ count, q.2 - count) :=
  ⟨count, (Nat.div_mul_cancel (Nat.dvd_of_mod_eq_zero hzeros)).symm, by dsimp only; omega⟩

/-- `dropZeros` takes a block of zeros off or leaves it. -/
theorem trims_dropZeros (count : Nat) (q : Nat × Nat) : Trims q (dropZeros count q) := by
  rw [dropZeros]
  split
  · next h => exact trims_of_mod_eq_zero h.1 h.2
  · exact ⟨0, (Nat.mul_one _).symm, rfl⟩

/-- `dropEights` takes blocks of eight zeros off or leaves them. -/
theorem trims_dropEights (fuel : Nat) (q : Nat × Nat) : Trims q (dropEights fuel q) := by
  induction fuel generalizing q with
  | zero => exact ⟨0, (Nat.mul_one _).symm, rfl⟩
  | succ fuel ih =>
      rw [dropEights]
      split
      · next h => exact (trims_of_mod_eq_zero h.2.1 h.2.2).trans (ih _)
      · exact ⟨0, (Nat.mul_one _).symm, rfl⟩

/-- `strip` takes zeros off the end and nothing else. -/
theorem trims_strip (digits scale : Nat) : Trims (digits, scale) (strip digits scale) :=
  (((trims_dropEights 4 _).trans (trims_dropZeros 4 _)).trans (trims_dropZeros 2 _)).trans
    (trims_dropZeros 1 _)

/-- `Trims` keeps the whole part. -/
theorem Trims.div_pow {q q' : Nat × Nat} (h : Trims q q') :
    q'.1 / 10 ^ q'.2 = q.1 / 10 ^ q.2 := by
  obtain ⟨zeros, hdigits, hscale⟩ := h
  rw [hdigits, hscale, Nat.pow_add, Nat.mul_div_mul_right _ _ (Nat.pow_pos (by decide))]

/-- `Trims` makes neither the digits nor the scale greater. -/
theorem Trims.le {q q' : Nat × Nat} (h : Trims q q') : q'.1 ≤ q.1 ∧ q'.2 ≤ q.2 := by
  obtain ⟨zeros, hdigits, hscale⟩ := h
  refine ⟨?_, by omega⟩
  rw [hdigits]
  exact Nat.le_mul_of_pos_right _ (Nat.pow_pos (by decide))

end Quotient

/-! ### Quotients of whole numbers -/

/-- `ofParts?` makes a decimal of parts within their bounds, and `truncate` gives the
whole part of the mantissa. -/
theorem exists_ofParts? (negative : Bool) {mantissa scale : Nat} (hmantissa : mantissa < 2 ^ 96)
    (hscale : scale ≤ 28) : ∃ d, ofParts? negative mantissa scale = some d ∧
      d.truncate = if negative then -((mantissa / 10 ^ scale : Nat) : Int)
        else (mantissa / 10 ^ scale : Nat) := by
  rw [ofParts?, signedParts?, dif_pos ⟨hmantissa, hscale⟩]
  refine ⟨_, rfl, ?_⟩
  rw [truncate]
  -- A zero without its sign has the whole part zero either way.
  cases negative with
  | false => rfl
  | true =>
      by_cases hzero : mantissa = 0
      · simp [hzero]
      · simp [hzero]

/-- `div?` divides whole numbers of 64 bits, and `truncate` gives the whole part of the
exact quotient. -/
theorem exists_div? {l r : Decimal} (hl : l.scale = 0) (hr : r.scale = 0)
    (hdividend : l.mantissa < 2 ^ 64) (hword : r.mantissa < 2 ^ 64) (hdivisor : 0 < r.mantissa) :
    ∃ d, l.div? r = some d ∧
      d.truncate = if l.negative != r.negative then -((l.mantissa / r.mantissa : Nat) : Int)
        else (l.mantissa / r.mantissa : Nat) := by
  rw [div?]
  by_cases hzero : l.mantissa = 0
  -- Zero is divided without a loop.
  · refine ⟨zero, by rw [if_pos (by simp [isZero, hzero])]; rfl, ?_⟩
    simp [hzero, truncate, zero]
  -- Otherwise the loop starts from the whole digits, and stops near the quotient.
  · have hstart : (⟨l.mantissa / r.mantissa, l.mantissa % r.mantissa, l.scale - r.scale, false⟩ :
        Quotient) = .appended l.mantissa r.mantissa 0 false := by
      simp [Quotient.appended, hl, hr]
    have hlimit : l.mantissa * 10 ^ 0 / r.mantissa < mantissaLimit := by
      have hle : l.mantissa * 10 ^ 0 / r.mantissa ≤ l.mantissa * 10 ^ 0 := Nat.div_le_self ..
      have hbits : mantissaLimit = 2 ^ 96 := rfl
      omega
    obtain ⟨q, hq, scale, hscale, hle, hdigits, hnear⟩ :=
      Quotient.exists_complete_appended hdividend hdivisor hword 64 0 false (by decide) (by decide)
        hlimit
    -- What is shown has the zeros stripped that a carry may have left, which are exact.
    have hshown : ∃ shown : Nat × Nat, shown =
        (if q.carried then Quotient.strip q.digits q.scale.toNat else (q.digits, q.scale.toNat)) ∧
          Quotient.Trims (q.digits, scale) shown := by
      refine ⟨_, rfl, ?_⟩
      rw [hscale, Int.toNat_natCast]
      split
      · exact Quotient.trims_strip _ _
      · exact ⟨0, (Nat.mul_one _).symm, rfl⟩
    obtain ⟨shown, hshown, htrims⟩ := hshown
    obtain ⟨hless, hshort⟩ := htrims.le
    obtain ⟨d, hd, htruncate⟩ := exists_ofParts? (l.negative != r.negative)
      (Nat.lt_of_le_of_lt hless hdigits) (Nat.le_trans hshort hle)
    refine ⟨d, ?_, ?_⟩
    · rw [if_neg (by simpa [isZero] using hzero), hstart]
      simp only [hq, Option.bind_eq_bind, Option.bind_some, hscale]
      rw [if_neg (by omega), ← hscale, ← hshown]
      exact hd
    · rw [htruncate, htrims.div_pow, hnear.div_pow hdivisor]

end EntityRules.Decimal
