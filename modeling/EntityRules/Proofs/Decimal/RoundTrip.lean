import EntityRules.Decimal.Numeral
import Mathlib.Data.List.TakeWhile

/-!
# `EntityRules.Proofs.Decimal.RoundTrip`: a decimal read back from its text

The text of a decimal shows its sign, its digits and, by the digits after the
point, its scale. Reading gives all of them back but one: `readPlain` takes the
sign off a zero (`ofParts?`), and an exponent that rounds a decimal to zero does
not (`signedParts?`). So a zero with a minus can be made, has a text of its own,
and is read back as the zero without it. `canonical` is what becomes of a
decimal that way.

* `read_text`: the text of a decimal is read as the decimal made canonical.
* `canonical_eq_self_iff`: nothing is lost unless the decimal is a zero with a
  minus.
* `text_injective`: different decimals have different texts.

The readers run over characters, with the mantissa read so far as accumulator.
On digits alone they compute `Nat.ofDigitChars`, provided that the mantissa they
end at has 96 bits: the accumulator only grows (`le_ofDigitChars`), so no digit
on the way is the first without room.
-/

set_option autoImplicit false

namespace EntityRules.Decimal

/-- `d.canonical` is the decimal that is read from the text of `d`: a zero loses its
sign. -/
def canonical (d : Decimal) : Decimal := { d with negative := d.negative && d.mantissa != 0 }

/-- `d.IsNegativeZero`: the decimal is a zero with a minus. -/
def IsNegativeZero (d : Decimal) : Prop := d.negative = true ∧ d.mantissa = 0

instance : DecidablePred IsNegativeZero := fun d =>
  inferInstanceAs (Decidable (d.negative = true ∧ d.mantissa = 0))

/-- `canonical` keeps every decimal but a zero with a minus. -/
theorem canonical_eq_self_iff {d : Decimal} : d.canonical = d ↔ ¬ d.IsNegativeZero := by
  obtain ⟨negative, mantissa, scale, hmantissa, hscale⟩ := d
  cases negative with
  | false => simp [canonical, IsNegativeZero]
  | true => simp [canonical, IsNegativeZero]

/-! ### Digits -/

/-- `digit?` gives a digit the value that `Nat.ofDigitChars` counts. -/
theorem digit?_of_isDigit {c : Char} (h : c.isDigit) : digit? c = some (c.toNat - '0'.toNat) :=
  if_pos h

/-- `Nat.ofDigitChars` makes no number less by appending digits to it. -/
theorem le_ofDigitChars (digits : List Char) (n : Nat) : n ≤ Nat.ofDigitChars 10 digits n := by
  rw [Nat.ofDigitChars_eq_ofDigitChars_zero]
  have hpow : 1 ≤ 10 ^ digits.length := Nat.pow_pos (by decide)
  have : 1 * n ≤ 10 ^ digits.length * n := Nat.mul_le_mul_right n hpow
  omega

/-- `isExponentMark` holds of no digit. -/
theorem not_isExponentMark_of_isDigit {c : Char} (h : c.isDigit) : ¬ isExponentMark c := by
  intro hmark
  simp only [isExponentMark, Bool.or_eq_true, beq_iff_eq] at hmark
  rcases hmark with rfl | rfl
  · exact absurd h (by decide)
  · exact absurd h (by decide)

/-! ### The readers on digits -/

/-- `readFraction` reads digits to the end, while `hscale` and `hroom` leave room for
all of them. -/
theorem readFraction_digits (digits : List Char) (m scale : Nat) (seen : Bool)
    (hdigits : ∀ c ∈ digits, c.isDigit) (hseen : seen = true ∨ digits ≠ [])
    (hscale : scale + digits.length ≤ maxScale)
    (hroom : Nat.ofDigitChars 10 digits m < mantissaLimit) :
    readFraction m scale seen digits =
      .ok (Nat.ofDigitChars 10 digits m, scale + digits.length) := by
  induction digits generalizing m scale seen with
  | nil =>
      have hseen : seen = true := by simpa using hseen
      simp [readFraction, hseen]
  | cons c rest ih =>
      rw [List.length_cons] at hscale
      have hnext : Nat.ofDigitChars 10 (c :: rest) m =
          Nat.ofDigitChars 10 rest (m * 10 + (c.toNat - '0'.toNat)) := by
        rw [Nat.ofDigitChars_cons, Nat.mul_comm]
      rw [hnext] at hroom ⊢
      -- The mantissa after this digit is below the one at the end, which has room.
      have hhere : m * 10 + (c.toNat - '0'.toNat) < mantissaLimit :=
        Nat.lt_of_le_of_lt (le_ofDigitChars rest _) hroom
      rw [readFraction, digit?_of_isDigit (hdigits c (List.mem_cons_self ..))]
      simp only [hhere, and_true, show scale < maxScale by omega, if_true]
      rw [ih _ _ _ (fun x hx => hdigits x (List.mem_cons_of_mem _ hx)) (.inl rfl) (by omega) hroom,
        List.length_cons, Nat.add_assoc, Nat.add_comm 1]

/-- `readWhole` reads digits with room, and goes on behind them. -/
theorem readWhole_digits (digits rest : List Char) (m : Nat) (seen : Bool)
    (hdigits : ∀ c ∈ digits, c.isDigit) (hseen : seen = true ∨ digits ≠ [])
    (hroom : Nat.ofDigitChars 10 digits m < mantissaLimit) :
    readWhole m seen (digits ++ rest) = readWhole (Nat.ofDigitChars 10 digits m) true rest := by
  induction digits generalizing m seen with
  | nil =>
      have hseen : seen = true := by simpa using hseen
      simp [hseen]
  | cons c tail ih =>
      have hnext : Nat.ofDigitChars 10 (c :: tail) m =
          Nat.ofDigitChars 10 tail (m * 10 + (c.toNat - '0'.toNat)) := by
        rw [Nat.ofDigitChars_cons, Nat.mul_comm]
      rw [hnext] at hroom ⊢
      have hhere : m * 10 + (c.toNat - '0'.toNat) < mantissaLimit :=
        Nat.lt_of_le_of_lt (le_ofDigitChars tail _) hroom
      rw [List.cons_append, readWhole, digit?_of_isDigit (hdigits c (List.mem_cons_self ..))]
      simp only [hhere, if_true]
      exact ih _ _ (fun x hx => hdigits x (List.mem_cons_of_mem _ hx)) (.inl rfl) hroom

/-! ### The text of a decimal -/

variable (d : Decimal)

/-- `digits` holds nothing but digits. -/
theorem isDigit_of_mem_digits {c : Char} (h : c ∈ d.digits) : c.isDigit := by
  rw [digits, List.leftpad, List.mem_append] at h
  rcases h with h | h
  · rw [(List.mem_replicate.mp h).2]
    decide
  · exact Nat.isDigit_of_mem_toDigits (by decide) (by decide) h

/-- `digits` are those of the mantissa; the zeros in front count nothing. -/
theorem ofDigitChars_digits : Nat.ofDigitChars 10 d.digits 0 = d.mantissa := by
  rw [digits, List.leftpad, Nat.ofDigitChars_append, Nat.ofDigitChars_replicate_zero, Nat.mul_zero,
    Nat.ofDigitChars_ten_toDigits]

/-- `digits` has more digits than stand after the point. -/
theorem scale_lt_length_digits : d.scale < d.digits.length := by
  rw [digits, List.length_leftpad]
  omega

/-- The point divides `digits` into `wholeDigits` and `fractionDigits`. -/
theorem wholeDigits_append_fractionDigits : d.wholeDigits ++ d.fractionDigits = d.digits :=
  List.take_append_drop _ _

/-- `wholeDigits` has a digit at least. -/
theorem wholeDigits_ne_nil : d.wholeDigits ≠ [] := by
  have := d.scale_lt_length_digits
  rw [wholeDigits, ← List.length_pos_iff, List.length_take]
  omega

/-- `fractionDigits` has as many digits as the scale says. -/
theorem length_fractionDigits : d.fractionDigits.length = d.scale := by
  have := d.scale_lt_length_digits
  rw [fractionDigits, List.length_drop]
  omega

/-- `wholeDigits` holds nothing but digits. -/
theorem isDigit_of_mem_wholeDigits {c : Char} (h : c ∈ d.wholeDigits) : c.isDigit :=
  d.isDigit_of_mem_digits (List.mem_of_mem_take h)

/-- `fractionDigits` holds nothing but digits. -/
theorem isDigit_of_mem_fractionDigits {c : Char} (h : c ∈ d.fractionDigits) : c.isDigit :=
  d.isDigit_of_mem_digits (List.mem_of_mem_drop h)

/-- `d.body`: the characters of `d` behind its sign. -/
def body : List Char :=
  d.wholeDigits ++ (if d.scale = 0 then [] else '.' :: d.fractionDigits)

/-- `chars` is the sign, if there is one, and then `body`. -/
theorem chars_eq : d.chars = (if d.negative then ['-'] else []) ++ d.body := by
  rw [chars, body, List.append_assoc]

/-- `body` begins with a digit. -/
theorem exists_body_eq_cons : ∃ c rest, d.body = c :: rest ∧ c.isDigit := by
  cases h : d.wholeDigits with
  | nil => exact absurd h d.wholeDigits_ne_nil
  | cons c rest =>
      have hc : c ∈ d.wholeDigits := h ▸ List.mem_cons_self ..
      exact ⟨c, _, by rw [body, h, List.cons_append], d.isDigit_of_mem_wholeDigits hc⟩

/-- `splitSign` takes the sign off `chars` and leaves `body`. -/
theorem splitSign_chars : splitSign d.chars = (d.negative, d.body) := by
  rw [chars_eq]
  cases h : d.negative with
  | true => rfl
  | false =>
      -- Without a minus the body stands first, and a digit is no sign.
      obtain ⟨c, rest, hbody, hc⟩ := d.exists_body_eq_cons
      have hminus : c ≠ '-' := by
        rintro rfl
        exact absurd hc (by decide)
      have hplus : c ≠ '+' := by
        rintro rfl
        exact absurd hc (by decide)
      simp only [Bool.false_eq_true, if_false, List.nil_append, hbody]
      rw [splitSign]
      · exact fun rest h => hminus (List.cons.inj h).1
      · exact fun rest h => hplus (List.cons.inj h).1

/-- `chars` holds no exponent mark. -/
theorem not_isExponentMark_of_mem_chars {c : Char} (h : c ∈ d.chars) : ¬ isExponentMark c := by
  rw [chars_eq, body, List.mem_append, List.mem_append] at h
  rcases h with h | h | h
  · cases hsign : d.negative with
    | true =>
        have hc : c = '-' := by simpa [hsign] using h
        exact hc ▸ by decide
    | false => simp [hsign] at h
  · exact not_isExponentMark_of_isDigit (d.isDigit_of_mem_wholeDigits h)
  · split at h
    · cases h
    · rcases List.mem_cons.mp h with h | h
      · exact h ▸ by decide
      · exact not_isExponentMark_of_isDigit (d.isDigit_of_mem_fractionDigits h)

/-! ### Reading the text -/

/-- `readWhole` reads the mantissa and the scale from `body`. -/
theorem readWhole_body : readWhole 0 false d.body = .ok (d.mantissa, d.scale) := by
  -- The digits after the point are read onto the number before it.
  have hvalue : Nat.ofDigitChars 10 d.fractionDigits (Nat.ofDigitChars 10 d.wholeDigits 0) =
      d.mantissa := by
    rw [← Nat.ofDigitChars_append, wholeDigits_append_fractionDigits, ofDigitChars_digits]
  have hroom : Nat.ofDigitChars 10 d.fractionDigits (Nat.ofDigitChars 10 d.wholeDigits 0) <
      mantissaLimit := hvalue ▸ d.mantissa_lt
  rw [body, readWhole_digits d.wholeDigits _ 0 false (fun _ => d.isDigit_of_mem_wholeDigits)
    (.inr d.wholeDigits_ne_nil) (Nat.lt_of_le_of_lt (le_ofDigitChars _ _) hroom)]
  by_cases hscale : d.scale = 0
  · have hnone : d.fractionDigits = [] :=
      List.length_eq_zero_iff.mp (hscale ▸ d.length_fractionDigits)
    rw [hnone, Nat.ofDigitChars_nil] at hvalue
    simp [readWhole, hscale, hvalue]
  · have hpoint : digit? '.' = none := by decide
    rw [if_neg hscale, readWhole, hpoint]
    simp only [if_true]
    rw [readFraction_digits d.fractionDigits _ 0 true (fun _ => d.isDigit_of_mem_fractionDigits)
      (.inl rfl) (by rw [length_fractionDigits, Nat.zero_add]; exact d.scale_le) hroom, hvalue,
      length_fractionDigits, Nat.zero_add]

/-- `read` reads the text of `d` as `d.canonical`: as `d`, but a zero loses its sign. -/
theorem read_text : read d.text = .ok d.canonical := by
  have hplain : readPlain d.chars = .ok d.canonical := by
    obtain ⟨c, rest, hbody, -⟩ := d.exists_body_eq_cons
    have hne : d.chars.isEmpty = false := by
      rw [chars_eq, hbody]
      simp
    have hparts : ofParts? d.negative d.mantissa d.scale = some d.canonical :=
      dif_pos ⟨d.mantissa_lt, d.scale_le⟩
    rw [readPlain, hne, splitSign_chars]
    show (readWhole 0 false d.body >>= fun parts =>
      orTooLarge (ofParts? d.negative parts.1 parts.2)) = _
    rw [readWhole_body]
    show orTooLarge (ofParts? d.negative d.mantissa d.scale) = _
    rw [hparts, orTooLarge]
  rw [read, text, String.toList_ofList, readChars]
  have hmark : d.chars.dropWhile (fun c => !isExponentMark c) = [] := by
    rw [List.dropWhile_eq_nil_iff]
    intro c hc
    simpa using d.not_isExponentMark_of_mem_chars hc
  rw [hmark, hplain]

/-- `text` tells all decimals apart, also a zero with a sign from one without. -/
theorem text_injective : Function.Injective text := by
  intro a b h
  have hchars : a.chars = b.chars := String.ofList_injective h
  have hsign : a.negative = b.negative := by
    have := congrArg splitSign hchars
    rw [splitSign_chars, splitSign_chars] at this
    exact (Prod.mk.inj this).1
  have hparts : a.canonical = b.canonical := by
    have := congrArg read h
    rw [read_text, read_text] at this
    exact Except.ok.inj this
  -- `canonical` keeps the mantissa and the scale; the sign was read off the text.
  obtain ⟨negative, mantissa, scale, _, _⟩ := a
  obtain ⟨negative', mantissa', scale', _, _⟩ := b
  simp only [canonical, mk.injEq] at hparts hsign
  simp [hsign, hparts.2]

end EntityRules.Decimal
