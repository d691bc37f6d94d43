import EntityRules.Expr.Eval
import EntityRules.Proofs.FirstFault

/-!
# `EntityRules.Proofs.Expr.Arithmetic`: arithmetic on numbers is exact

A calculation with numbers goes through its operands step by step, and each step is
that of integers as long as the result is a number. It stops at the first step that
has no result: a zero divisor, a result that no number holds, or the one remainder
that is refused although it is a number.

* `TruncatedDivision`, `ArithmeticOp.Gives`: what the five operators mean on integers,
  without a word on how they are computed.
* `ArithmeticOp.onNumbers_eq_ok_iff`, `ArithmeticOp.onNumbers_eq_error_iff`: a single
  step, told by `Takes` and `Refuses`.
* `ArithmeticOp.foldlM_onNumbers_eq_ok_iff`: from there a run of steps.
* `ArithmeticOp.overflow_modulus_iff_overflow_divide`: why a remainder is refused. The
  least number by minus one has no quotient among the numbers, and its remainder goes
  with the quotient.
* `Expr.number_arithmetic_exact`: the node of an expression, with values and errors.
-/

set_option autoImplicit false

namespace EntityRules

open Proofs

/-! ### Division of integers -/

/-- `TruncatedDivision a b q r`: `a` divided by `b` is `q`, truncated toward zero, and
leaves `r`, which is smaller than the divisor and has the sign of the dividend. -/
structure TruncatedDivision (a b q r : Int) : Prop where
  sum : r + b * q = a
  small : r.natAbs < b.natAbs
  nonneg : 0 ≤ a → 0 ≤ r
  nonpos : a ≤ 0 → r ≤ 0

/-- There is exactly one `TruncatedDivision`, with `tdiv` and `tmod`, unless the divisor
is zero. -/
theorem truncatedDivision_iff {a b q r : Int} :
    TruncatedDivision a b q r ↔ b ≠ 0 ∧ a.tdiv b = q ∧ a.tmod b = r := by
  constructor
  · intro h
    have hsmall := h.small
    have hb : b ≠ 0 := by omega
    refine ⟨hb, ?_⟩
    -- The bounds of a remainder are one-sided, on the side of its dividend.
    rcases Int.le_total 0 a with ha | ha
    · have hr := h.nonneg ha
      exact (Int.tdiv_tmod_unique ha hb).mpr ⟨h.sum, hr, by omega⟩
    · have hr := h.nonpos ha
      exact (Int.tdiv_tmod_unique' ha hb).mpr ⟨h.sum, by omega, hr⟩
  · rintro ⟨hb, rfl, rfl⟩
    refine ⟨?_, ?_, Int.tmod_nonneg b, ?_⟩
    · rw [Int.add_comm]
      exact Int.mul_tdiv_add_tmod a b
    · rw [Int.natAbs_tmod]
      exact Nat.mod_lt _ (Int.natAbs_pos.mpr hb)
    · intro ha
      exact ((Int.tdiv_tmod_unique' ha hb).mp ⟨rfl, rfl⟩).2.2

namespace Number

/-- `Fits n`: the integer is a number, that is within 64 bits. -/
def Fits (n : Int) : Prop := -2 ^ 63 ≤ n ∧ n < 2 ^ 63

instance (n : Int) : Decidable (Fits n) := inferInstanceAs (Decidable (_ ∧ _))

/-- `toInt` gives integers that fit. -/
theorem fits_toInt (n : Number) : Fits n.toInt := ⟨n.lower, n.upper⟩

/-- `ofInt?` accepts every integer that `Fits`. -/
theorem ofInt?_eq_none_iff {n : Int} : ofInt? n = none ↔ ¬ Fits n := by
  rw [ofInt?, dite_eq_right_iff, Fits]
  simp only [reduceCtorEq, imp_false]

/-- A remainder by a number `Fits`. -/
theorem fits_tmod {a : Int} {b : Number} (hb : b.toInt ≠ 0) : Fits (a.tmod b.toInt) := by
  have hfits := b.fits_toInt
  have hsmall := (truncatedDivision_iff.mpr ⟨hb, rfl, rfl⟩ : TruncatedDivision a _ _ _).small
  rw [Fits] at hfits ⊢
  omega

/-- A quotient of numbers `Fits`, but for one: that of the least number by minus one. -/
theorem fits_tdiv_iff {a b : Number} (hb : b.toInt ≠ 0) :
    Fits (a.toInt.tdiv b.toInt) ↔ ¬ (a.toInt = -2 ^ 63 ∧ b.toInt = -1) := by
  have hfits := a.fits_toInt
  rw [Fits] at hfits ⊢
  have habs : (a.toInt.tdiv b.toInt).natAbs = a.toInt.natAbs / b.toInt.natAbs :=
    Int.natAbs_tdiv ..
  constructor
  · rintro hquotient ⟨ha, hb⟩
    rw [ha, hb] at hquotient
    exact absurd hquotient (by decide)
  · intro hnot
    rcases (show b.toInt = 1 ∨ b.toInt = -1 ∨ 2 ≤ b.toInt.natAbs by omega) with hone | hone | htwo
    · rw [hone, Int.tdiv_one]
      exact hfits
    · rw [hone, Int.tdiv_neg, Int.tdiv_one]
      omega
    · -- A divisor of two or more at least halves the dividend.
      have hhalf : a.toInt.natAbs / b.toInt.natAbs ≤ a.toInt.natAbs / 2 :=
        Nat.div_le_div_left htwo (by decide)
      omega

end Number

/-! ### A single step -/

namespace ArithmeticOp

/-- `op.Gives a b c`: the operator gives `c` for two integers. A quotient and a
remainder are given by the same `TruncatedDivision`. -/
inductive Gives : ArithmeticOp → Int → Int → Int → Prop
  | add (a b : Int) : Gives add a b (a + b)
  | subtract (a b : Int) : Gives subtract a b (a - b)
  | multiply (a b : Int) : Gives multiply a b (a * b)
  | divide {a b q r : Int} (h : TruncatedDivision a b q r) : Gives divide a b q
  | modulus {a b q r : Int} (h : TruncatedDivision a b q r) : Gives modulus a b r

/-- `op.RefusesRemainder a b`: the remainder of the least number by minus one, which is
refused. -/
def RefusesRemainder (op : ArithmeticOp) (a b : Number) : Prop :=
  op = modulus ∧ a.toInt = -2 ^ 63 ∧ b.toInt = -1

/-- `op.Takes a b c`: the step is taken, and its result is that of the integers. -/
def Takes (op : ArithmeticOp) (a b c : Number) : Prop :=
  op.Gives a.toInt b.toInt c.toInt ∧ ¬ op.RefusesRemainder a b

/-- `op.Refuses a b why`: the step is not taken, because of `why`. -/
inductive Refuses (op : ArithmeticOp) (a b : Number) : ArithmeticFault → Prop
  | byZero (hop : op.divides = true) (hb : b.toInt = 0) : Refuses op a b (.byZero op)
  | outOfRange {c : Int} (hc : op.Gives a.toInt b.toInt c) (hfits : ¬ Number.Fits c) :
      Refuses op a b (.overflow op)
  | remainder (h : op.RefusesRemainder a b) : Refuses op a b (.overflow op)

/-- `op.onNumbers a b`: a step on numbers, with its fault. -/
def onNumbers (op : ArithmeticOp) (a b : Number) : Except EvalError Number :=
  op.checked (b.toInt == 0) (op.onNumbers? a b)

variable {op : ArithmeticOp} {a b c : Number}

/-- `op.integer a b`: the integer that the operator gives, as it is computed. -/
def integer : ArithmeticOp → Int → Int → Int
  | add, a, b => a + b
  | subtract, a, b => a - b
  | multiply, a, b => a * b
  | divide, a, b => a.tdiv b
  | modulus, a, b => a.tmod b

/-- An operator `Gives` what `integer` computes, unless it divides by zero. -/
theorem gives_iff {a b c : Int} :
    op.Gives a b c ↔ ¬ (op.divides = true ∧ b = 0) ∧ op.integer a b = c := by
  constructor
  · intro h
    cases h with
    | add => exact ⟨by simp [divides], rfl⟩
    | subtract => exact ⟨by simp [divides], rfl⟩
    | multiply => exact ⟨by simp [divides], rfl⟩
    -- The rules for these two ask for a divisor other than zero.
    | divide h =>
        obtain ⟨hb, hq, -⟩ := truncatedDivision_iff.mp h
        exact ⟨fun hzero => hb hzero.2, hq⟩
    | modulus h =>
        obtain ⟨hb, -, hr⟩ := truncatedDivision_iff.mp h
        exact ⟨fun hzero => hb hzero.2, hr⟩
  · rintro ⟨hzero, rfl⟩
    cases op with
    | add => exact .add a b
    | subtract => exact .subtract a b
    | multiply => exact .multiply a b
    | divide => exact .divide (truncatedDivision_iff.mpr ⟨fun hb => hzero ⟨rfl, hb⟩, rfl, rfl⟩)
    | modulus => exact .modulus (truncatedDivision_iff.mpr ⟨fun hb => hzero ⟨rfl, hb⟩, rfl, rfl⟩)

/-- `onNumbers?` is `integer` within 64 bits, but for the remainder that is refused. -/
theorem onNumbers?_eq (op : ArithmeticOp) (a b : Number) : op.onNumbers? a b =
    if op = modulus ∧ a.isLeastByMinusOne b = true then none
    else Number.ofInt? (op.integer a.toInt b.toInt) := by
  cases op with
  | add => rfl
  | subtract => rfl
  | multiply => rfl
  | divide => rfl
  | modulus => simp only [onNumbers?, Number.mod?, integer, true_and]

/-- `isLeastByMinusOne` recognises what `RefusesRemainder` says. -/
theorem refusesRemainder_iff :
    op.RefusesRemainder a b ↔ op = modulus ∧ a.isLeastByMinusOne b = true := by
  rw [RefusesRemainder, Number.isLeastByMinusOne, decide_eq_true_iff]

/-- `onNumbers?` has a result when the `integer` is a number and is not refused. -/
theorem onNumbers?_eq_some_iff : op.onNumbers? a b = some c ↔
    op.integer a.toInt b.toInt = c.toInt ∧ ¬ op.RefusesRemainder a b := by
  rw [onNumbers?_eq, refusesRemainder_iff]
  split
  · simp [*]
  · rw [Number.ofInt?_eq_some_iff, eq_comm]
    simp [*]

/-- `onNumbers?` has no result when the `integer` is no number or is refused. -/
theorem onNumbers?_eq_none_iff : op.onNumbers? a b = none ↔
    ¬ Number.Fits (op.integer a.toInt b.toInt) ∨ op.RefusesRemainder a b := by
  rw [onNumbers?_eq, refusesRemainder_iff]
  split
  · simp [*]
  · rw [Number.ofInt?_eq_none_iff]
    simp [*]

/-- `checked` passes the result on, unless a zero divides. -/
theorem checked_eq_ok_iff {α : Type} {zero : Bool} {result : Option α} {x : α} :
    op.checked zero result = .ok x ↔ ¬ (op.divides = true ∧ zero = true) ∧ result = some x := by
  rw [checked.eq_def, ← Bool.and_eq_true]
  split
  · simp [*]
  · cases result <;> simp [*]

/-- `checked` fails where a zero divides or there is no result. -/
theorem checked_eq_error_iff {α : Type} {zero : Bool} {result : Option α} {fault : EvalError} :
    op.checked zero result = .error fault ↔
      (op.divides = true ∧ zero = true) ∧ fault = .arithmetic (.byZero op) ∨
      (¬ (op.divides = true ∧ zero = true) ∧ result = none) ∧
        fault = .arithmetic (.overflow op) := by
  rw [checked.eq_def, ← Bool.and_eq_true]
  split
  · simp [*, eq_comm]
  · cases result <;> simp [*, eq_comm]

/-- `onNumbers` has a result where the operator `Takes` the step, and then this one. -/
theorem onNumbers_eq_ok_iff : op.onNumbers a b = .ok c ↔ op.Takes a b c := by
  rw [onNumbers, checked_eq_ok_iff, beq_iff_eq, onNumbers?_eq_some_iff, Takes, gives_iff,
    and_assoc]

/-- `onNumbers` fails where the operator `Refuses` the step, and then for this reason.
-/
theorem onNumbers_eq_error_iff {fault : EvalError} : op.onNumbers a b = .error fault ↔
    ∃ why, op.Refuses a b why ∧ fault = .arithmetic why := by
  rw [onNumbers, checked_eq_error_iff, beq_iff_eq, onNumbers?_eq_none_iff]
  constructor
  · rintro (⟨⟨hop, hb⟩, rfl⟩ | ⟨⟨hzero, hfits | hremainder⟩, rfl⟩)
    · exact ⟨_, .byZero hop hb, rfl⟩
    · exact ⟨_, .outOfRange (gives_iff.mpr ⟨hzero, rfl⟩) hfits, rfl⟩
    · exact ⟨_, .remainder hremainder, rfl⟩
  · rintro ⟨why, hwhy, rfl⟩
    cases hwhy with
    | byZero hop hb => exact .inl ⟨⟨hop, hb⟩, rfl⟩
    | outOfRange hc hfits =>
        obtain ⟨hzero, rfl⟩ := gives_iff.mp hc
        exact .inr ⟨⟨hzero, .inl hfits⟩, rfl⟩
    | remainder h =>
        -- Minus one divides here, so the check for zero is passed.
        refine .inr ⟨⟨?_, .inr h⟩, rfl⟩
        rintro ⟨-, hb⟩
        rw [h.2.2] at hb
        cases hb

/-- `onNumbers` overflows when no zero divides, and the `integer` is no number or is
refused. -/
theorem onNumbers_eq_overflow_iff :
    op.onNumbers a b = .error (.arithmetic (.overflow op)) ↔
      ¬ (op.divides = true ∧ b.toInt = 0) ∧
        (¬ Number.Fits (op.integer a.toInt b.toInt) ∨ op.RefusesRemainder a b) := by
  rw [onNumbers, checked_eq_error_iff, beq_iff_eq, onNumbers?_eq_none_iff]
  simp

/-- `modulus` overflows exactly where `divide` does. The quotient is refused because it
is no number; the remainder always is one, and only goes with it. -/
theorem overflow_modulus_iff_overflow_divide :
    modulus.onNumbers a b = .error (.arithmetic (.overflow modulus)) ↔
      divide.onNumbers a b = .error (.arithmetic (.overflow divide)) := by
  rw [onNumbers_eq_overflow_iff, onNumbers_eq_overflow_iff]
  show ¬ (true = true ∧ b.toInt = 0) ∧ _ ↔ ¬ (true = true ∧ b.toInt = 0) ∧ _
  refine and_congr_right fun hzero => ?_
  have hb : b.toInt ≠ 0 := fun hb => hzero ⟨rfl, hb⟩
  have hremainder : Number.Fits (modulus.integer a.toInt b.toInt) := Number.fits_tmod hb
  have hquotient : Number.Fits (divide.integer a.toInt b.toInt) ↔ _ := Number.fits_tdiv_iff hb
  simp [hremainder, hquotient, RefusesRemainder]

/-! ### A run of steps -/

/-- `RunsTo step acc ns last`: from `acc` through the list, each step is taken on what
the one before came to, and the last one comes to `last`. -/
inductive RunsTo (step : Number → Number → Number → Prop) : Number → List Number → Number → Prop
  | nil (acc : Number) : RunsTo step acc [] acc
  | cons {acc next acc' last : Number} {rest : List Number} (hstep : step acc next acc')
      (hrest : RunsTo step acc' rest last) : RunsTo step acc (next :: rest) last

/-- `onNumbers` over a list has a result where each step is taken (`RunsTo`), and then
that of the last. -/
theorem foldlM_onNumbers_eq_ok_iff {acc last : Number} {ns : List Number} :
    ns.foldlM op.onNumbers acc = .ok last ↔ RunsTo op.Takes acc ns last := by
  induction ns generalizing acc with
  | nil =>
      rw [List.foldlM_nil, except_pure, Except.ok.injEq]
      constructor
      · rintro rfl
        exact .nil acc
      · rintro ⟨⟩
        rfl
  -- A run goes on from where its first step leads.
  | cons next rest ih =>
      simp only [List.foldlM_cons, except_bind_eq_ok, onNumbers_eq_ok_iff, ih]
      constructor
      · rintro ⟨acc', hstep, hrest⟩
        exact .cons hstep hrest
      · rintro (_ | ⟨hstep, hrest⟩)
        exact ⟨_, hstep, hrest⟩

/-- `op.Reaches first ns acc next`: all steps before `next` are taken, and come to
`acc`. -/
def Reaches (op : ArithmeticOp) (first : Number) (ns : List Number) (acc next : Number) : Prop :=
  ∃ before after, ns = before ++ next :: after ∧ RunsTo op.Takes first before acc

/-- `onNumbers` over a list fails where it `Reaches` a step that it `Refuses`. -/
theorem foldlM_onNumbers_eq_error_iff {first : Number} {ns : List Number} {fault : EvalError} :
    ns.foldlM op.onNumbers first = .error fault ↔ ∃ acc next, op.Reaches first ns acc next ∧
      ∃ why, op.Refuses acc next why ∧ fault = .arithmetic why := by
  simp only [foldlM_eq_error_iff, foldlM_onNumbers_eq_ok_iff, onNumbers_eq_error_iff]
  constructor
  · rintro ⟨before, next, after, acc, hsplit, hbefore, hwhy⟩
    exact ⟨acc, next, ⟨before, after, hsplit, hbefore⟩, hwhy⟩
  · rintro ⟨acc, next, ⟨before, after, hsplit, hbefore⟩, hwhy⟩
    exact ⟨before, next, after, acc, hsplit, hbefore, hwhy⟩

/-- Of a step that the operator `Refuses`, the `message` says "by zero" when a zero
divides. -/
theorem message_eq_byZero_iff {why : ArithmeticFault} (h : op.Refuses a b why) :
    (EvalError.arithmetic why).message = "arithmetic error: " ++ (op.name ++ " by zero") ↔
      op.divides = true ∧ b.toInt = 0 := by
  have hoverflow : (EvalError.arithmetic (.overflow op)).message ≠
      "arithmetic error: " ++ (op.name ++ " by zero") := by
    cases op <;> decide
  cases h with
  | byZero hop hb => exact iff_of_true rfl ⟨hop, hb⟩
  | outOfRange hc _ => exact iff_of_false hoverflow (gives_iff.mp hc).1
  | remainder h =>
      refine iff_of_false hoverflow ?_
      rintro ⟨-, hb⟩
      exact absurd (h.2.2.symm.trans hb) (by decide)

end ArithmeticOp

/-! ### Calculations -/

namespace Expr

variable {op : ArithmeticOp} {look : Lookup} {first e : Expr} {rest es : List Expr}
  {n : Number} {ns : List Number}

/-- `HasNumber look e n`: the operand evaluates to a leaf that can be read as `n`. -/
def HasNumber (look : Lookup) (e : Expr) (n : Number) : Prop :=
  ∃ leaf, (e.evalWith look).result = .ok leaf ∧ leaf.asNumber = .ok n

/-- `Leaf.arithmetic` is `onNumbers` on what two leaves are read as. -/
theorem arithmetic_number {acc : Number} {leaf : Leaf} (hn : leaf.asNumber = .ok n) :
    Leaf.arithmetic op .number (.number acc) leaf = (op.onNumbers acc n).map .number := by
  rw [Leaf.arithmetic, hn]
  rfl

/-- `arithmeticFrom` takes a step of `onNumbers` for each operand that is left. -/
theorem result_arithmeticFrom (h : List.Forall₂ (HasNumber look) es ns) (acc : Number) :
    (arithmeticFrom op .number (.number acc) (evalAll look es)).result =
      (ns.foldlM op.onNumbers acc).map .number := by
  induction h generalizing acc with
  | nil => rfl
  | cons he _ ih =>
      obtain ⟨leaf, hleaf, hn⟩ := he
      rw [evalAll, arithmeticFrom, Traced.result_bind, hleaf, except_bind_ok, Traced.result_bind,
        Traced.result_lift, arithmetic_number hn, List.foldlM_cons]
      -- Both runs end with a step that fails, and go on from one that is taken.
      cases op.onNumbers acc _ with
      | error fault => rfl
      | ok acc' => exact ih acc'

/-- An arithmetic expression starts with its first operand and goes on with `onNumbers`.
-/
theorem result_arithmetic (hfirst : HasNumber look first n)
    (hrest : List.Forall₂ (HasNumber look) rest ns) :
    ((arithmetic op .number first rest).evalWith look).result =
      (ns.foldlM op.onNumbers n).map .number := by
  obtain ⟨leaf, hleaf, hn⟩ := hfirst
  have hcoerce : leaf.coerce .number = .ok (.number n) := by
    rw [Leaf.coerce, hn]
    rfl
  rw [evalWith, Traced.result_bind, hleaf, except_bind_ok, Traced.result_bind]
  show (leaf.coerce .number >>= _) = _
  rw [hcoerce, except_bind_ok, result_arithmeticFrom hrest]

/-- A calculation with operands that have numbers (`HasNumber`) is that of the integers.
It has a value exactly when the operator `Takes` every step, each on what the one before
came to, and then it is what the last came to. Otherwise it fails as the first step does
that the operator `Refuses`: one that divides by zero, one whose result no number holds,
or the remainder of the least number by minus one. The `message` says "by zero" exactly
in the first of these cases. -/
theorem number_arithmetic_exact (op : ArithmeticOp) (env : Environment) (first : Expr)
    (rest : List Expr) (n : Number) (ns : List Number) (hfirst : HasNumber env.lookup first n)
    (hrest : List.Forall₂ (HasNumber env.lookup) rest ns) :
    let result := ((arithmetic op .number first rest).eval env).result
    (∀ value, result = .ok value ↔
      ∃ last, ArithmeticOp.RunsTo op.Takes n ns last ∧ value = .number last) ∧
    (∀ fault, result = .error fault ↔ ∃ acc next, op.Reaches n ns acc next ∧
      ∃ why, op.Refuses acc next why ∧ fault = .arithmetic why) ∧
    ((∃ fault, result = .error fault ∧
        fault.message = "arithmetic error: " ++ (op.name ++ " by zero")) ↔
      ∃ acc next, op.Reaches n ns acc next ∧ op.divides = true ∧ next.toInt = 0) := by
  intro result
  -- Everything is read off the run of the steps.
  have hresult : result = (ns.foldlM op.onNumbers n).map .number := result_arithmetic hfirst hrest
  have hfault : ∀ fault, result = .error fault ↔ ns.foldlM op.onNumbers n = .error fault := by
    intro fault
    rw [hresult]
    cases ns.foldlM op.onNumbers n with
    | ok last => simp [Except.map]
    | error why => simp [Except.map]
  simp only [ArithmeticOp.foldlM_onNumbers_eq_error_iff] at hfault
  refine ⟨?_, hfault, ?_⟩
  · intro value
    simp only [hresult, except_map_eq_ok, ArithmeticOp.foldlM_onNumbers_eq_ok_iff,
      eq_comm (a := value)]
  · constructor
    · rintro ⟨fault, h, hmessage⟩
      obtain ⟨acc, next, hreaches, why, hwhy, rfl⟩ := (hfault fault).mp h
      exact ⟨acc, next, hreaches, (ArithmeticOp.message_eq_byZero_iff hwhy).mp hmessage⟩
    · rintro ⟨acc, next, hreaches, hop, hzero⟩
      have hwhy : op.Refuses acc next (.byZero op) := .byZero hop hzero
      exact ⟨_, (hfault _).mpr ⟨acc, next, hreaches, _, hwhy, rfl⟩, rfl⟩

/-- An `amount` of minus 7.9 counts as minus seven. Half of it is minus three, and what
follows a division by zero is not looked at. Less the greatest number there is, it is
below the least. -/
theorem number_arithmetic_exact_amount :
    let amount : Path := ⟨["_curr", "amount"]⟩
    let minusSeven : Number := ⟨-7, by decide, by decide⟩
    let minusThree : Number := ⟨-3, by decide, by decide⟩
    let two : Number := ⟨2, by decide, by decide⟩
    let greatest : Number := ⟨2 ^ 63 - 1, by decide, by decide⟩
    let env : Environment :=
      .node [("_curr", .node [("amount", .leaf (.decimal ⟨true, 79, 1, by decide, by decide⟩))])]
    let calculate (op : ArithmeticOp) (ns : List Number) : Expr :=
      .arithmetic op .number (.path amount) (ns.map fun n => .literal (.number n))
    HasNumber env.lookup (.path amount) minusSeven ∧
    ((calculate .divide [two]).eval env).result = .ok (.number minusThree) ∧
    (∃ fault, ((calculate .divide [two, .zero, greatest]).eval env).result = .error fault ∧
      fault.message = "arithmetic error: divide by zero") ∧
    ((calculate .subtract [greatest]).eval env).result =
      .error (.arithmetic (.overflow .subtract)) := by
  intro amount minusSeven minusThree two greatest env calculate
  have hamount : HasNumber env.lookup (.path amount) minusSeven := ⟨_, rfl, rfl⟩
  have hliterals (ns : List Number) : List.Forall₂ (HasNumber env.lookup)
      (ns.map fun n => .literal (.number n)) ns := by
    rw [List.forall₂_map_left_iff, List.forall₂_same]
    exact fun n _ => ⟨.number n, rfl, rfl⟩
  -- The amount truncates to minus seven, and half of that, rounded toward zero, is minus
  -- three.
  have hdivision : TruncatedDivision (-7) 2 (-3) (-1) :=
    ⟨by decide, by decide, by decide, by decide⟩
  have htakes : ArithmeticOp.divide.Takes minusSeven two minusThree :=
    ⟨.divide hdivision, fun hremainder => by cases hremainder.1⟩
  have hhalf : ArithmeticOp.RunsTo ArithmeticOp.divide.Takes minusSeven [two] minusThree :=
    .cons htakes (.nil _)
  obtain ⟨hvalue, -⟩ := number_arithmetic_exact .divide env _ _ _ _ hamount (hliterals [two])
  obtain ⟨-, -, hzero⟩ := number_arithmetic_exact .divide env _ _ _ _ hamount
    (hliterals [two, .zero, greatest])
  obtain ⟨-, hfault, -⟩ := number_arithmetic_exact .subtract env _ _ _ _ hamount
    (hliterals [greatest])
  refine ⟨hamount, ?_, ?_, ?_⟩
  · exact (hvalue _).mpr ⟨minusThree, hhalf, rfl⟩
  · exact hzero.mpr ⟨minusThree, .zero, ⟨[two], [greatest], rfl, hhalf⟩, rfl, rfl⟩
  -- The greatest number is more than minus seven can lose.
  · have hbelow : ¬ Number.Fits (minusSeven.toInt - greatest.toInt) := by decide
    exact (hfault _).mpr ⟨minusSeven, greatest, ⟨[], [], rfl, .nil _⟩, _,
      .outOfRange (.subtract _ _) hbelow, rfl⟩

/-- The `least` number divided by minus one leaves zero, which is a number. The
remainder is refused all the same, so it is not enough that every step gives a number.
-/
theorem least_modulus_minusOne_refused :
    let least : Number := ⟨-2 ^ 63, by decide, by decide⟩
    let minusOne : Number := ⟨-1, by decide, by decide⟩
    let e : Expr :=
      .arithmetic .modulus .number (.literal (.number least)) [.literal (.number minusOne)]
    let gives (a b c : Number) : Prop := ArithmeticOp.modulus.Gives a.toInt b.toInt c.toInt
    HasNumber Environment.empty.lookup (.literal (.number least)) least ∧
    List.Forall₂ (HasNumber Environment.empty.lookup) [.literal (.number minusOne)] [minusOne] ∧
    ArithmeticOp.RunsTo gives least [minusOne] .zero ∧
    (e.eval .empty).result = .error (.arithmetic (.overflow .modulus)) ∧
    ¬ ((e.eval .empty).result = .ok (.number .zero) ↔
      ArithmeticOp.RunsTo gives least [minusOne] .zero) := by
  intro least minusOne e gives
  have hliteral (n : Number) : HasNumber Environment.empty.lookup (.literal (.number n)) n :=
    ⟨.number n, rfl, rfl⟩
  have hgives : gives least minusOne .zero := by
    have hdivision : TruncatedDivision (-2 ^ 63) (-1) (2 ^ 63) 0 :=
      ⟨by decide, by decide, by decide, by decide⟩
    exact .modulus hdivision
  have hruns : ArithmeticOp.RunsTo gives least [minusOne] .zero := .cons hgives (.nil _)
  have hresult : (e.eval .empty).result = .error (.arithmetic (.overflow .modulus)) := rfl
  refine ⟨hliteral least, .cons (hliteral minusOne) .nil, hruns, hresult, ?_⟩
  intro hiff
  have hvalue := hiff.mpr hruns
  rw [hresult] at hvalue
  cases hvalue

end Expr

end EntityRules
