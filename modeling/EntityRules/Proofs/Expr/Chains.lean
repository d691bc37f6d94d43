import EntityRules.Proofs.Expr.Reads
import EntityRules.Proofs.FirstFault
import Mathlib.Data.List.Chain

/-!
# `EntityRules.Proofs.Expr.Chains`: a comparison of many operands

A comparison with more than two operands compares each with the next. It is decided
by the first pair that does not hold, and is true when there is none; operands behind
that pair are still evaluated, but no longer compared.

* `result_comparator`: where all operands have values, the result is that of
  `Leaf.neighboursHold` on the values.
* `Leaf.Compares.trans`: every comparison is transitive in every kind, so in a chain
  that holds any operand compares with any later one.
* `comparator_chain`: both, told pair by pair, and the chain beside the conjunction
  of its pairs. Where the conjunction has a value the chain has it too, and reads the
  same paths, though the conjunction reads the operands in the middle twice.

A comparison orders what it reads its operands as, and only this order matters for
transitivity: decimals of one value in different digits are equal, and decimals that
are cut off to one number are equal as numbers.
-/

set_option autoImplicit false

namespace EntityRules

open Proofs

/-! ### Comparisons are transitive -/

/-- `Number.order` is that of the integers, and so transitive. -/
instance : Std.TransCmp Number.order := inferInstanceAs (Std.TransCmp (compareOn Number.toInt))

/-- `Decimal.order` is that of the values, and so transitive. -/
instance : Std.TransCmp Decimal.order := inferInstanceAs (Std.TransCmp (compareOn Decimal.units))

/-- `Leaf.textOrder` goes by the characters, and so is transitive. -/
instance : Std.TransCmp Leaf.textOrder :=
  inferInstanceAs (Std.TransCmp fun l r : String => compare l r)

/-- `holds` is transitive when the order `cmp` is. -/
theorem ComparatorOp.holds_trans {α : Type} {cmp : α → α → Ordering} [Std.TransCmp cmp]
    (op : ComparatorOp) {a b c : α} (hab : op.holds (cmp a b)) (hbc : op.holds (cmp b c)) :
    op.holds (cmp a c) := by
  cases op with
  | equals =>
      simp only [holds, beq_iff_eq] at hab hbc ⊢
      exact Std.TransCmp.eq_trans hab hbc
  | greaterThan =>
      simp only [holds, beq_iff_eq] at hab hbc ⊢
      exact Std.TransCmp.gt_trans hab hbc
  | lessThan =>
      simp only [holds, beq_iff_eq] at hab hbc ⊢
      exact Std.TransCmp.lt_trans hab hbc
  | greaterThanEquals =>
      -- Not less is greater or equal: the order is total.
      simp only [holds, bne_iff_ne, Ordering.ne_lt_iff_isGE] at hab hbc ⊢
      exact Std.TransCmp.isGE_trans hab hbc
  | lessThanEquals =>
      simp only [holds, bne_iff_ne, Ordering.ne_gt_iff_isLE] at hab hbc ⊢
      exact Std.TransCmp.isLE_trans hab hbc

namespace Leaf

variable {op : ComparatorOp} {kind : ScalarKind} {a b c : Leaf}

/-- `Compares op kind a b`: both leaves can be read as `kind`, and what they are read as
compares. -/
def Compares (op : ComparatorOp) (kind : ScalarKind) (a b : Leaf) : Prop :=
  compare op kind a b = .ok true

/-- A comparison of what `view` reads leaves as is transitive when the order `cmp` is.
-/
theorem compare_trans_of_view {α : Type} (view : Leaf → Except EvalError α)
    {cmp : α → α → Ordering} [Std.TransCmp cmp]
    (hab : (do let x ← view a; let y ← view b; return op.holds (cmp x y)) = Except.ok true)
    (hbc : (do let x ← view b; let y ← view c; return op.holds (cmp x y)) = Except.ok true) :
    (do let x ← view a; let y ← view c; return op.holds (cmp x y)) = Except.ok true := by
  obtain ⟨x, hx, hab⟩ := except_bind_eq_ok.mp hab
  obtain ⟨y, hy, hab⟩ := except_bind_eq_ok.mp hab
  obtain ⟨y', hy', hbc⟩ := except_bind_eq_ok.mp hbc
  obtain ⟨z, hz, hbc⟩ := except_bind_eq_ok.mp hbc
  obtain rfl : y = y' := Except.ok.inj (hy.symm.trans hy')
  rw [hx, hz]
  exact congrArg Except.ok (op.holds_trans (Except.ok.inj hab) (Except.ok.inj hbc))

/-- `Compares` is transitive for every operator and kind. -/
theorem Compares.trans (hab : Compares op kind a b) (hbc : Compares op kind b c) :
    Compares op kind a c := by
  cases kind with
  | number => exact compare_trans_of_view asNumber hab hbc
  | decimal => exact compare_trans_of_view asDecimal hab hbc
  | text => exact compare_trans_of_view (fun leaf => .ok leaf.asText) hab hbc

instance : Trans (Compares op kind) (Compares op kind) (Compares op kind) := ⟨Compares.trans⟩

/-! ### What decides a chain -/

/-- `neighboursHold op kind vs`: whether each leaf of a list compares with the next. The
first pair that does not hold decides, by being false or by failing. -/
def neighboursHold (op : ComparatorOp) (kind : ScalarKind) : List Leaf → Except EvalError Bool
  | a :: b :: rest => do
    if ← compare op kind a b then neighboursHold op kind (b :: rest) else return false
  | _ => return true

/-- `DecidedBy op kind verdict vs`: all pairs before some pair of neighbours hold, and
this one compares as `verdict` says. -/
def DecidedBy (op : ComparatorOp) (kind : ScalarKind) (verdict : Except EvalError Bool)
    (vs : List Leaf) : Prop :=
  ∃ before a b after, vs = before ++ a :: b :: after ∧
    (before ++ [a]).IsChain (Compares op kind) ∧ compare op kind a b = verdict

variable {verdict : Except EvalError Bool} {vs : List Leaf}

/-- A list that is `DecidedBy` a pair of neighbours has two leaves or more. -/
theorem two_le_length_of_decidedBy (h : DecidedBy op kind verdict vs) : 2 ≤ vs.length := by
  obtain ⟨before, x, y, after, rfl, -⟩ := h
  rw [List.length_append, List.length_cons, List.length_cons]
  omega

/-- What stands `before` a pair, with its first leaf, begins as the list does. -/
theorem head?_before {before after : List Leaf} {x y : Leaf}
    (h : b :: vs = before ++ x :: y :: after) : (before ++ [x]).head? = some b := by
  have hhead := congrArg List.head? h
  cases before with
  | nil => exact hhead.symm
  | cons first before => exact hhead.symm

/-- A list is `DecidedBy` its first pair, or this one holds and a later one decides. -/
theorem decidedBy_cons_cons : DecidedBy op kind verdict (a :: b :: vs) ↔
    compare op kind a b = verdict ∨ Compares op kind a b ∧ DecidedBy op kind verdict (b :: vs) := by
  constructor
  · rintro ⟨before, x, y, after, hsplit, hchain, hverdict⟩
    -- Without leaves before it, the pair that decides is the first one.
    cases before with
    | nil =>
        rw [List.nil_append, List.cons.injEq, List.cons.injEq] at hsplit
        obtain ⟨rfl, rfl, -⟩ := hsplit
        exact .inl hverdict
    | cons first before =>
        rw [List.cons_append, List.cons.injEq] at hsplit
        obtain ⟨rfl, hrest⟩ := hsplit
        rw [List.cons_append, List.isChain_cons] at hchain
        exact .inr ⟨hchain.1 b (head?_before hrest), before, x, y, after, hrest, hchain.2, hverdict⟩
  · rintro (hverdict | ⟨hab, before, x, y, after, hrest, hchain, hverdict⟩)
    · exact ⟨[], a, b, vs, rfl, .singleton a, hverdict⟩
    · refine ⟨a :: before, x, y, after, by rw [hrest, List.cons_append], ?_, hverdict⟩
      rw [List.cons_append, List.isChain_cons, head?_before hrest]
      refine ⟨fun c hc => ?_, hchain⟩
      exact Option.some.inj hc ▸ hab

/-- `neighboursHold` is true exactly where the leaves are a chain of `Compares`. -/
theorem neighboursHold_eq_true_iff :
    neighboursHold op kind vs = .ok true ↔ vs.IsChain (Compares op kind) := by
  induction vs with
  | nil => exact iff_of_true rfl .nil
  | cons a rest ih =>
      cases rest with
      | nil => exact iff_of_true rfl (.singleton a)
      | cons b rest =>
          rw [neighboursHold, List.isChain_cons_cons, Compares, ← ih]
          cases compare op kind a b with
          | error e => simp
          | ok holds => cases holds <;> simp

/-- `neighboursHold` has any other verdict where the list is `DecidedBy` a pair with
this verdict. -/
theorem neighboursHold_eq_iff_decidedBy (hverdict : verdict ≠ .ok true) :
    neighboursHold op kind vs = verdict ↔ DecidedBy op kind verdict vs := by
  induction vs with
  | nil =>
      refine iff_of_false (fun h => hverdict h.symm) fun h => ?_
      exact absurd (two_le_length_of_decidedBy h) (by simp)
  | cons a rest ih =>
      cases rest with
      | nil =>
          refine iff_of_false (fun h => hverdict h.symm) fun h => ?_
          exact absurd (two_le_length_of_decidedBy h) (by simp)
      | cons b rest =>
          rw [neighboursHold, decidedBy_cons_cons, Compares]
          cases compare op kind a b with
          | error e => simp
          | ok holds =>
              cases holds with
              | false => simp
              | true =>
                  -- A pair that holds gives no verdict but `true`, so a later one decides.
                  simp [ih, hverdict.symm]

/-- `Leaf.boolean` tells verdicts apart. -/
theorem map_boolean_inj {t : Except EvalError Bool} :
    t.map boolean = verdict.map boolean ↔ t = verdict := by
  cases t <;> cases verdict <;> simp [Except.map]

end Leaf

namespace Expr

variable {op : ComparatorOp} {kind : ScalarKind} {look : Lookup} {first second : Expr}
  {rest : List Expr}

/-! ### Chains of operands that have values -/

/-- `evalWith` goes through a comparison as a chain, on from the first operand. -/
theorem evalWith_comparator : (comparator op kind first second rest).evalWith look =
    first.evalWith look >>= fun a =>
      chainFrom op kind true a (evalAll look (second :: rest)) >>= fun holds =>
        pure (.boolean holds) := by
  rw [evalWith, evalAll]
  simp only [chainFrom_cons, if_true, bind_assoc]

/-- `chainFrom` over operands that have values is decided by `neighboursHold`, unless it
is settled already. -/
theorem result_chainFrom {acc : Bool} {previous : Leaf} {operands : List (Traced Leaf)}
    {vs : List Leaf} (h : List.Forall₂ (fun operand v => operand.result = .ok v) operands vs) :
    (chainFrom op kind acc previous operands).result =
      if acc then Leaf.neighboursHold op kind (previous :: vs) else .ok false := by
  induction h generalizing acc previous with
  | nil => cases acc <;> rfl
  | @cons operand v operands vs hv _ ih =>
      rw [chainFrom_cons, Traced.bind_of_ok hv]
      cases acc with
      | false =>
          -- A settled chain takes the next operand without comparing it.
          exact ih
      | true =>
          simp only [if_true, Traced.result_bind, Traced.result_lift, Leaf.neighboursHold, ih]
          rfl

/-- A comparison of operands that have values is decided by `neighboursHold`. -/
theorem result_comparator {vs : List Leaf}
    (h : List.Forall₂ (fun e v => (e.evalWith look).result = .ok v) (first :: second :: rest) vs) :
    ((comparator op kind first second rest).evalWith look).result =
      (Leaf.neighboursHold op kind vs).map Leaf.boolean := by
  cases h with
  | @cons _ v _ vs hv h =>
      have hrest : List.Forall₂ (fun operand v => operand.result = .ok v)
          (evalAll look (second :: rest)) vs := by
        rw [evalAll_eq_map, List.forall₂_map_left_iff]
        exact h
      rw [evalWith_comparator, Traced.result_bind, hv, except_bind_ok, Traced.result_bind,
        result_chainFrom hrest]
      rfl

/-! ### Chains and the conjunction of their pairs -/

/-- `neighbours op kind es`: the comparisons of each operand with the next. -/
def neighbours (op : ComparatorOp) (kind : ScalarKind) : List Expr → List Expr
  | a :: b :: rest => comparator op kind a b [] :: neighbours op kind (b :: rest)
  | _ => []

/-- `pairwise`: the conjunction of the comparisons of each operand with the next. -/
def pairwise (op : ComparatorOp) (kind : ScalarKind) (first second third : Expr)
    (rest : List Expr) : Expr :=
  logical .and (comparator op kind first second []) (comparator op kind second third [])
    (neighbours op kind (third :: rest))

variable {third : Expr} {acc c : Bool} {x y : Leaf} {operands : List (Traced Leaf)}

/-- `evalWith` goes through all pairs of `pairwise`. -/
theorem evalWith_pairwise : (pairwise op kind first second third rest).evalWith look =
    connectFrom .and true (evalAll look (neighbours op kind (first :: second :: third :: rest))) >>=
      fun holds => pure (.boolean holds) := by
  rw [pairwise, evalWith]
  simp only [neighbours, evalAll, connectFrom, LogicalOp.combine, Bool.true_and, bind_assoc]

/-- As an operand of a connective, a pair is the `compare` of its values. -/
theorem boolean_pair : boolean ((comparator op kind first second []).evalWith look) =
    first.evalWith look >>= fun x => second.evalWith look >>= fun y =>
      Traced.lift (Leaf.compare op kind x y) := by
  rw [boolean, evalWith]
  simp only [evalAll, chainFrom, bind_assoc, pure_bind]
  refine congrArg _ (funext fun x => congrArg _ (funext fun y => ?_))
  exact bind_pure _

/-- Where a conjunction that begins with a pair has a value, both sides of the pair have
values, and these `compare`. -/
theorem values_of_connectFrom_pair (h : (connectFrom .and acc
      ((comparator op kind first second []).evalWith look :: operands)).result = .ok c) :
    ∃ x y b, (first.evalWith look).result = .ok x ∧ (second.evalWith look).result = .ok y ∧
      Leaf.compare op kind x y = .ok b := by
  obtain ⟨b, hpair, -⟩ := Traced.result_bind_eq_ok_iff.mp h
  rw [boolean_pair] at hpair
  obtain ⟨x, hx, hpair⟩ := Traced.result_bind_eq_ok_iff.mp hpair
  obtain ⟨y, hy, hb⟩ := Traced.result_bind_eq_ok_iff.mp hpair
  exact ⟨x, y, b, hx, hy, hb⟩

section Step

variable (hy : (second.evalWith look).result = .ok y) (hc : Leaf.compare op kind x y = .ok c)
include hy hc

/-- `connectFrom` reads both sides of a pair. -/
theorem connectFrom_pair (hx : (first.evalWith look).result = .ok x) :
    connectFrom .and acc ((comparator op kind first second []).evalWith look :: operands) =
      ⟨(first.evalWith look).reads ++ (second.evalWith look).reads ++
        (connectFrom .and (acc && c) operands).reads,
        (connectFrom .and (acc && c) operands).result⟩ := by
  have hpair : boolean ((comparator op kind first second []).evalWith look) =
      ⟨(first.evalWith look).reads ++ (second.evalWith look).reads, .ok c⟩ := by
    rw [boolean_pair, Traced.bind_of_ok hx, Traced.bind_of_ok hy, hc]
    simp
  rw [connectFrom, hpair]
  rfl

/-- `chainFrom` reads the next operand only. -/
theorem chainFrom_step :
    chainFrom op kind acc x (second.evalWith look :: operands) =
      ⟨(second.evalWith look).reads ++ (chainFrom op kind (acc && c) y operands).reads,
        (chainFrom op kind (acc && c) y operands).result⟩ := by
  rw [chainFrom_cons, Traced.bind_of_ok hy]
  cases acc with
  | true =>
      simp only [if_true, hc]
      rfl
  | false => rfl

end Step

/-- `eraseDups` drops what is in the list `before` already. -/
theorem eraseDups_append_append_of_subset {before again after : List Path}
    (h : ∀ p ∈ again, p ∈ before) :
    (before ++ (again ++ after)).eraseDups = (before ++ after).eraseDups := by
  have hagain : again.removeAll before = [] := by
    rw [List.removeAll, List.filter_eq_nil_iff]
    intro p hp
    simp [h p hp]
  have hsplit : (again ++ after).removeAll before = after.removeAll before := by
    rw [List.removeAll, List.filter_append]
    exact (congrArg (· ++ _) hagain).trans (List.nil_append _)
  rw [List.eraseDups_append, List.eraseDups_append, hsplit]

/-- Where `connectFrom` over the remaining `neighbours` has a value, `chainFrom` over
the rest has it too. Behind reads that hold those of the operand before (`hbefore`),
both record the same. -/
theorem chainFrom_of_connectFrom {e : Expr} {es : List Expr} {before : List Path}
    (hx : (e.evalWith look).result = .ok x) (hbefore : ∀ p ∈ (e.evalWith look).reads, p ∈ before)
    (h : (connectFrom .and acc (evalAll look (neighbours op kind (e :: es)))).result = .ok c) :
    (chainFrom op kind acc x (evalAll look es)).result = .ok c ∧
      (before ++ (chainFrom op kind acc x (evalAll look es)).reads).eraseDups =
        (before ++ (connectFrom .and acc
          (evalAll look (neighbours op kind (e :: es)))).reads).eraseDups := by
  induction es generalizing e x acc before with
  | nil => exact ⟨h, rfl⟩
  | cons next es ih =>
      rw [neighbours, evalAll] at h
      obtain ⟨x', y, b, hx', hy, hb⟩ := values_of_connectFrom_pair h
      obtain rfl : x = x' := Except.ok.inj (hx.symm.trans hx')
      rw [connectFrom_pair hy hb hx] at h
      rw [neighbours, evalAll, evalAll, connectFrom_pair hy hb hx, chainFrom_step hy hb]
      have hread : ∀ p ∈ (next.evalWith look).reads, p ∈ before ++ (next.evalWith look).reads :=
        fun p hp => List.mem_append_right before hp
      obtain ⟨hresult, hreads⟩ := ih hy hread h
      refine ⟨hresult, ?_⟩
      -- The pair reads its left side again, the chain does not.
      rw [List.append_assoc, eraseDups_append_append_of_subset hbefore, ← List.append_assoc,
        ← List.append_assoc]
      exact hreads

/-- Where `pairwise` has a value, the comparison has the same and records the same
paths. -/
theorem comparator_of_pairwise {leaf : Leaf}
    (h : ((pairwise op kind first second third rest).evalWith look).result = .ok leaf) :
    ((comparator op kind first second (third :: rest)).evalWith look).result = .ok leaf ∧
      ((comparator op kind first second (third :: rest)).evalWith look).recorded =
        ((pairwise op kind first second third rest).evalWith look).recorded := by
  rw [evalWith_pairwise] at h ⊢
  obtain ⟨c, hconnect, hleaf⟩ := Traced.result_bind_eq_ok_iff.mp h
  obtain ⟨x, y, b, hx, hy, hb⟩ := values_of_connectFrom_pair hconnect
  obtain ⟨hchain, hreads⟩ := chainFrom_of_connectFrom hx (fun _ hp => hp) hconnect
  rw [evalWith_comparator, Traced.bind_of_ok hx, Traced.bind_of_ok hchain,
    Traced.bind_of_ok hconnect]
  refine ⟨hleaf, ?_⟩
  -- Both have read the first operand, and the conjunction begins with it.
  simp only [Traced.recorded, Traced.reads_pure, List.append_nil]
  rw [hreads, neighbours, evalAll, connectFrom_pair hy hb hx, List.append_assoc]
  exact eraseDups_append_append_of_subset fun _ hp => hp

/-- A comparison of operands that have values is true when each `Compares` with the
next, and then each does with every later one. It is false when a pair of neighbours
compares as false and all pairs before it hold, and fails as such a pair fails
(`DecidedBy`). A third case there is not. The conjunction of the pairs (`pairwise`),
where it has a value, has the value of the comparison and records the same paths. -/
theorem comparator_chain (op : ComparatorOp) (kind : ScalarKind) (env : Environment)
    (first second : Expr) :
    (∀ rest vs, List.Forall₂ (fun e v => (e.eval env).result = .ok v)
        (first :: second :: rest) vs →
      let chain := ((comparator op kind first second rest).eval env).result
      (chain = .ok (.boolean true) ↔ vs.IsChain (Leaf.Compares op kind)) ∧
      (chain = .ok (.boolean true) → vs.Pairwise (Leaf.Compares op kind)) ∧
      (chain = .ok (.boolean false) ↔ Leaf.DecidedBy op kind (.ok false) vs) ∧
      (∀ fault, chain = .error fault ↔ Leaf.DecidedBy op kind (.error fault) vs) ∧
      ((∃ b, chain = .ok (.boolean b)) ∨ ∃ fault, chain = .error fault)) ∧
    ∀ third rest leaf, ((pairwise op kind first second third rest).eval env).result = .ok leaf →
      let chain := (comparator op kind first second (third :: rest)).eval env
      chain.result = .ok leaf ∧
        chain.recorded = ((pairwise op kind first second third rest).eval env).recorded := by
  refine ⟨fun rest vs hvalues => ?_, fun third rest leaf h => comparator_of_pairwise h⟩
  intro chain
  have hchain : chain = (Leaf.neighboursHold op kind vs).map Leaf.boolean :=
    result_comparator hvalues
  -- The chain says what the comparisons of neighbours say, with the first one that
  -- decides.
  have htold (verdict : Except EvalError Bool) :
      chain = verdict.map Leaf.boolean ↔ Leaf.neighboursHold op kind vs = verdict := by
    rw [hchain, Leaf.map_boolean_inj]
  have htrue := (htold (.ok true)).trans Leaf.neighboursHold_eq_true_iff
  refine ⟨htrue, fun h => List.isChain_iff_pairwise.mp (htrue.mp h), ?_, fun fault => ?_, ?_⟩
  · exact (htold (.ok false)).trans (Leaf.neighboursHold_eq_iff_decidedBy (by simp))
  · exact (htold (.error fault)).trans (Leaf.neighboursHold_eq_iff_decidedBy (by simp))
  -- These are a truth value or a fault.
  · rw [hchain]
    cases Leaf.neighboursHold op kind vs with
    | ok b => exact .inl ⟨b, rfl⟩
    | error fault => exact .inr ⟨fault, rfl⟩

/-- An item has a `price` of 2.90, while 2 are asked for it and 2.1 were paid. Cut off
to numbers all three are equal, each to each. The price is not below what is asked,
which makes a rising chain false although its last operand is no number. The conjunction
of the pairs of the first chain is true, and so the chain records what it records. -/
theorem comparator_chain_item :
    let price : Path := ⟨["_curr", "price"]⟩
    let asked : Path := ⟨["_curr", "asked"]⟩
    let cost : Leaf := .decimal ⟨false, 290, 2, by decide, by decide⟩
    let two : Leaf := .number ⟨2, by decide, by decide⟩
    let paid : Leaf := .decimal ⟨false, 21, 1, by decide, by decide⟩
    let env : Environment := .node
      [("_curr", .node [("asked", .leaf two), ("price", .leaf cost)])]
    let level := comparator .equals .number (.path price) (.path asked) [.literal paid]
    let rising := comparator .lessThan .number (.path price) (.path asked) [.literal (.text "none")]
    let pairs := pairwise .equals .number (.path price) (.path asked) (.literal paid) []
    (level.eval env).result = .ok (.boolean true) ∧
    [cost, two, paid].Pairwise (Leaf.Compares .equals .number) ∧
    (rising.eval env).result = .ok (.boolean false) ∧
    Leaf.compare .lessThan .number two (.text "none") = .error (.typeMismatch .number .text) ∧
    (pairs.eval env).result = .ok (.boolean true) ∧
    (level.eval env).recorded = (pairs.eval env).recorded := by
  intro price asked cost two paid env level rising pairs
  obtain ⟨hlevel, hpairwise⟩ := comparator_chain .equals .number env (.path price) (.path asked)
  obtain ⟨hrising, -⟩ := comparator_chain .lessThan .number env (.path price) (.path asked)
  -- As numbers, which truncate, all three are level; the cost is not below two, which
  -- decides before the text is looked at.
  have hequal : [cost, two, paid].IsChain (Leaf.Compares .equals .number) :=
    .cons_cons rfl (.cons_cons rfl (.singleton paid))
  have hfirst : Leaf.DecidedBy .lessThan .number (.ok false) [cost, two, .text "none"] :=
    ⟨[], cost, two, [.text "none"], rfl, .singleton cost, rfl⟩
  have hpairs : (pairs.eval env).result = .ok (.boolean true) := rfl
  obtain ⟨htrue, hall, -⟩ := hlevel [.literal paid] [cost, two, paid]
    (.cons rfl (.cons rfl (.cons rfl .nil)))
  obtain ⟨-, -, hfalse, -⟩ := hrising [.literal (.text "none")] [cost, two, .text "none"]
    (.cons rfl (.cons rfl (.cons rfl .nil)))
  have hlevelTrue := htrue.mpr hequal
  exact ⟨hlevelTrue, hall hlevelTrue, hfalse.mpr hfirst, rfl, hpairs,
    (hpairwise _ _ _ hpairs).2⟩

end Expr

end EntityRules
