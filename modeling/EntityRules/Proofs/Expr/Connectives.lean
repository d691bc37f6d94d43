import EntityRules.Expr.Eval
import EntityRules.Proofs.FirstFault

/-!
# `EntityRules.Proofs.Expr.Connectives`: a connective asks every operand

A conjunction that met a false operand is settled, and so is a disjunction behind a
true one, but neither stops there: the operands behind it are asked as well, and one
of them that cannot be evaluated, or that is no boolean, fails the connective.

* `evalWith_logical`: a connective first collects the booleans of all its operands,
  in order (`booleans`), and then takes their conjunction or disjunction
  (`LogicalOp.overall`). Every law below is read off this equation.
* `booleans_eq_ok_iff`, `booleans_eq_error_iff`: what is collected, and as which
  operand it fails.
* `evalWith_not_logical`: the laws of De Morgan, reads and errors included.
* `booleans_flatten`: an operand that is a connective of the same name can be
  replaced by its operands.
* `connective_asks_all`: all of it, for environments.

The laws hold without a look at the booleans, because the two sides collect the same
operands in the same order. With a connective that stops early they would fail: a
nested one would hide its last operands from the outer one.
-/

set_option autoImplicit false

namespace EntityRules

open Proofs

/-! ### Connectives of many booleans -/

namespace LogicalOp

variable {op : LogicalOp} {b c d : Bool}

/-- `op.overall bs`: the value of a connective on a list, whether all are true, or
whether one is. -/
def overall : LogicalOp → List Bool → Bool
  | and, bs => bs.all id
  | or, bs => bs.any id

/-- `op.dual`: the other connective. -/
def dual : LogicalOp → LogicalOp
  | and => or
  | or => and

/-- `combine` groups its operands from either end. -/
theorem combine_assoc : op.combine (op.combine b c) d = op.combine b (op.combine c d) := by
  cases op with
  | and => exact Bool.and_assoc b c d
  | or => exact Bool.or_assoc b c d

/-- `overall` of no operands leaves a boolean as it is. -/
theorem combine_overall_nil : op.combine b (op.overall []) = b := by
  cases op with
  | and => exact Bool.and_true b
  | or => exact Bool.or_false b

/-- `overall` combines the first boolean with the rest. -/
theorem overall_cons (bs : List Bool) : op.overall (b :: bs) = op.combine b (op.overall bs) := by
  cases op with
  | and => rfl
  | or => rfl

/-- `overall` combines two lists as what they come to. -/
theorem overall_append (bs cs : List Bool) :
    op.overall (bs ++ cs) = op.combine (op.overall bs) (op.overall cs) := by
  cases op with
  | and => exact List.all_append
  | or => exact List.any_append

/-- The negation of `overall` is that of the `dual` on negated operands. -/
theorem not_overall (bs : List Bool) : (!op.overall bs) = op.dual.overall (bs.map (!·)) := by
  cases op with
  | and =>
      show (!bs.all id) = (bs.map (!·)).any id
      rw [List.not_all_eq_any_not, List.any_map]
      rfl
  | or =>
      show (!bs.any id) = (bs.map (!·)).all id
      rw [List.not_any_eq_all_not, List.all_map]
      rfl

end LogicalOp

/-! ### The booleans of operands -/

/-- `result` of a list of steps is that of the results of the steps. -/
theorem Traced.result_mapM {α β : Type} (f : α → Traced β) (l : List α) :
    (l.mapM f).result = l.mapM fun a => (f a).result := by
  induction l with
  | nil => rfl
  | cons a rest ih =>
      rw [List.mapM_cons, List.mapM_cons, Traced.result_bind, ← ih]
      refine congrArg _ (funext fun b => ?_)
      rw [Traced.result_bind]
      rfl

namespace Expr

variable {op : LogicalOp} {look : Lookup} {first second e : Expr} {rest es : List Expr}

/-- `booleans look es`: the booleans of the operands, asked one by one. -/
def booleans (look : Lookup) (es : List Expr) : Traced (List Bool) :=
  es.mapM fun e => boolean (e.evalWith look)

/-- `booleans` asks the first operand first. -/
theorem booleans_cons : booleans look (e :: es) =
    boolean (e.evalWith look) >>= fun b => booleans look es >>= fun bs => pure (b :: bs) :=
  List.mapM_cons

/-- `booleans` asks two lists one behind the other. -/
theorem booleans_append (es es' : List Expr) : booleans look (es ++ es') =
    booleans look es >>= fun bs => booleans look es' >>= fun cs => pure (bs ++ cs) :=
  List.mapM_append

/-- `HasTruth look e b`: the operand evaluates to a leaf that can be read as `b`. -/
def HasTruth (look : Lookup) (e : Expr) (b : Bool) : Prop :=
  ∃ leaf, (e.evalWith look).result = .ok leaf ∧ leaf.asBoolean = .ok b

/-- `LacksTruth look e fault`: the operand cannot be evaluated, or its leaf cannot be
read as a boolean. -/
def LacksTruth (look : Lookup) (e : Expr) (fault : EvalError) : Prop :=
  (e.evalWith look).result = .error fault ∨
    ∃ leaf, (e.evalWith look).result = .ok leaf ∧ leaf.asBoolean = .error fault

/-- `boolean` succeeds where the operand `HasTruth`, with this. -/
theorem boolean_eq_ok_iff {b : Bool} :
    (boolean (e.evalWith look)).result = .ok b ↔ HasTruth look e b :=
  Traced.result_bind_eq_ok_iff

/-- `boolean` fails where the operand `LacksTruth`. -/
theorem boolean_eq_error_iff {fault : EvalError} :
    (boolean (e.evalWith look)).result = .error fault ↔ LacksTruth look e fault := by
  rw [boolean, Traced.result_bind, LacksTruth]
  cases (e.evalWith look).result with
  | error why => simp
  | ok leaf => simp

/-- `booleans` are those of operands which all have a truth. -/
theorem booleans_eq_ok_iff {bs : List Bool} :
    (booleans look es).result = .ok bs ↔ List.Forall₂ (HasTruth look) es bs := by
  rw [booleans, Traced.result_mapM, mapM_eq_ok_iff]
  simp only [boolean_eq_ok_iff]

/-- `booleans` fail as the first operand does that `LacksTruth`. -/
theorem booleans_eq_error_iff {fault : EvalError} : (booleans look es).result = .error fault ↔
    ∃ before e after, es = before ++ e :: after ∧ (∀ x ∈ before, ∃ b, HasTruth look x b) ∧
      LacksTruth look e fault := by
  rw [booleans, Traced.result_mapM, mapM_eq_error_iff]
  simp only [boolean_eq_ok_iff, boolean_eq_error_iff]

/-! ### Connectives of operands -/

/-- `connectFrom` asks all operands that are left. -/
theorem connectFrom_evalAll (acc : Bool) : connectFrom op acc (evalAll look es) =
    booleans look es >>= fun bs => pure (op.combine acc (op.overall bs)) := by
  induction es generalizing acc with
  | nil =>
      show pure acc = pure (op.combine acc (op.overall []))
      rw [LogicalOp.combine_overall_nil]
  | cons e es ih =>
      -- The loop combines from the left, the list from the right.
      rw [evalAll, connectFrom, booleans_cons]
      simp only [ih, bind_assoc, pure_bind, LogicalOp.overall_cons, LogicalOp.combine_assoc]

/-- `evalWith` collects the `booleans` of the operands and takes the `overall` value. -/
theorem evalWith_logical : (logical op first second rest).evalWith look =
    booleans look (first :: second :: rest) >>= fun bs => pure (.boolean (op.overall bs)) := by
  rw [evalWith, booleans_cons, booleans_cons]
  simp only [connectFrom_evalAll, bind_assoc, pure_bind, LogicalOp.overall_cons,
    LogicalOp.combine_assoc]

/-- `boolean` reads a boolean off the leaf that was made of it. -/
theorem boolean_bind_pure {α : Type} {t : Traced α} {f : α → Bool} :
    boolean (t >>= fun a => pure (.boolean (f a))) = t >>= fun a => pure (f a) := by
  rw [boolean, bind_assoc]
  simp only [pure_bind]
  rfl

/-- As an operand, a connective is the `overall` value of its operands. -/
theorem boolean_logical : boolean ((logical op first second rest).evalWith look) =
    booleans look (first :: second :: rest) >>= fun bs => pure (op.overall bs) := by
  rw [evalWith_logical, boolean_bind_pure]

/-- `evalWith` asks the operand of a negation. -/
theorem evalWith_not : (not e).evalWith look =
    boolean (e.evalWith look) >>= fun b => pure (.boolean !b) := by
  rw [evalWith]

/-- `booleans` of negated operands are the negated ones. -/
theorem booleans_map_not :
    booleans look (es.map not) = booleans look es >>= fun bs => pure (bs.map (!·)) := by
  induction es with
  | nil => rfl
  | cons e es ih =>
      rw [List.map_cons, booleans_cons, booleans_cons, ih, evalWith_not, boolean_bind_pure]
      simp only [bind_assoc, pure_bind, List.map_cons]

/-- The negation of a connective is its `dual` on negated operands. -/
theorem evalWith_not_logical : (not (logical op first second rest)).evalWith look =
    (logical op.dual (not first) (not second) (rest.map not)).evalWith look := by
  -- One side negates the outcome, the other the booleans it is made of.
  have hnegated : not first :: not second :: rest.map not =
      (first :: second :: rest).map not := rfl
  rw [evalWith_not, boolean_logical, evalWith_logical, hnegated, booleans_map_not]
  simp only [bind_assoc, pure_bind, LogicalOp.not_overall]

/-- Where an operand is a connective of the same name, its operands can stand in its
place. Either way the same `booleans` are collected, only grouped differently. -/
theorem booleans_flatten {before ys after : List Expr} {y₁ y₂ : Expr} :
    (booleans look (before ++ logical op y₁ y₂ ys :: after) >>= fun bs =>
        pure (Leaf.boolean (op.overall bs))) =
      booleans look (before ++ (y₁ :: y₂ :: ys) ++ after) >>= fun bs =>
        pure (Leaf.boolean (op.overall bs)) := by
  rw [List.append_assoc, booleans_append, booleans_append, booleans_append, booleans_cons,
    boolean_logical]
  simp only [bind_assoc, pure_bind, LogicalOp.overall_append, LogicalOp.overall_cons]

/-- A connective asks all of its operands. It gives a boolean exactly when every one of
them `HasTruth`, and then the `overall` value of these; else it fails as the first
operand that `LacksTruth`, settled or not. So its negation is its `dual` on the negated
operands, and an operand that is a connective of the same name can be replaced by its
own operands, at any place: result, error and reads stay as they are. -/
theorem connective_asks_all (op : LogicalOp) (env : Environment) (first second : Expr)
    (rest : List Expr) :
    (∀ leaf, ((logical op first second rest).eval env).result = .ok leaf ↔
      ∃ bs, List.Forall₂ (HasTruth env.lookup) (first :: second :: rest) bs ∧
        leaf = .boolean (op.overall bs)) ∧
    (∀ fault, ((logical op first second rest).eval env).result = .error fault ↔
      ∃ before e after, first :: second :: rest = before ++ e :: after ∧
        (∀ x ∈ before, ∃ b, HasTruth env.lookup x b) ∧ LacksTruth env.lookup e fault) ∧
    (not (logical op first second rest)).eval env =
      (logical op.dual (not first) (not second) (rest.map not)).eval env ∧
    ∀ before y₁ y₂ ys after first' second' rest',
      first :: second :: rest = before ++ logical op y₁ y₂ ys :: after →
      first' :: second' :: rest' = before ++ (y₁ :: y₂ :: ys) ++ after →
      (logical op first' second' rest').eval env = (logical op first second rest).eval env := by
  -- A connective has the overall truth of its operands, asked one after the other.
  have hresult : ((logical op first second rest).eval env).result =
      (booleans env.lookup (first :: second :: rest)).result >>= fun bs =>
        .ok (.boolean (op.overall bs)) := by
    rw [eval, evalWith_logical, Traced.result_bind]
    rfl
  refine ⟨?_, ?_, evalWith_not_logical, ?_⟩
  · intro leaf
    rw [hresult, except_bind_eq_ok]
    simp only [booleans_eq_ok_iff, Except.ok.injEq, eq_comm (b := leaf)]
  · intro fault
    rw [hresult, ← booleans_eq_error_iff]
    cases (booleans env.lookup (first :: second :: rest)).result with
    | error why => simp
    | ok bs => simp
  · intro before y₁ y₂ ys after first' second' rest' hnested hflat
    rw [eval, eval, evalWith_logical, evalWith_logical, hnested, hflat, booleans_flatten]

/-- An item is `listed`, by a text, and its quantity is three. The conjunction of two
truths and a negated one is false. The disjunction is settled by its first operand and
still goes on to the quantity, which is no boolean, also where the quantity stands in a
disjunction of its own; the operand behind it is not read. -/
theorem connective_asks_all_item :
    let listed : Path := ⟨["_curr", "listed"]⟩
    let qty : Path := ⟨["_curr", "qty"]⟩
    let sold : Path := ⟨["_curr", "sold"]⟩
    let three : Leaf := .number ⟨3, by decide, by decide⟩
    let env : Environment :=
      .node [("_curr", .node [("listed", .leaf (.text "true")), ("qty", .leaf three)])]
    let yes : Expr := .literal (.boolean true)
    let hidden : Expr := .logical .and (.path listed) yes [.not (.path listed)]
    let nested : Expr := .logical .or yes (.logical .or (.path listed) (.path qty) []) [.path sold]
    let flat : Expr := .logical .or yes (.path listed) [.path qty, .path sold]
    (hidden.eval env).result = .ok (.boolean false) ∧
    yes :: .logical .or (.path listed) (.path qty) [] :: [.path sold] =
      [yes] ++ .logical .or (.path listed) (.path qty) [] :: [.path sold] ∧
    flat.eval env = nested.eval env ∧
    (flat.eval env).result = .error (.typeMismatch .boolean .number) ∧
    (nested.eval env).recorded = [listed, qty] := by
  intro listed qty sold three env yes hidden nested flat
  -- The text `true` is a truth value, and a quantity is none.
  have hlisted : HasTruth env.lookup (.path listed) true := ⟨.text "true", rfl, rfl⟩
  have hyes : HasTruth env.lookup yes true := ⟨.boolean true, rfl, rfl⟩
  have hunlisted : HasTruth env.lookup (.not (.path listed)) false := ⟨.boolean false, rfl, rfl⟩
  have hqty : LacksTruth env.lookup (.path qty) (.typeMismatch .boolean .number) :=
    .inr ⟨three, rfl, rfl⟩
  obtain ⟨hvalue, -⟩ := connective_asks_all .and env (.path listed) yes [.not (.path listed)]
  obtain ⟨-, -, -, hflatten⟩ := connective_asks_all .or env yes
    (.logical .or (.path listed) (.path qty) []) [.path sold]
  obtain ⟨-, hfault, -⟩ := connective_asks_all .or env yes (.path listed) [.path qty, .path sold]
  -- The quantity fails, and what stands before it does not.
  have htruths : ∀ x ∈ [yes, .path listed], ∃ b, HasTruth env.lookup x b := by
    intro x hx
    rcases List.mem_pair.mp hx with rfl | rfl
    · exact ⟨true, hyes⟩
    · exact ⟨true, hlisted⟩
  refine ⟨?_, rfl, ?_, ?_, rfl⟩
  · exact (hvalue _).mpr ⟨_, .cons hlisted (.cons hyes (.cons hunlisted .nil)), rfl⟩
  · exact hflatten [yes] _ _ [] [.path sold] _ _ _ rfl rfl
  · exact (hfault _).mpr ⟨[yes, .path listed], .path qty, [.path sold], rfl, htruths, hqty⟩

end Expr

end EntityRules
