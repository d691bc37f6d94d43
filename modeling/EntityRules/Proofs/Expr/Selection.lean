import EntityRules.Expr.Eval
import EntityRules.Proofs.Leaf.Equality

/-!
# `EntityRules.Proofs.Expr.Selection`: a match reads only what it selects

A match evaluates its condition and then its keys, one by one, until a key equals the
condition in kind and value. It goes on with the value of this arm, or with its last
branch when no key is left. The values of all other arms, and the keys behind the one
that fits, are not evaluated: they may fail, or read what is not there.

* `select_append_of_pass`: keys that do not fit are read and passed over. This is the
  induction on the arms; the other lemmas look at the arm that it stops at.
* `select_cons_of_fits`, `select_cons_of_error`: there the match ends on the value, or
  fails as the key does.
* `select_replace_of_passes`: the value of an arm that does not fit can be replaced
  wherever the arm stands, also behind one that fits or fails.
* `matching_reads_selected`: all of it for environments, told as what may be replaced.

The first three lemmas give the outcome with its reads as a function of what was
evaluated. So two matches with the same such parts have the same outcome, and nothing
has to be said about the parts in which they differ.
-/

set_option autoImplicit false

namespace EntityRules

namespace Expr

variable {look : Lookup} {env : Environment} {c k : Leaf} {fault : EvalError}
  {condition key value value' last : Expr} {arms before after : List (Expr × Expr)}
  {otherwise : Traced Leaf}

/-! ### Keys -/

/-- `Fits look c key`: the key evaluates to a leaf of the kind and the value of the
condition `c`. -/
def Fits (look : Lookup) (c : Leaf) (key : Expr) : Prop :=
  ∃ k, (key.evalWith look).result = .ok k ∧ k.sameVariant c = true

/-- `Passes look c key`: the key evaluates to a leaf of another kind or value than the
condition `c`, and is passed over. -/
def Passes (look : Lookup) (c : Leaf) (key : Expr) : Prop :=
  ∃ k, (key.evalWith look).result = .ok k ∧ k.sameVariant c = false

/-- `keys arms`: the keys of the arms, in order. -/
def keys (arms : List (Expr × Expr)) : List Expr := arms.map Prod.fst

/-- `readsAll look es`: what the expressions read, one behind the other. -/
def readsAll (look : Lookup) (es : List Expr) : List Path :=
  es.flatMap fun e => (e.evalWith look).reads

/-- A key of another `kind` than the condition `Passes`. -/
theorem passes_of_kind_ne (hk : (key.evalWith look).result = .ok k) (hkind : k.kind ≠ c.kind) :
    Passes look c key := by
  refine ⟨k, hk, ?_⟩
  cases hsame : k.sameVariant c with
  | false => rfl
  | true => exact absurd (Leaf.kind_eq_of_sameVariant hsame) hkind

/-! ### Arms -/

/-- `select` reads a key that `Passes`, and the next arm decides. -/
theorem select_cons_of_passes (h : Passes look c key) :
    select c otherwise (evalArms look ((key, value) :: after)) =
      ⟨(key.evalWith look).reads ++ (select c otherwise (evalArms look after)).reads,
        (select c otherwise (evalArms look after)).result⟩ := by
  obtain ⟨k, hk, hsame⟩ := h
  rw [evalArms, select, Traced.bind_of_ok hk, hsame]
  rfl

/-- `select` reads a key that `Fits` and goes on with its value. -/
theorem select_cons_of_fits (h : Fits look c key) :
    select c otherwise (evalArms look ((key, value) :: after)) =
      ⟨(key.evalWith look).reads ++ (value.evalWith look).reads,
        (value.evalWith look).result⟩ := by
  obtain ⟨k, hk, hsame⟩ := h
  rw [evalArms, select, Traced.bind_of_ok hk, hsame]
  rfl

/-- `select` ends on a key that fails. -/
theorem select_cons_of_error (h : (key.evalWith look).result = .error fault) :
    select c otherwise (evalArms look ((key, value) :: after)) =
      ⟨(key.evalWith look).reads, .error fault⟩ := by
  rw [evalArms, select, Traced.bind_of_error h]

/-- `select` reads keys that all `Passes` lets by, and the arms behind them decide. -/
theorem select_append_of_pass (h : ∀ key ∈ keys before, Passes look c key) :
    select c otherwise (evalArms look (before ++ after)) =
      ⟨readsAll look (keys before) ++ (select c otherwise (evalArms look after)).reads,
        (select c otherwise (evalArms look after)).result⟩ := by
  induction before with
  | nil => rfl
  | cons arm rest ih =>
      obtain ⟨key, value⟩ := arm
      obtain ⟨hkey, hrest⟩ := List.forall_mem_cons.mp h
      rw [List.cons_append, select_cons_of_passes hkey, ih hrest, ← List.append_assoc]
      rfl

/-- `select` does not ask for the value of an arm whose key `Passes`: it can be
replaced. -/
theorem select_replace_of_passes (h : Passes look c key) :
    select c otherwise (evalArms look (before ++ (key, value') :: after)) =
      select c otherwise (evalArms look (before ++ (key, value) :: after)) := by
  induction before with
  | nil => rw [List.nil_append, List.nil_append, select_cons_of_passes h, select_cons_of_passes h]
  | cons arm rest ih =>
      -- Whatever the first key gives, the arms behind it select alike.
      show select c otherwise ((arm.1.evalWith look, arm.2.evalWith look) ::
          evalArms look (rest ++ (key, value') :: after)) =
        select c otherwise ((arm.1.evalWith look, arm.2.evalWith look) ::
          evalArms look (rest ++ (key, value) :: after))
      rw [select, select, ih]

/-! ### Matches -/

/-- `eval` of a match reads a condition that has a value, and then `select` decides. -/
theorem eval_matching (hc : (condition.eval env).result = .ok c) :
    (matching condition arms last).eval env =
      ⟨(condition.eval env).reads ++
          (select c (last.eval env) (evalArms env.lookup arms)).reads,
        (select c (last.eval env) (evalArms env.lookup arms)).result⟩ := by
  rw [eval, evalWith]
  exact Traced.bind_of_ok hc

/-- `eval` of a match whose first fitting key is `key` has the outcome of its value: the
keys `before` it pass, and what is `after` it is not looked at. -/
theorem eval_matching_of_fits (hc : (condition.eval env).result = .ok c)
    (hbefore : ∀ key ∈ keys before, Passes env.lookup c key) (hkey : Fits env.lookup c key) :
    (matching condition (before ++ (key, value) :: after) last).eval env =
      ⟨(condition.eval env).reads ++
          (readsAll env.lookup (keys before ++ [key]) ++ (value.eval env).reads),
        (value.eval env).result⟩ := by
  rw [eval_matching hc, select_append_of_pass hbefore, select_cons_of_fits hkey]
  simp only [readsAll, List.flatMap_append, List.flatMap_singleton, List.append_assoc]
  rfl

/-- `eval` of a match none of whose keys `Fits` has the outcome of its last branch. -/
theorem eval_matching_of_pass (hc : (condition.eval env).result = .ok c)
    (harms : ∀ key ∈ keys arms, Passes env.lookup c key) :
    (matching condition arms last).eval env =
      ⟨(condition.eval env).reads ++ (readsAll env.lookup (keys arms) ++ (last.eval env).reads),
        (last.eval env).result⟩ := by
  rw [eval_matching hc, ← List.append_nil arms, select_append_of_pass (by simpa using harms),
    List.append_nil]
  rfl

/-- A match whose condition has a value `c` reads its `keys` up to the first that
`Fits`, and has the outcome of the value there; neither the values of other arms, nor
what stands behind that arm, nor the last branch make a difference. If every key
`Passes`, it has the outcome of the last branch, whatever the values of the arms are. If
a key fails before one fits, it fails as this key. A key of another `kind` than `c`,
such as a number for a decimal of the same value, never `Fits`: the value of its arm can
be replaced wherever it stands. -/
theorem matching_reads_selected (env : Environment) (condition : Expr) (c : Leaf)
    (hc : (condition.eval env).result = .ok c) :
    (∀ before key value after last, (∀ key ∈ keys before, Passes env.lookup c key) →
      Fits env.lookup c key →
      let outcome := (matching condition (before ++ (key, value) :: after) last).eval env
      outcome.result = (value.eval env).result ∧
      outcome.reads = (condition.eval env).reads ++
        (readsAll env.lookup (keys before ++ [key]) ++ (value.eval env).reads) ∧
      ∀ before' after' last', keys before' = keys before →
        (matching condition (before' ++ (key, value) :: after') last').eval env = outcome) ∧
    (∀ arms last, (∀ key ∈ keys arms, Passes env.lookup c key) →
      let outcome := (matching condition arms last).eval env
      outcome.result = (last.eval env).result ∧
      outcome.reads = (condition.eval env).reads ++
        (readsAll env.lookup (keys arms) ++ (last.eval env).reads) ∧
      ∀ arms', keys arms' = keys arms → (matching condition arms' last).eval env = outcome) ∧
    (∀ before key value after last fault, (∀ key ∈ keys before, Passes env.lookup c key) →
      (key.eval env).result = .error fault →
      ((matching condition (before ++ (key, value) :: after) last).eval env).result =
        .error fault) ∧
    ∀ before key k value value' after last, (key.eval env).result = .ok k → k.kind ≠ c.kind →
      (matching condition (before ++ (key, value') :: after) last).eval env =
        (matching condition (before ++ (key, value) :: after) last).eval env := by
  refine ⟨?_, ?_, ?_, ?_⟩
  · intro before key value after last hbefore hkey outcome
    have houtcome : outcome = _ := eval_matching_of_fits hc hbefore hkey
    refine ⟨by rw [houtcome], by rw [houtcome], ?_⟩
    -- The outcome names the keys before, and nothing else of what is replaced.
    intro before' after' last' hkeys
    rw [houtcome, eval_matching_of_fits hc (hkeys ▸ hbefore) hkey, hkeys]
  · intro arms last harms outcome
    have houtcome : outcome = _ := eval_matching_of_pass hc harms
    refine ⟨by rw [houtcome], by rw [houtcome], ?_⟩
    intro arms' hkeys
    rw [houtcome, eval_matching_of_pass hc (hkeys ▸ harms), hkeys]
  · intro before key value after last fault hbefore hkey
    rw [eval_matching hc, select_append_of_pass hbefore, select_cons_of_error hkey]
  · intro before key k value value' after last hk hkind
    rw [eval_matching hc, eval_matching hc, select_replace_of_passes (passes_of_kind_ne hk hkind)]

/-- A grade is the number two. The first key is the decimal two, which equals the number
and is passed over all the same, so its value can be left without a path to read. The
second key fits, and behind it stand a key and a last branch that would fail. Without
the second key the third is reached, and the match fails as it does. -/
theorem matching_reads_selected_grade :
    let grade : Path := ⟨["_curr", "grade"]⟩
    let lost : Path := ⟨["_curr", "lost"]⟩
    let two : Leaf := .number ⟨2, by decide, by decide⟩
    let decimalTwo : Leaf := .decimal ⟨false, 20, 1, by decide, by decide⟩
    let env : Environment := .node [("_curr", .node [("grade", .leaf two)])]
    let before : List (Expr × Expr) := [(.literal decimalTwo, .path lost)]
    let after : List (Expr × Expr) := [(.path lost, .literal two)]
    let yes : Expr := .literal (.text "yes")
    let no : Expr := .literal (.text "no")
    let e : Expr := .matching (.path grade) (before ++ (.path grade, yes) :: after) (.path lost)
    decimalTwo.equals two = true ∧
    ((Expr.path grade).eval env).result = .ok two ∧
    (∀ key ∈ keys before, Passes env.lookup two key) ∧ Fits env.lookup two (.path grade) ∧
    (e.eval env).result = .ok (.text "yes") ∧ (e.eval env).reads = [grade, grade] ∧
    (matching (.path grade) [(.literal decimalTwo, no), (.path grade, yes)] no).eval env =
      e.eval env ∧
    ((matching (.path grade) before no).eval env).result = .ok (.text "no") ∧
    ((matching (.path grade) (before ++ after) no).eval env).result =
      .error (.unknownField "_curr.lost") ∧
    (matching (.path grade) ((.literal decimalTwo, no) :: after) no).eval env =
      (matching (.path grade) (before ++ after) no).eval env := by
  intro grade lost two decimalTwo env before after yes no e
  have hc : ((Expr.path grade).eval env).result = .ok two := rfl
  -- The decimal is of another kind than the grade, and the grade is its own key.
  have hbefore : ∀ key ∈ keys before, Passes env.lookup two key := by
    intro key hkey
    obtain rfl := List.mem_singleton.mp hkey
    exact ⟨decimalTwo, rfl, rfl⟩
  have hfits : Fits env.lookup two (.path grade) := ⟨two, rfl, rfl⟩
  obtain ⟨hselected, hnone, hfails, hkinds⟩ := matching_reads_selected env (.path grade) two hc
  obtain ⟨hresult, hreads, hsame⟩ := hselected before _ yes after (.path lost) hbefore hfits
  refine ⟨by decide +kernel, hc, hbefore, hfits, hresult, hreads, ?_, ?_, ?_, ?_⟩
  -- Without the decimal in front, without the grade, with the key that fails, and with
  -- another value for the decimal.
  · exact hsame [(.literal decimalTwo, no)] [] no rfl
  · exact (hnone before no hbefore).1
  · exact hfails before (.path lost) (.literal two) [] no _ hbefore rfl
  · exact hkinds [] (.literal decimalTwo) decimalTwo (.path lost) no after no rfl (by decide)

end Expr

end EntityRules
