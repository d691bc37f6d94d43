import EntityRules.Checks
import EntityRules.Ownership.Permissions
import EntityRules.Proofs.Environment.Building
import EntityRules.Proofs.Expr.Reads

/-!
# `EntityRules.Proofs.Expr.Strictness`: a missing value fails what mentions it

Only a match chooses what to evaluate. Every other node evaluates all of its operands,
in order: arithmetic and connectives because they need them, a comparison although it
may be false already. So an expression without a match goes through the paths that it
mentions one by one, stops at the first without a value, and has a result only behind
the last.

* `GoesThrough`: what is said of every step of such an evaluation. It reads a list of
  paths from the front, and where it has a result it has read the whole list and every
  path of it has a value. `goesThrough_bind` puts two steps together, and the loops over
  operands follow by induction on them.
* `goesThrough_evalWith`: an expression without a match goes through its mentions.
* `Resolver.evaluate_ne_ok`: so it has no value where a path is not answered.
* `missing_value_fails`: for environments, and for the checks and borrow rules of a
  struct. A missing value is never made up for: no check passes and no borrow is granted
  on an expression that would have to read it.

A default of the schema counts as an answer, but not for what an actor has to prove
(`Registry.default?_eq_none_of_borrow`).
-/

set_option autoImplicit false

namespace EntityRules

open Proofs

/-! ### Expressions without a match -/

namespace Expr

mutual

/-- `e.matchFree`: no match stands anywhere in `e`. -/
def matchFree : Expr → Bool
  | literal _ => true
  | path _ => true
  | arithmetic _ _ first rest => matchFree first && matchFreeAll rest
  | comparator _ _ first second rest => matchFree first && (matchFree second && matchFreeAll rest)
  | logical _ first second rest => matchFree first && (matchFree second && matchFreeAll rest)
  | not operand => matchFree operand
  | matching _ _ _ => false

/-- `matchFree` for a list of operands. -/
def matchFreeAll : List Expr → Bool
  | [] => true
  | e :: rest => matchFree e && matchFreeAll rest

end

/-- `matchFreeAll es` when each of the `es` is `matchFree`. -/
theorem matchFreeAll_iff {es : List Expr} :
    matchFreeAll es = true ↔ ∀ e ∈ es, e.matchFree = true := by
  induction es with
  | nil => simp [matchFreeAll]
  | cons e rest ih => rw [matchFreeAll, Bool.and_eq_true, ih, List.forall_mem_cons]

/-! ### Going through a list of paths -/

section Steps

variable {α β : Type} {look : Lookup} {paths later : List Path} {t : Traced α}
  {next : α → Traced β}

/-- `GoesThrough look paths t`: the computation reads `paths` from the front, and where
it has a result it has read all of them and each has a value. -/
structure GoesThrough (look : Lookup) (paths : List Path) (t : Traced α) : Prop where
  front : t.reads <+: paths
  reads_eq : ∀ a, t.result = .ok a → t.reads = paths
  bound : ∀ a, t.result = .ok a → ∀ p ∈ paths, ∃ value, look p = .ok value

/-- `lift` reads nothing and `GoesThrough` no paths. -/
theorem goesThrough_lift (result : Except EvalError α) :
    GoesThrough look [] (Traced.lift result) where
  front := List.prefix_rfl
  reads_eq _ _ := rfl
  bound _ _ _ hp := absurd hp List.not_mem_nil

/-- A single look-up `GoesThrough` its path. -/
theorem goesThrough_path (p : Path) : GoesThrough look [p] ⟨[p], look p⟩ where
  front := List.prefix_rfl
  reads_eq _ _ := rfl
  bound value h q hq := by
    obtain rfl := List.mem_singleton.mp hq
    exact ⟨value, h⟩

/-- A bind, `>>=`, `GoesThrough` the paths of its first step and then of its second. -/
theorem goesThrough_bind (ht : GoesThrough look paths t)
    (hnext : ∀ a, GoesThrough look later (next a)) :
    GoesThrough look (paths ++ later) (t >>= next) := by
  cases hresult : t.result with
  | error e =>
      -- The second step is not reached: what was read is part of the first list.
      rw [Traced.bind_of_error hresult]
      refine ⟨ht.front.trans (List.prefix_append _ _), ?_, ?_⟩
      · intro b hb
        cases hb
      · intro b hb
        cases hb
  | ok a =>
      have hreads : t.reads = paths := ht.reads_eq a hresult
      rw [Traced.bind_of_ok hresult, hreads]
      refine ⟨?_, ?_, ?_⟩
      · exact (List.prefix_append_right_inj paths).mpr (hnext a).front
      · intro b hb
        show paths ++ (next a).reads = paths ++ later
        rw [(hnext a).reads_eq b hb]
      · intro b hb p hp
        rcases List.mem_append.mp hp with hp | hp
        · exact ht.bound a hresult p hp
        · exact (hnext a).bound b hb p hp

/-- `lift` can stand in front: the paths are those of the next step. -/
theorem goesThrough_lift_bind {result : Except EvalError α}
    (hnext : ∀ a, GoesThrough look later (next a)) :
    GoesThrough look later (Traced.lift result >>= next) :=
  goesThrough_bind (goesThrough_lift result) hnext

/-- `lift` can follow: the paths are those of the step before. -/
theorem goesThrough_bind_lift {f : α → Except EvalError β} (ht : GoesThrough look paths t) :
    GoesThrough look paths (t >>= fun a => Traced.lift (f a)) := by
  have hlift : ∀ a, GoesThrough look [] (Traced.lift (f a)) := fun a => goesThrough_lift (f a)
  have hboth := goesThrough_bind ht hlift
  rwa [List.append_nil] at hboth

end Steps

/-! ### Operands -/

section Operands

variable {look : Lookup} {es : List Expr}

/-- `arithmeticFrom` `GoesThrough` the paths of its operands. -/
theorem goesThrough_arithmeticFrom
    (hes : ∀ e ∈ es, GoesThrough look e.occurrences (e.evalWith look))
    (op : ArithmeticOp) (kind : NumericKind) (acc : Leaf) :
    GoesThrough look (occurrencesAll es) (arithmeticFrom op kind acc (evalAll look es)) := by
  induction es generalizing acc with
  | nil => exact goesThrough_lift (.ok acc)
  | cons e rest ih =>
      obtain ⟨he, hrest⟩ := List.forall_mem_cons.mp hes
      refine goesThrough_bind he fun next => ?_
      exact goesThrough_lift_bind fun acc => ih hrest acc

/-- `chainFrom` `GoesThrough` the paths of its operands, also when it is settled. -/
theorem goesThrough_chainFrom
    (hes : ∀ e ∈ es, GoesThrough look e.occurrences (e.evalWith look))
    (op : ComparatorOp) (kind : ScalarKind) (acc : Bool) (previous : Leaf) :
    GoesThrough look (occurrencesAll es)
      (chainFrom op kind acc previous (evalAll look es)) := by
  induction es generalizing acc previous with
  | nil => exact goesThrough_lift (.ok acc)
  | cons e rest ih =>
      obtain ⟨he, hrest⟩ := List.forall_mem_cons.mp hes
      -- The next operand is evaluated whatever the chain has come to.
      rw [evalAll, chainFrom_cons]
      refine goesThrough_bind he fun next => ?_
      exact goesThrough_lift_bind fun acc => ih hrest acc next

/-- `connectFrom` `GoesThrough` the paths of its operands, also when it is settled. -/
theorem goesThrough_connectFrom
    (hes : ∀ e ∈ es, GoesThrough look e.occurrences (e.evalWith look))
    (op : LogicalOp) (acc : Bool) :
    GoesThrough look (occurrencesAll es) (connectFrom op acc (evalAll look es)) := by
  induction es generalizing acc with
  | nil => exact goesThrough_lift (.ok acc)
  | cons e rest ih =>
      obtain ⟨he, hrest⟩ := List.forall_mem_cons.mp hes
      exact goesThrough_bind (goesThrough_bind_lift he) fun next => ih hrest _

/-- `evalWith` of a `matchFree` expression `GoesThrough` its `occurrences`. -/
theorem goesThrough_evalWith (look : Lookup) {e : Expr} (he : e.matchFree = true) :
    GoesThrough look e.occurrences (e.evalWith look) := by
  induction e with
  | literal value => exact goesThrough_lift (.ok value)
  | path p => exact goesThrough_path p
  | arithmetic op kind first rest ihfirst ihrest =>
      rw [matchFree, Bool.and_eq_true, matchFreeAll_iff] at he
      obtain ⟨hfirst, hrest⟩ := he
      refine goesThrough_bind (ihfirst hfirst) fun first => ?_
      -- The first operand is brought to the kind of the node, which reads nothing.
      refine goesThrough_lift_bind fun acc => ?_
      exact goesThrough_arithmeticFrom (fun e he => ihrest e he (hrest e he)) op kind acc
  | comparator op kind first second rest ihfirst ihsecond ihrest =>
      rw [matchFree, Bool.and_eq_true, Bool.and_eq_true, matchFreeAll_iff] at he
      obtain ⟨hfirst, hsecond, hrest⟩ := he
      refine goesThrough_bind (ihfirst hfirst) fun first => ?_
      refine goesThrough_bind (ihsecond hsecond) fun second => ?_
      refine goesThrough_lift_bind fun acc => ?_
      exact goesThrough_bind_lift
        (goesThrough_chainFrom (fun e he => ihrest e he (hrest e he)) op kind acc second)
  | logical op first second rest ihfirst ihsecond ihrest =>
      rw [matchFree, Bool.and_eq_true, Bool.and_eq_true, matchFreeAll_iff] at he
      obtain ⟨hfirst, hsecond, hrest⟩ := he
      refine goesThrough_bind (goesThrough_bind_lift (ihfirst hfirst)) fun first => ?_
      refine goesThrough_bind (goesThrough_bind_lift (ihsecond hsecond)) fun second => ?_
      exact goesThrough_bind_lift
        (goesThrough_connectFrom (fun e he => ihrest e he (hrest e he)) op _)
  | not operand ih =>
      rw [matchFree] at he
      exact goesThrough_bind_lift (goesThrough_bind_lift (ih he))
  | matching condition arms otherwise _ _ _ =>
      -- Only here would a path be mentioned and not be read.
      cases he

end Operands

end Expr

/-! ### Missing values -/

/-- `eraseDups` keeps what is in front in front. -/
theorem eraseDups_prefix_eraseDups {paths paths' : List Path} (h : paths <+: paths') :
    paths.eraseDups <+: paths'.eraseDups := by
  obtain ⟨later, rfl⟩ := h
  rw [List.eraseDups_append]
  exact List.prefix_append _ _

/-- `Resolver.evaluate` of a `matchFree` expression has no value where one of its
`referencedPaths` is not answered. -/
theorem Resolver.evaluate_ne_ok {resolver : Resolver} {e : Expr} {p : Path}
    (he : e.matchFree = true) (hp : p ∈ e.referencedPaths) (hnone : resolver p = none)
    (leaf : Leaf) : (resolver.evaluate e).result ≠ .ok leaf := by
  intro h
  rw [evaluate] at h
  cases henv : resolver.environmentFor e with
  | error fault =>
      rw [henv] at h
      cases h
  | ok env =>
      rw [henv] at h
      obtain ⟨value, hvalue⟩ :=
        (Expr.goesThrough_evalWith env.lookup he).bound leaf h p (List.mem_eraseDups.mp hp)
      -- The tree answers the path as the resolver does, which is not at all.
      rw [lookup_build henv hp, lookup, hnone] at hvalue
      cases hvalue

/-- `default?` has nothing for what an actor has to prove, which is under `_borrow`. -/
theorem Registry.default?_eq_none_of_borrow (r : Registry) (s : Struct) {p : Path}
    (hp : p.snapshot? = some .borrow) : r.default? s p = none := by
  rw [default?, if_pos hp]

/-- `withDefaults` has no value for a path without an answer and without a `default?`.
-/
theorem Resolver.withDefaults_eq_none {resolver : Resolver} {r : Registry} {s : Struct}
    {p : Path} (hanswer : resolver p = none) (hdefault : r.default? s p = none) :
    resolver.withDefaults r s p = none := by
  show (resolver p <|> r.default? s p) = none
  rw [hanswer, hdefault]
  rfl

/-- `verdict` is that of a boolean, which gives itself. -/
theorem Leaf.verdict_eq_ok_iff {leaf : Leaf} {b : Bool} :
    leaf.verdict = .ok b ↔ leaf = .boolean b := by
  cases leaf <;> simp [verdict]

/-- `passed` means that the expression of the check is true. -/
theorem Check.result_eq_of_passed {c : Check} {resolver : Resolver}
    (h : (c.evaluate resolver).passed = true) :
    (resolver.evaluate c.expr).result = .ok (.boolean true) := by
  have houtcome : (resolver.evaluate c.expr).result >>= Leaf.verdict = .ok true := by
    rw [CheckResult.passed] at h
    split at h
    · assumption
    · cases h
  obtain ⟨leaf, hresult, hverdict⟩ := except_bind_eq_ok.mp houtcome
  rw [hresult, Leaf.verdict_eq_ok_iff.mp hverdict]

/-- `proves` means that the predicate of the rule is true. -/
theorem Registry.result_eq_of_proves {r : Registry} {s : Struct} {resolver : Resolver}
    {rule : BorrowRule} (h : r.proves s resolver rule = true) :
    ((resolver.withDefaults r s).evaluate rule.prove).result = .ok (.boolean true) := by
  rw [proves] at h
  split at h
  · assumption
  · cases h

/-- A check that is `matchFree` is not `passed` where one of its `referencedPaths` has
neither an answer nor a `default?`. -/
theorem Check.passed_eq_false {c : Check} {r : Registry} {s : Struct} {resolver : Resolver}
    {p : Path} (hc : c.expr.matchFree = true) (hp : p ∈ c.expr.referencedPaths)
    (hanswer : resolver p = none) (hdefault : r.default? s p = none) :
    (c.evaluate (resolver.withDefaults r s)).passed = false := by
  cases hpassed : (c.evaluate (resolver.withDefaults r s)).passed with
  | false => rfl
  | true =>
      have hnone := Resolver.withDefaults_eq_none hanswer hdefault
      exact absurd (result_eq_of_passed hpassed) (Resolver.evaluate_ne_ok hc hp hnone _)

/-- An expression that is `matchFree` has a value only where each of its
`referencedPaths` has one, and then it has `recorded` them all, in order; where it fails
it has `recorded` the first of them. So a check that is `matchFree` is never `passed`
where a path of it has neither an answer nor a `default?`. And a borrow rule whose
predicate is `matchFree` is never proved, by `proves`, where a path under `_borrow` has
no answer, whatever defaults the schema declares. -/
theorem missing_value_fails :
    (∀ (e : Expr) (env : Environment), e.matchFree = true →
      (∀ leaf, (e.eval env).result = .ok leaf →
        (∀ p ∈ e.referencedPaths, ∃ value, env.lookup p = .ok value) ∧
          (e.eval env).recorded = e.referencedPaths) ∧
      ∀ fault, (e.eval env).result = .error fault →
        (e.eval env).recorded <+: e.referencedPaths) ∧
    (∀ (r : Registry) (s : Struct) (resolver : Resolver),
      (∀ c : Check, c.expr.matchFree = true →
        (∃ p ∈ c.expr.referencedPaths, resolver p = none ∧ r.default? s p = none) →
        (c.evaluate (resolver.withDefaults r s)).passed = false) ∧
      ∀ entry ∈ (r.checkResults s resolver).entries, ∃ c ∈ s.checks,
        entry = (c.name, c.evaluate (resolver.withDefaults r s))) ∧
    ∀ (r : Registry) (s : Struct) (resolver : Resolver) (field : String) (rule : BorrowRule),
      (field, rule) ∈ s.permissions.borrow.entries → rule.prove.matchFree = true →
      (∃ p ∈ rule.prove.referencedPaths, p.snapshot? = some .borrow ∧ resolver p = none) →
      field ∉ r.provedBorrows s resolver := by
  refine ⟨?_, ?_, ?_⟩
  · intro e env he
    have hthrough := Expr.goesThrough_evalWith env.lookup he
    refine ⟨?_, ?_⟩
    · intro leaf h
      refine ⟨?_, congrArg List.eraseDups (hthrough.reads_eq leaf h)⟩
      intro p hp
      exact hthrough.bound leaf h p (List.mem_eraseDups.mp hp)
    · intro fault _
      exact eraseDups_prefix_eraseDups hthrough.front
  · intro r s resolver
    refine ⟨?_, fun entry hentry => Registry.exists_check_of_mem_checkResults hentry⟩
    rintro c hc ⟨p, hp, hanswer, hdefault⟩
    exact Check.passed_eq_false hc hp hanswer hdefault
  · rintro r s resolver field rule hrule hfree ⟨p, hp, hborrow, hanswer⟩ hproved
    obtain ⟨⟨field', rule'⟩, hmem, rfl⟩ := List.mem_map.mp hproved
    obtain ⟨hentry, hproves⟩ := List.mem_filter.mp hmem
    -- A field has one rule.
    have hsame : rule' = rule := by
      rw [Table.mem_entries_iff] at hrule hentry
      exact Option.some.inj (hentry.symm.trans hrule)
    subst hsame
    have hnone := Resolver.withDefaults_eq_none hanswer (r.default?_eq_none_of_borrow s hborrow)
    exact Resolver.evaluate_ne_ok hfree hp hnone _ (Registry.result_eq_of_proves hproves)

/-- An order is handled by staff unless it says otherwise; whether it is paid has no
default. That it is one or the other is settled by the first, and has no value without
the second. So the check fails for an order of which nothing is known, and nobody
borrows the rights of the owner without a word on who asks, though the field of that
name has a default. -/
theorem missing_value_fails_order :
    let staff : Path := ⟨["_curr", "staff"]⟩
    let paid : Path := ⟨["_curr", "paid"]⟩
    let asker : Path := ⟨["_borrow", "staff"]⟩
    let staffOr (p : Path) : Expr := .logical .or (.path staff) (.path p) []
    let rule : BorrowRule := ⟨"by staff", staffOr asker, []⟩
    let check : Check := ⟨"settled", staffOr paid, "unpaid"⟩
    let fields := [("paid", ⟨.primitive .boolean, none⟩),
      ("staff", ⟨.primitive .boolean, some (.boolean true)⟩)]
    let order : Struct := { Struct.ofFields "Order" fields with
      permissions := { Permissions.none with borrow := .ofList [("owner", rule)] } }
    let r : Registry := .ofStructs "shop" [order] {}
    let unknown : Resolver := fun _ => none
    let env : Environment := .node [("_curr", .node [("staff", .leaf (.boolean true))])]
    ((staffOr staff).eval env).result = .ok (.boolean true) ∧
    ((staffOr staff).eval env).recorded = [staff] ∧
    ((staffOr paid).eval env).result = .error (.unknownField "_curr.paid") ∧
    ((staffOr paid).eval env).recorded <+: [staff, paid] ∧
    (check.evaluate (unknown.withDefaults r order)).passed = false ∧
    r.default? order ⟨["staff"]⟩ = some (.boolean true) ∧
    "owner" ∉ r.provedBorrows order unknown := by
  intro staff paid asker staffOr rule check fields order r unknown env
  obtain ⟨hevaluated, hchecks, hborrows⟩ := missing_value_fails
  -- The first disjunct is true, and the second is asked for all the same.
  have hread := (hevaluated (staffOr staff) env rfl).1 (.boolean true) rfl
  have hstopped := (hevaluated (staffOr paid) env rfl).2 (.unknownField "_curr.paid") rfl
  have hpaid : paid ∈ (staffOr paid).referencedPaths := by decide
  have hasker : asker ∈ (staffOr asker).referencedPaths := by decide
  refine ⟨rfl, hread.2, rfl, hstopped, ?_, rfl, ?_⟩
  · exact (hchecks r order unknown).1 check rfl ⟨paid, hpaid, rfl, rfl⟩
  · exact hborrows r order unknown "owner" rule (List.mem_singleton_self _) rfl
      ⟨asker, hasker, rfl, rfl⟩

end EntityRules
