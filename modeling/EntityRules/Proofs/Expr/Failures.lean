import EntityRules.Checks
import EntityRules.Proofs.Effects.Blocks
import EntityRules.Proofs.Expr.Answers

/-!
# `EntityRules.Proofs.Expr.Failures`: what an error is about

An evaluation can fail at a path without a value or on values that an operator cannot
take. The error tells which of the two it was, and it tells the path: the one that was
read last.

* `Attributed`: what is said of every step. Every path that was read has a value, but for
  the last one where that is what failed. `attributed_bind` is why this is kept: behind a
  path without a value nothing is read.
* `Expr.exists_last_or_ofValues`: the path that failed was not read before, because then it
  would have failed before. So it is the last in the record too, which has each path once.
* `Resolver.exists_conflict_iff`: an environment of its own is all that can be in conflict
  with itself, before anything is evaluated.
* `failures_attributed`: for environments, and for the checks and statements of a struct.
-/

set_option autoImplicit false

namespace EntityRules

open Proofs

/-! ### One error and where it comes from -/

/-- `lookup` fails on a path that it does not know. -/
theorem Environment.lookup_eq_error {env : Environment} {p : Path} {fault : EvalError}
    (h : env.lookup p = .error fault) : fault = .unknownField p.text := by
  rw [lookup] at h
  split at h
  · cases h
  · cases h
    rfl

namespace Expr

section Steps

variable {α β : Type} {look : Lookup}

/-- `Answered look paths`: all of `paths` have a value. -/
def Answered (look : Lookup) (paths : List Path) : Prop :=
  ∀ p ∈ paths, ∃ value, look p = .ok value

/-- `Attributed look t`: the computation has a result, or an error that is about the
last path that it read or about the values that it met. All other paths that it read are
`Answered`. -/
inductive Attributed (look : Lookup) : Traced α → Prop
  | result {reads : List Path} (a : α) : Answered look reads → Attributed look ⟨reads, .ok a⟩
  | atPath {reads : List Path} {p : Path} {fault : EvalError} : Answered look reads →
      look p = .error fault → Attributed look ⟨reads ++ [p], .error fault⟩
  | onValues {reads : List Path} {fault : EvalError} : Answered look reads →
      fault.OfValues → Attributed look ⟨reads, .error fault⟩

/-- What reads nothing is `Attributed` when it fails on values only. -/
theorem attributed_lift {result : Except EvalError α} (h : FailsOnValues result) :
    Attributed look (Traced.lift result) := by
  have hnone : Answered look [] := fun p hp => absurd hp List.not_mem_nil
  cases result with
  | ok a => exact .result a hnone
  | error fault => exact .onValues hnone (h fault rfl)

/-- A single look-up is `Attributed`: it fails at its path. -/
theorem attributed_path (p : Path) : Attributed look ⟨[p], look p⟩ := by
  cases hp : look p with
  | ok value =>
      refine .result value fun q hq => ?_
      rw [List.mem_singleton.mp hq]
      exact ⟨value, hp⟩
  | error fault =>
      have hnone : Answered look [] := fun p hp => absurd hp List.not_mem_nil
      exact .atPath hnone hp

/-- Two steps are `Attributed` when both are: the second is reached only where all reads
of the first have a value. -/
theorem attributed_bind {t : Traced α} {next : α → Traced β} (ht : Attributed look t)
    (hnext : ∀ a, Attributed look (next a)) : Attributed look (t >>= next) := by
  cases ht with
  | @result reads a hreads =>
      have hboth : ∀ reads', Answered look reads' → Answered look (reads ++ reads') :=
        fun reads' hreads' => List.forall_mem_append.mpr ⟨hreads, hreads'⟩
      rw [Traced.bind_of_ok rfl]
      have hsecond := hnext a
      generalize next a = second at hsecond
      cases hsecond with
      | result b hreads' => exact .result b (hboth _ hreads')
      | atPath hreads' hp =>
          rw [← List.append_assoc]
          exact .atPath (hboth _ hreads') hp
      | onValues hreads' hfault => exact .onValues (hboth _ hreads') hfault
  | atPath hreads hp =>
      -- The second step is not reached, so the path that failed stays the last.
      rw [Traced.bind_of_error rfl]
      exact .atPath hreads hp
  | onValues hreads hfault =>
      rw [Traced.bind_of_error rfl]
      exact .onValues hreads hfault

/-- Every evaluation is `Attributed`. -/
theorem attributed_evalWith (look : Lookup) (e : Expr) : Attributed look (e.evalWith look) := by
  have hsteps : StepInvariant fun _ t => ∀ look, Attributed look (t look) :=
    { lift := fun hresult _ => attributed_lift hresult
      path := fun p _ => attributed_path p
      bind := fun ht hnext look => attributed_bind (ht look) fun a => hnext a look }
  exact hsteps.evalWith e look

end Steps

/-- Behind paths that are `Answered`, one without a value is new, so it comes last in
the record. -/
theorem eraseDups_append_singleton {look : Lookup} {reads : List Path} {p : Path}
    {fault : EvalError} (hreads : Answered look reads) (hp : look p = .error fault) :
    (reads ++ [p]).eraseDups = reads.eraseDups ++ [p] := by
  have hnew : p ∉ reads := by
    intro hmem
    obtain ⟨value, hvalue⟩ := hreads p hmem
    rw [hvalue] at hp
    cases hp
  have hrest : [p].removeAll reads = [p] := by simp [List.removeAll, hnew]
  rw [List.eraseDups_append, hrest]
  rfl

section Evaluation

variable {e : Expr} {env : Environment} {fault : EvalError}

/-- An error of an evaluation is that of the path that was `recorded` last, behind paths
that are `Answered`; or it is one of values. -/
theorem exists_last_or_ofValues (h : (e.eval env).result = .error fault) :
    (∃ before p, (e.eval env).recorded = before ++ [p] ∧ Answered env.lookup before ∧
      p ∈ e.referencedPaths ∧ env.lookup p = .error fault) ∨ fault.OfValues := by
  have hattributed := attributed_evalWith env.lookup e
  have hreferenced : ∀ p ∈ (e.evalWith env.lookup).reads, p ∈ e.referencedPaths :=
    fun p => mem_referencedPaths_of_mem_reads
  rw [eval] at h ⊢
  generalize e.evalWith env.lookup = t at h hattributed hreferenced
  cases hattributed with
  | result a hreads => cases h
  -- The path without a value is the last one read, and was not read before.
  | @atPath reads p fault' hreads hp =>
      obtain rfl : fault' = fault := Except.error.inj h
      refine .inl ⟨reads.eraseDups, p, eraseDups_append_singleton hreads hp, ?_, ?_, hp⟩
      · intro q hq
        exact hreads q (List.mem_eraseDups.mp hq)
      · exact hreferenced p (List.mem_append_right reads (List.mem_singleton_self p))
  | onValues hreads hfault =>
      obtain rfl := Except.error.inj h
      exact .inr hfault

/-- Where all `referencedPaths` are `Answered`, only values are to blame. -/
theorem ofValues_of_answered (hbound : Answered env.lookup e.referencedPaths)
    (h : (e.eval env).result = .error fault) : fault.OfValues := by
  rcases exists_last_or_ofValues h with ⟨before, p, -, -, hp, hlookup⟩ | hvalues
  · obtain ⟨value, hvalue⟩ := hbound p hp
    rw [hvalue] at hlookup
    cases hlookup
  · exact hvalues

/-- `eval` does not meet a conflict. -/
theorem result_eval_ne_conflict (e : Expr) (env : Environment) (p : Path) :
    (e.eval env).result ≠ .error (.conflict p) := by
  intro h
  rcases exists_last_or_ofValues h with ⟨before, q, -, -, -, hlookup⟩ | hvalues
  · cases Environment.lookup_eq_error hlookup
  · exact hvalues

end Evaluation

end Expr

/-! ### Conflicts -/

namespace Resolver

variable {resolver : Resolver} {e : Expr}

/-- `evaluate` reports the conflicts of `build`, and no others. -/
theorem evaluate_eq_conflict_iff {p : Path} :
    (resolver.evaluate e).result = .error (.conflict p) ↔
      resolver.build e.referencedPaths = .error (.conflict p) := by
  rw [evaluate, environmentFor]
  cases resolver.build e.referencedPaths with
  | ok env => simp [Expr.result_eval_ne_conflict]
  | error fault => simp

/-- Where no referenced path is empty, there is a conflict exactly if one of the paths
that are `bound` is `Above` another one. -/
theorem exists_conflict_iff (hempty : .empty ∉ e.referencedPaths) :
    (∃ p, (resolver.evaluate e).result = .error (.conflict p)) ↔
      ∃ p ∈ resolver.bound e.referencedPaths, ∃ q ∈ resolver.bound e.referencedPaths,
        p.Above q := by
  have hbound : .empty ∉ resolver.bound e.referencedPaths :=
    fun h => hempty (mem_bound.mp h).1
  have hclash : Path.Clash (resolver.bound e.referencedPaths) ↔
      ∃ p ∈ resolver.bound e.referencedPaths, ∃ q ∈ resolver.bound e.referencedPaths,
        p.Above q := or_iff_right hbound
  rw [← hclash, ← build_fails_iff]
  simp only [evaluate_eq_conflict_iff]
  constructor
  · intro ⟨p, h⟩
    exact ⟨_, h⟩
  · intro ⟨fault, h⟩
    -- An environment refuses the empty path as well, but here it is not referenced.
    obtain ⟨before, p, after, hsplit, -, hrefused⟩ := build_eq_error_iff.mp h
    cases hrefused with
    | empty hp =>
        have hmem : p ∈ resolver.bound e.referencedPaths := by simp [hsplit]
        exact absurd (hp ▸ hmem) hbound
    | conflict _ _ _ => exact ⟨p, h⟩

end Resolver

/-- `evaluate` of a check has the conflicts of its expression: a verdict is missing only
for a leaf of another kind. -/
theorem Check.outcome_eq_conflict_iff {c : Check} {resolver : Resolver} {p : Path} :
    (c.evaluate resolver).outcome = .error (.conflict p) ↔
      (resolver.evaluate c.expr).result = .error (.conflict p) := by
  show (resolver.evaluate c.expr).result.bind Leaf.verdict = _ ↔ _
  cases (resolver.evaluate c.expr).result with
  | ok leaf => cases leaf <;> simp [Except.bind, Leaf.verdict]
  | error fault => simp [Except.bind]

/-- `mutation` has the conflicts of the expression of the statement. -/
theorem Statement.mutation_eq_conflict_iff {s : Statement} {resolver : Resolver} {effect : String}
    {p : Path} :
    s.mutation resolver effect = .error (.conflict p) ↔
      (resolver.evaluate s.expr).result = .error (.conflict p) := by
  rw [mutation]
  cases (resolver.evaluate s.expr).result with
  | ok leaf => simp [Except.map]
  | error fault => simp [Except.map]

/-- An error of `eval` says what it is about. Either it is an `unknownField`: then it
names the path that was recorded last, which the expression references and for which
there is no value, while all paths that were recorded before have one. Or it is about
the kinds of the values, or about a calculation with them; no other error occurs, and
where every referenced path has a value an unknown field does not. So what a check or a
statement reports as a `conflict` comes from its environment: it is there exactly if, of
the referenced paths with a value, one is `Above` another one. -/
theorem failures_attributed :
    (∀ (e : Expr) (env : Environment),
      (∀ fault, (e.eval env).result = .error fault →
        (∃ before p, fault = .unknownField p.text ∧ (e.eval env).recorded = before ++ [p] ∧
          p ∈ e.referencedPaths ∧ env.lookup p = .error fault ∧
          ∀ q ∈ before, ∃ value, env.lookup q = .ok value) ∨
        (∃ expected got, fault = .typeMismatch expected got) ∨ ∃ why, fault = .arithmetic why) ∧
      ((∀ p ∈ e.referencedPaths, ∃ value, env.lookup p = .ok value) →
        ∀ path, (e.eval env).result ≠ .error (.unknownField path))) ∧
    ∀ resolver : Resolver,
      (∀ c : Check, .empty ∉ c.expr.referencedPaths →
        ((∃ p, (c.evaluate resolver).outcome = .error (.conflict p)) ↔
          ∃ p ∈ resolver.bound c.expr.referencedPaths,
            ∃ q ∈ resolver.bound c.expr.referencedPaths, p.Above q)) ∧
      ∀ (effect : String) (s : Statement), .empty ∉ s.expr.referencedPaths →
        ((∃ p, s.mutation resolver effect = .error (.conflict p)) ↔
          ∃ p ∈ resolver.bound s.expr.referencedPaths,
            ∃ q ∈ resolver.bound s.expr.referencedPaths, p.Above q) := by
  refine ⟨?_, ?_⟩
  · intro e env
    refine ⟨?_, ?_⟩
    · intro fault h
      -- An evaluation fails at the path that it reads last, or on values that it has.
      rcases Expr.exists_last_or_ofValues h with
        ⟨before, p, hrecorded, hbefore, hp, hlookup⟩ | hvalues
      · exact .inl ⟨before, p, Environment.lookup_eq_error hlookup, hrecorded, hp, hlookup, hbefore⟩
      · cases fault with
        | typeMismatch expected got => exact .inr (.inl ⟨expected, got, rfl⟩)
        | arithmetic why => exact .inr (.inr ⟨why, rfl⟩)
        | _ => exact hvalues.elim
    · intro hbound path h
      exact Expr.ofValues_of_answered hbound h
  · intro resolver
    refine ⟨?_, ?_⟩
    -- A conflict arises while the environment is built, before anything is evaluated.
    · intro c hempty
      simp only [Check.outcome_eq_conflict_iff]
      exact Resolver.exists_conflict_iff hempty
    · intro effect s hempty
      simp only [Statement.mutation_eq_conflict_iff]
      exact Resolver.exists_conflict_iff hempty

/-- In an order with an `amount` of three and no rate, the amount times itself times the
rate fails at the rate, which is recorded behind the amount. A check that compares the
owner of the order with the name of the owner is in conflict, if both have a value. -/
theorem failures_attributed_order :
    let amount : Path := ⟨["_curr", "amount"]⟩
    let rate : Path := ⟨["_curr", "rate"]⟩
    let owner : Path := ⟨["_curr", "owner"]⟩
    let ownerName : Path := ⟨["_curr", "owner", "name"]⟩
    let e : Expr := .arithmetic .multiply .number (.path amount) [.path amount, .path rate]
    let env : Environment :=
      .node [("_curr", .node [("amount", .leaf (.number ⟨3, by decide, by decide⟩))])]
    let named : Check :=
      ⟨"named", .comparator .equals .text (.path owner) (.path ownerName) [], "E"⟩
    (e.eval env).result = .error (.unknownField "_curr.rate") ∧
    (e.eval env).recorded = [amount, rate] ∧
    (∃ before p, (e.eval env).recorded = before ++ [p] ∧ p.text = "_curr.rate" ∧
      p ∈ e.referencedPaths ∧ ∀ q ∈ before, ∃ value, env.lookup q = .ok value) ∧
    (∃ p, (named.evaluate fun _ => some (.text "Ann")).outcome = .error (.conflict p)) ∧
    ¬ ∃ p, (named.evaluate fun q => if q = owner then some (.text "Ann") else none).outcome =
      .error (.conflict p) := by
  intro amount rate owner ownerName e env named
  have hresult : (e.eval env).result = .error (.unknownField "_curr.rate") := rfl
  have hpaths : named.expr.referencedPaths = [owner, ownerName] := rfl
  have hnotEmpty : .empty ∉ named.expr.referencedPaths := by
    rw [hpaths]
    decide
  refine ⟨hresult, rfl, ?_, ?_, ?_⟩
  · rcases (failures_attributed.1 e env).1 _ hresult with
      ⟨before, p, hfault, hrecorded, hp, -, hbefore⟩ | ⟨_, _, hfault⟩ | ⟨_, hfault⟩
    · exact ⟨before, p, hrecorded, (EvalError.unknownField.inj hfault).symm, hp, hbefore⟩
    · cases hfault
    · cases hfault
  · refine ((failures_attributed.2 _).1 named hnotEmpty).mpr ?_
    exact ⟨owner, by decide, ownerName, by decide, by decide, by decide⟩
  · intro h
    obtain ⟨p, hp, q, hq, -, hne⟩ := ((failures_attributed.2 _).1 named hnotEmpty).mp h
    -- Only the owner has a value, and no path is above itself.
    have honly : ∀ p ∈ Resolver.bound (fun q => if q = owner then some (.text "Ann") else none)
        named.expr.referencedPaths, p = owner := by decide
    exact hne ((honly p hp).trans (honly q hq).symm)

end EntityRules
