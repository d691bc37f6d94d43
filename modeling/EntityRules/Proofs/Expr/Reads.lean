import EntityRules.Proofs.Expr.Steps
import EntityRules.Proofs.Lists

/-!
# `EntityRules.Proofs.Expr.Reads`: what was read determines what comes out

Evaluation asks an environment for one path after another, and which path it asks
for next depends on the answers so far. So the paths that were read are not known
beforehand, but they are all that the outcome depends on: another environment
that answers these paths alike is asked the same questions, in the same order,
and gives the same leaf or the same error.

`Determined` states this for any computation over a look-up:

* `determined_bind`: two steps are determined if the second is for each value of
  the first. The reads of the first step come first, so an environment that
  answers all reads alike answers those of the first step alike, which makes the
  second step the same computation in both.
* `determined_evalWith`: evaluation is determined, whatever the expression,
  because steps keep the property.

`reads_evalWith_sublist` is the static side: an evaluation reads paths in the
order in which the expression mentions them, and leaves some of them out.
`outcome_determined_by_recorded` puts both together for environments.
-/

set_option autoImplicit false

namespace EntityRules

open Proofs

/-! ### The reads of two steps -/

namespace Traced

variable {α β : Type} {t : Traced α} {next : α → Traced β}

/-- A bind, `>>=`, has the reads of its first step. -/
theorem mem_reads_bind_left {p : Path} (h : p ∈ t.reads) : p ∈ (t >>= next).reads := by
  cases ht : t.result with
  | ok a =>
      rw [bind_of_ok ht]
      exact List.mem_append_left _ h
  | error e =>
      rw [bind_of_error ht]
      exact h

/-- A bind, `>>=`, has the reads of its second step. -/
theorem mem_reads_bind_right {a : α} {p : Path} (ht : t.result = .ok a)
    (h : p ∈ (next a).reads) : p ∈ (t >>= next).reads := by
  rw [bind_of_ok ht]
  exact List.mem_append_right _ h

/-- A bind, `>>=`, reads parts of two lists, one after the other, if its steps do. -/
theorem reads_bind_sublist {ps qs : List Path} (ht : t.reads.Sublist ps)
    (hnext : ∀ a, (next a).reads.Sublist qs) : (t >>= next).reads.Sublist (ps ++ qs) := by
  cases hresult : t.result with
  | ok a =>
      rw [bind_of_ok hresult]
      exact ht.append (hnext a)
  | error e =>
      rw [bind_of_error hresult]
      exact ht.trans (List.sublist_append_left ps qs)

end Traced

namespace Expr

variable {α β : Type}

/-! ### Computations that are determined by what they read -/

/-- `Determined t`: the computation depends on the paths that it reads alone. With any
other look-up that answers these alike it gives the same, reads included. -/
def Determined (t : Lookup → Traced α) : Prop :=
  ∀ look look' : Lookup, (∀ p ∈ (t look).reads, look p = look' p) → t look' = t look

/-- What does not look anything up is `Determined`. -/
theorem determined_const (t : Traced α) : Determined fun _ => t :=
  fun _ _ _ => rfl

/-- A single look-up is `Determined`: it reads its path. -/
theorem determined_path (p : Path) : Determined fun look => ⟨[p], look p⟩ := by
  intro look look' h
  have hp : look p = look' p := h p (List.mem_singleton_self p)
  show (⟨[p], look' p⟩ : Traced Leaf) = ⟨[p], look p⟩
  rw [hp]

/-- Two steps are `Determined` if both are, the second for each value of the first. -/
theorem determined_bind {t : Lookup → Traced α} {next : Lookup → α → Traced β}
    (ht : Determined t) (hnext : ∀ a, Determined fun look => next look a) :
    Determined fun look => t look >>= next look := by
  intro look look' h
  have hfirst : t look' = t look := ht look look' fun p hp => h p (Traced.mem_reads_bind_left hp)
  show (t look' >>= next look') = (t look >>= next look)
  rw [hfirst]
  cases hresult : (t look).result with
  | error e => rw [Traced.bind_of_error hresult, Traced.bind_of_error hresult]
  | ok a =>
      -- Only now is it known which computation the second step is.
      have hsecond : next look' a = next look a :=
        hnext a look look' fun p hp => h p (Traced.mem_reads_bind_right hresult hp)
      rw [Traced.bind_of_ok hresult, Traced.bind_of_ok hresult, hsecond]

/-- `evalWith` is `Determined` by the paths that it reads. -/
theorem determined_evalWith (e : Expr) : Determined fun look => e.evalWith look := by
  have hsteps : StepInvariant fun _ t => Determined t :=
    { lift := fun _ => determined_const _
      path := determined_path
      bind := determined_bind }
  exact hsteps.evalWith e

/-! ### Paths that are mentioned -/

section Mentions

variable {look : Lookup} {es : List Expr} {arms : List (Expr × Expr)}

/-- `lift` reads nothing, and leaves the reads to the next step. -/
theorem reads_lift_bind_sublist {result : Except EvalError α} {next : α → Traced β}
    {ps : List Path} (h : ∀ a, (next a).reads.Sublist ps) :
    (Traced.lift result >>= next).reads.Sublist ps := by
  have hlift : (Traced.lift result).reads.Sublist [] := List.Sublist.refl []
  exact Traced.reads_bind_sublist hlift h

/-- `lift` reads nothing, so the reads of the step before stay as they are. -/
theorem reads_bind_lift_sublist {t : Traced α} {f : α → Except EvalError β} {ps : List Path}
    (h : t.reads.Sublist ps) : (t >>= fun a => Traced.lift (f a)).reads.Sublist ps := by
  have hlift : ∀ a, (Traced.lift (f a)).reads.Sublist [] := fun _ => List.Sublist.refl []
  have hboth := Traced.reads_bind_sublist h hlift
  rwa [List.append_nil] at hboth

/-- `arithmeticFrom` reads the operands in order. -/
theorem reads_arithmeticFrom_sublist
    (hes : ∀ e ∈ es, (e.evalWith look).reads.Sublist e.occurrences)
    (op : ArithmeticOp) (kind : NumericKind) (acc : Leaf) :
    (arithmeticFrom op kind acc (evalAll look es)).reads.Sublist (occurrencesAll es) := by
  induction es generalizing acc with
  | nil => exact List.Sublist.refl []
  | cons e rest ih =>
      obtain ⟨he, hrest⟩ := List.forall_mem_cons.mp hes
      refine Traced.reads_bind_sublist he fun next => ?_
      exact reads_lift_bind_sublist fun acc => ih hrest acc

/-- `chainFrom` reads the operands in order, also when it is settled. -/
theorem reads_chainFrom_sublist
    (hes : ∀ e ∈ es, (e.evalWith look).reads.Sublist e.occurrences)
    (op : ComparatorOp) (kind : ScalarKind) (acc : Bool) (previous : Leaf) :
    (chainFrom op kind acc previous (evalAll look es)).reads.Sublist (occurrencesAll es) := by
  induction es generalizing acc previous with
  | nil => exact List.Sublist.refl []
  | cons e rest ih =>
      obtain ⟨he, hrest⟩ := List.forall_mem_cons.mp hes
      rw [evalAll, chainFrom_cons]
      refine Traced.reads_bind_sublist he fun next => ?_
      exact reads_lift_bind_sublist fun acc => ih hrest acc next

/-- `connectFrom` reads the operands in order, also when it is settled. -/
theorem reads_connectFrom_sublist
    (hes : ∀ e ∈ es, (e.evalWith look).reads.Sublist e.occurrences)
    (op : LogicalOp) (acc : Bool) :
    (connectFrom op acc (evalAll look es)).reads.Sublist (occurrencesAll es) := by
  induction es generalizing acc with
  | nil => exact List.Sublist.refl []
  | cons e rest ih =>
      obtain ⟨he, hrest⟩ := List.forall_mem_cons.mp hes
      exact Traced.reads_bind_sublist (reads_bind_lift_sublist he) fun next => ih hrest _

/-- `select` reads keys, and then one value or the last branch. -/
theorem reads_select_sublist
    (harms : ∀ arm ∈ arms, (arm.1.evalWith look).reads.Sublist arm.1.occurrences ∧
      (arm.2.evalWith look).reads.Sublist arm.2.occurrences)
    {otherwise : Traced Leaf} {ps : List Path} (hotherwise : otherwise.reads.Sublist ps)
    (condition : Leaf) :
    (select condition otherwise (evalArms look arms)).reads.Sublist
      (occurrencesArms arms ++ ps) := by
  induction arms with
  | nil => exact hotherwise
  | cons arm rest ih =>
      obtain ⟨⟨hkey, hvalue⟩, hrest⟩ := List.forall_mem_cons.mp harms
      rw [occurrencesArms, List.append_assoc, List.append_assoc]
      refine Traced.reads_bind_sublist hkey fun key => ?_
      split
      · exact hvalue.trans (List.sublist_append_left _ _)
      · exact (ih hrest).trans (List.sublist_append_right _ _)

/-- `evalWith` reads paths in the order of their `occurrences`, some of which may be
left out. -/
theorem reads_evalWith_sublist (look : Lookup) (e : Expr) :
    (e.evalWith look).reads.Sublist e.occurrences := by
  induction e with
  | literal value => exact List.Sublist.refl []
  | path p => exact List.Sublist.refl [p]
  -- Operands are read from left to right, the steps between them read nothing.
  | arithmetic op kind first rest ihfirst ihrest =>
      refine Traced.reads_bind_sublist ihfirst fun first => ?_
      exact reads_lift_bind_sublist fun acc => reads_arithmeticFrom_sublist ihrest op kind acc
  | comparator op kind first second rest ihfirst ihsecond ihrest =>
      refine Traced.reads_bind_sublist ihfirst fun first => ?_
      refine Traced.reads_bind_sublist ihsecond fun second => ?_
      refine reads_lift_bind_sublist fun acc => ?_
      exact reads_bind_lift_sublist (reads_chainFrom_sublist ihrest op kind acc second)
  | logical op first second rest ihfirst ihsecond ihrest =>
      refine Traced.reads_bind_sublist (reads_bind_lift_sublist ihfirst) fun first => ?_
      refine Traced.reads_bind_sublist (reads_bind_lift_sublist ihsecond) fun second => ?_
      exact reads_bind_lift_sublist (reads_connectFrom_sublist ihrest op _)
  | not operand ih => exact reads_bind_lift_sublist (reads_bind_lift_sublist ih)
  -- Arms that are not reached leave their occurrences out.
  | matching condition arms otherwise ihcondition iharms ihotherwise =>
      refine Traced.reads_bind_sublist ihcondition fun condition => ?_
      exact reads_select_sublist iharms ihotherwise condition

end Mentions

end Expr

/-! ### Environments -/

/-- `env.Agree env' p`: the environments answer `p` alike, with one leaf, or neither
with any. -/
def Environment.Agree (env env' : Environment) (p : Path) : Prop :=
  ∀ value, env.lookup p = .ok value ↔ env'.lookup p = .ok value

/-- Environments that `Agree` on a path give one result for it: an environment without
an answer fails by the name of the path, whatever else it holds. -/
theorem Environment.Agree.lookup_eq {env env' : Environment} {p : Path} (h : env.Agree env' p) :
    env.lookup p = env'.lookup p := by
  have hvalues : env.find? p.segments = env'.find? p.segments := by
    refine Option.ext fun value => ?_
    rw [← lookup_eq_ok_iff, ← lookup_eq_ok_iff]
    exact h value
  rw [Environment.lookup, Environment.lookup, hvalues]

namespace Expr

/-- What an evaluation has `recorded` determines its outcome. Another environment that
is found to `Agree` on every recorded path gives the same leaf or the same error, and
the same paths are recorded in the same order. A path is recorded once, and only if the
expression mentions it, whether the evaluation succeeds or fails. -/
theorem outcome_determined_by_recorded (e : Expr) (env : Environment) :
    (∀ env' : Environment, (∀ p ∈ (e.eval env).recorded, env.Agree env' p) →
      (e.eval env').result = (e.eval env).result ∧
        (e.eval env').recorded = (e.eval env).recorded) ∧
    (e.eval env).recorded.Nodup ∧
    ∀ p ∈ (e.eval env).recorded, p ∈ e.referencedPaths := by
  refine ⟨fun env' h => ?_, nodup_eraseDups _, fun p hp => ?_⟩
  · have hsame : ∀ p ∈ (e.evalWith env.lookup).reads, env.lookup p = env'.lookup p := by
      intro p hp
      exact (h p (List.mem_eraseDups.mpr hp)).lookup_eq
    have hrun : e.eval env' = e.eval env := determined_evalWith e env.lookup env'.lookup hsame
    rw [hrun]
    exact ⟨rfl, rfl⟩
  · have hread : p ∈ (e.evalWith env.lookup).reads := List.mem_eraseDups.mp hp
    exact List.mem_eraseDups.mpr ((reads_evalWith_sublist env.lookup e).subset hread)

/-- A match on `_curr.qty` takes its arm for three and never comes to
`_curr.other`, so an entity that has this value too gives the same text. -/
theorem outcome_determined_by_recorded_match :
    let qty : Path := ⟨["_curr", "qty"]⟩
    let other : Path := ⟨["_curr", "other"]⟩
    let three : Leaf := .number ⟨3, by decide, by decide⟩
    let e : Expr := .matching (.path qty) [(.literal three, .literal (.text "three"))] (.path other)
    let env : Environment := .node [("_curr", .node [("qty", .leaf three)])]
    let env' : Environment :=
      .node [("_curr", .node [("other", .leaf (.text "x")), ("qty", .leaf three)])]
    (∀ p ∈ (e.eval env).recorded, env.Agree env' p) ∧ ¬ env.Agree env' other ∧
      (e.eval env').result = .ok (.text "three") ∧ (e.eval env').recorded = [qty] := by
  intro qty other three e env env'
  have hrecorded : (e.eval env).recorded = [qty] := rfl
  have hagree : ∀ p ∈ (e.eval env).recorded, env.Agree env' p := by
    intro p hp value
    rw [hrecorded, List.mem_singleton] at hp
    rw [hp]
    exact Iff.rfl
  have hother : ¬ env.Agree env' other := by
    intro h
    have hfound : env.lookup other = .ok (.text "x") := (h (.text "x")).mpr rfl
    cases hfound
  obtain ⟨hresult, hsame⟩ := (outcome_determined_by_recorded e env).1 env' hagree
  exact ⟨hagree, hother, hresult.trans rfl, hsame.trans hrecorded⟩

end Expr

end EntityRules
