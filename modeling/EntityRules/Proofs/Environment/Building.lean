import EntityRules.Expr.Eval
import EntityRules.Proofs.Environment.Insertion
import EntityRules.Proofs.FirstFault

/-!
# `EntityRules.Proofs.Environment.Building`: the tree of a list of paths

A tree is built by binding one path after another, those that the resolver has a
value for. The theorems say what comes of it without speaking of the tree:

* `lookup_build`: in the tree of a list each path of the list is answered as the
  resolver answers it, and no other path has a value.
* `build_fails_iff`: the tree cannot be built exactly when the paths with a value
  clash. They clash if one of them is empty or one is strictly above another, in
  whichever order they stand.
* `build_eq_error_iff`: the fault is that of the first path that clashes with
  those before it.

A run of bindings is an induction on the list, with the tree built so far in
front of it. What it carries along is `find?_bindAll`, one equation for all that
can be read, and `grown_bindAll`, that no branch is without a leaf. The second is
what turns a refusal of the tree into a clash of two paths.
-/

set_option autoImplicit false

namespace EntityRules

open Proofs

/-! ### Paths that clash -/

namespace Path

/-- `p.Above q`: `q` begins with `p` and goes on. -/
def Above (p q : Path) : Prop := q.startsWith p = true ∧ p ≠ q

/-- `Clash paths`: not all of `paths` can be bound in one tree, because one of them is
empty, or one is `Above` another. -/
def Clash (paths : List Path) : Prop :=
  .empty ∈ paths ∨ ∃ p ∈ paths, ∃ q ∈ paths, p.Above q

/-- `Refused before p fault`: why `p` is refused behind the paths `before`. The empty
path is never bound; any other is refused for a path above or below it. -/
inductive Refused (before : List Path) (p : Path) : EvalError → Prop
  | empty : p = .empty → Refused before p (.unknownField "")
  | conflict {q : Path} : p ≠ .empty → q ∈ before → q.Above p ∨ p.Above q →
      Refused before p (.conflict p)

variable {p q : Path}

/-- `segments` tells paths apart. -/
theorem segments_inj : p.segments = q.segments ↔ p = q := by
  cases p
  cases q
  simp

/-- `isEmpty` accepts the empty path only. -/
theorem isEmpty_iff : p.isEmpty = true ↔ p = .empty := by
  rw [isEmpty, List.isEmpty_iff]
  exact segments_inj (q := .empty)

/-- A path that another one is `Above` has at least one segment more. -/
theorem above_iff : p.Above q ↔ ∃ segment rest, q.segments = p.segments ++ segment :: rest := by
  rw [Above, startsWith, List.isPrefixOf_iff_prefix]
  constructor
  · intro ⟨⟨rest, hrest⟩, hne⟩
    cases rest with
    | nil =>
        rw [List.append_nil, segments_inj] at hrest
        exact absurd hrest hne
    | cons segment rest => exact ⟨segment, rest, hrest.symm⟩
  · intro ⟨segment, rest, hsplit⟩
    refine ⟨⟨segment :: rest, hsplit.symm⟩, ?_⟩
    intro heq
    have hlength := congrArg List.length hsplit
    rw [heq, List.length_append, List.length_cons] at hlength
    omega

end Path

/-! ### One binding -/

namespace Environment

variable {env env' : Environment} {p : Path} {value : Leaf} {fault : EvalError}

/-- `insert` succeeds for any path but the empty one where `bind?` does. -/
theorem insert_eq_ok_iff :
    env.insert p value = .ok env' ↔ p ≠ .empty ∧ env.bind? value p.segments = some env' := by
  rw [insert]
  split
  · next h => simp [Path.isEmpty_iff.mp h]
  · next h =>
      have hne : p ≠ .empty := fun heq => h (Path.isEmpty_iff.mpr heq)
      cases env.bind? value p.segments with
      | none => simp
      | some tree => simp [hne]

/-- `insert` refuses the empty path as unknown, and any other where `bind?` does. -/
theorem insert_eq_error_iff : env.insert p value = .error fault ↔
    (p = .empty ∧ fault = .unknownField "") ∨
      (p ≠ .empty ∧ fault = .conflict p ∧ env.bind? value p.segments = none) := by
  rw [insert]
  split
  · next h => simp [Path.isEmpty_iff.mp h, eq_comm]
  · next h =>
      have hne : p ≠ .empty := fun heq => h (Path.isEmpty_iff.mpr heq)
      cases env.bind? value p.segments with
      | none => simp [hne, eq_comm]
      | some tree => simp [hne]

end Environment

/-! ### A run of bindings -/

namespace Resolver

variable {resolver resolver' : Resolver} {env env' : Environment} {paths before : List Path}
  {p : Path} {fault : EvalError}

/-- `resolver.bindOne env p` binds `p`, if it has a value. -/
def bindOne (resolver : Resolver) (env : Environment) (p : Path) : Except EvalError Environment :=
  match resolver p with
  | none => .ok env
  | some value => env.insert p value

/-- `bindAll` is `bindOne` for one path after another. -/
theorem bindAll_eq_foldlM (resolver : Resolver) (env : Environment) (paths : List Path) :
    resolver.bindAll env paths = paths.foldlM resolver.bindOne env := by
  induction paths generalizing env with
  | nil => rfl
  | cons p rest ih =>
      rw [bindAll, List.foldlM_cons, bindOne]
      cases resolver p with
      | none => exact ih env
      | some value => exact congrArg _ (funext ih)

/-- `bindOne` binds a path where it has a value, and else leaves the tree as it is. -/
theorem find?_bindOne (h : resolver.bindOne env p = .ok env') (q : Path) :
    env'.find? q.segments = ((if q = p then resolver p else none) <|> env.find? q.segments) := by
  rw [bindOne] at h
  cases hp : resolver p with
  | none =>
      rw [hp, Except.ok.injEq] at h
      simp [h]
  | some value =>
      rw [hp] at h
      have hbind := (Environment.insert_eq_ok_iff.mp h).2
      simp only [Environment.find?_bind? hbind, Path.segments_inj]
      by_cases hq : q = p
      · simp [hq]
      · simp [hq]

/-- `bindAll` keeps what holds of the tree at the start (`hstart`) and is kept by every
`insert` (`hinsert`). -/
theorem keeps_of_bindAll {P : Environment → Prop}
    (hinsert : ∀ {env env' : Environment} {p : Path} {value : Leaf},
      P env → env.insert p value = .ok env' → P env')
    (hstart : P env) (h : resolver.bindAll env paths = .ok env') : P env' := by
  rw [bindAll_eq_foldlM] at h
  induction paths generalizing env with
  | nil =>
      cases h
      exact hstart
  | cons p rest ih =>
      obtain ⟨tree, hstep, hrest⟩ := except_bind_eq_ok.mp h
      refine ih ?_ hrest
      rw [bindOne] at hstep
      -- A path without an answer is passed over.
      cases hp : resolver p with
      | none =>
          rw [hp, Except.ok.injEq] at hstep
          exact hstep ▸ hstart
      | some value =>
          rw [hp] at hstep
          exact hinsert hstart hstep

/-- Behind `bindAll` every path of the list is read as the resolver answers it, and
every other as before. -/
theorem find?_bindAll (h : resolver.bindAll env paths = .ok env') (q : Path) :
    env'.find? q.segments =
      ((if q ∈ paths then resolver q else none) <|> env.find? q.segments) := by
  rw [bindAll_eq_foldlM] at h
  induction paths generalizing env with
  | nil =>
      cases h
      simp
  | cons p rest ih =>
      obtain ⟨tree, hstep, hrest⟩ := except_bind_eq_ok.mp h
      rw [ih hrest, find?_bindOne hstep]
      by_cases hq : q = p
      · -- Bound again or not, the path has the one value that the resolver gives it.
        subst hq
        by_cases hagain : q ∈ rest
        · simp [hagain, ← Option.or_assoc]
        · simp [hagain]
      · simp [hq]

/-- `bindAll` leaves no branch without a leaf. -/
theorem grown_bindAll (hgrown : env.Grown) (h : resolver.bindAll env paths = .ok env') :
    env'.Grown := by
  refine keeps_of_bindAll (fun hgrown hinsert => ?_) hgrown h
  exact Environment.grown_bind? hgrown (Environment.insert_eq_ok_iff.mp hinsert).2

/-- `bindAll` fails on the empty path, if that has a value. -/
theorem ne_empty_of_bindAll (h : resolver.bindAll env paths = .ok env') :
    ∀ p ∈ paths, (resolver p).isSome → p ≠ .empty := by
  rw [bindAll_eq_foldlM] at h
  induction paths generalizing env with
  | nil => exact fun p hp => absurd hp List.not_mem_nil
  | cons first rest ih =>
      obtain ⟨tree, hstep, hrest⟩ := except_bind_eq_ok.mp h
      rw [List.forall_mem_cons]
      refine ⟨?_, ih hrest⟩
      intro hvalue
      obtain ⟨value, hvalue⟩ := Option.isSome_iff_exists.mp hvalue
      rw [bindOne, hvalue] at hstep
      exact (Environment.insert_eq_ok_iff.mp hstep).1

/-- `build` makes one tree of a list for resolvers that agree on it. -/
theorem build_congr (h : ∀ p ∈ paths, resolver p = resolver' p) :
    resolver.build paths = resolver'.build paths := by
  rw [build, build]
  generalize Environment.empty = env
  induction paths generalizing env with
  | nil => rfl
  | cons p rest ih =>
      rw [List.forall_mem_cons] at h
      have hstep : resolver.bindOne env p = resolver'.bindOne env p := by
        rw [bindOne, bindOne, h.1]
      rw [bindAll_eq_foldlM, bindAll_eq_foldlM, List.foldlM_cons, List.foldlM_cons, hstep]
      simp only [← bindAll_eq_foldlM, ih h.2]

/-! ### The tree of a list -/

/-- `resolver.bound paths`: those of `paths` that have a value. -/
def bound (resolver : Resolver) (paths : List Path) : List Path :=
  paths.filter fun p => (resolver p).isSome

/-- A path is `bound` when it is in the list and has a value. -/
theorem mem_bound : p ∈ resolver.bound paths ↔ p ∈ paths ∧ (resolver p).isSome := by
  rw [bound, List.mem_filter]

/-- `build` looks only at the paths that are `bound`. -/
theorem build_bound (resolver : Resolver) (paths : List Path) :
    resolver.build (resolver.bound paths) = resolver.build paths := by
  have hstep : ∀ env p, (if (resolver p).isSome then resolver.bindOne env p else pure env) =
      resolver.bindOne env p := by
    intro env p
    rw [bindOne]
    cases resolver p with
    | none => rfl
    | some value => rfl
  rw [build, build, bindAll_eq_foldlM, bindAll_eq_foldlM, bound, List.foldlM_filter]
  simp only [hstep]

/-- The tree of `build` has the values of the paths in the list and no others. -/
theorem find?_build (h : resolver.build paths = .ok env) (q : Path) :
    env.find? q.segments = if q ∈ paths then resolver q else none := by
  rw [find?_bindAll h q, Environment.find?_empty]
  simp

/-- In the tree of `build`, each path of the list is answered as the resolver answers
it. -/
theorem lookup_build (h : resolver.build paths = .ok env) (hp : p ∈ paths) :
    env.lookup p = resolver.lookup p := by
  have hfound : env.find? p.segments = resolver p := by rw [find?_build h, if_pos hp]
  cases hvalue : resolver p with
  | none => simp only [Environment.lookup, lookup, hfound, hvalue]
  | some value => simp only [Environment.lookup, lookup, hfound, hvalue]

/-- What can be read in the tree of `build` is what is `bound`. -/
theorem isSome_find?_build (h : resolver.build paths = .ok env) (q : Path) :
    (env.find? q.segments).isSome ↔ q ∈ resolver.bound paths := by
  rw [find?_build h, mem_bound]
  by_cases hq : q ∈ paths
  · simp [hq]
  · simp [hq]

/-- The tree of `build` refuses a path exactly when it is `Refused` behind what is
`bound`. -/
theorem insert_build_eq_error_iff (h : resolver.build before = .ok env) {value : Leaf} :
    env.insert p value = .error fault ↔ Path.Refused (resolver.bound before) p fault := by
  have hgrown : env.Grown := grown_bindAll Environment.grown_empty h
  -- What was bound before is what the tree finds, so the two speak of the same clashes.
  have hrefused : env.bind? value p.segments = none ↔
      ∃ q ∈ resolver.bound before, q.Above p ∨ p.Above q := by
    rw [Environment.bind?_eq_none_iff_of_grown hgrown]
    constructor
    · intro ⟨q, hq, hclash⟩
      refine ⟨⟨q⟩, (isSome_find?_build h ⟨q⟩).mp hq, ?_⟩
      rwa [Path.above_iff, Path.above_iff]
    · intro ⟨q, hq, hclash⟩
      refine ⟨q.segments, (isSome_find?_build h q).mpr hq, ?_⟩
      rwa [← Path.above_iff, ← Path.above_iff]
  rw [Environment.insert_eq_error_iff, hrefused]
  constructor
  · rintro (⟨hp, rfl⟩ | ⟨hp, rfl, q, hq, hclash⟩)
    · exact .empty hp
    · exact .conflict hp hq hclash
  · intro hfault
    cases hfault with
    | empty hp => exact .inl ⟨hp, rfl⟩
    | conflict hp hq hclash => exact .inr ⟨hp, rfl, _, hq, hclash⟩

/-- Where `build` succeeds, what is `bound` does not `Clash`. -/
theorem not_clash_of_build (h : resolver.build paths = .ok env) :
    ¬ Path.Clash (resolver.bound paths) := by
  rintro (hempty | ⟨p, hp, q, hq, habove⟩)
  · obtain ⟨hmem, hvalue⟩ := mem_bound.mp hempty
    exact ne_empty_of_bindAll h _ hmem hvalue rfl
  · obtain ⟨segment, rest, hsplit⟩ := Path.above_iff.mp habove
    have hp := (isSome_find?_build h p).mpr hp
    have hq := (isSome_find?_build h q).mpr hq
    rw [hsplit, Environment.find?_append_cons_eq_none hp] at hq
    cases hq

/-- A path that is `Refused` behind others clashes with them. -/
theorem clash_of_refused {after : List Path} (h : Path.Refused before p fault) :
    Path.Clash (before ++ p :: after) := by
  have hp : p ∈ before ++ p :: after := by simp
  cases h with
  | empty hempty => exact .inl (hempty ▸ hp)
  | conflict _ hq hclash =>
      have hq := List.mem_append_left (p :: after) hq
      rcases hclash with habove | habove
      · exact .inr ⟨_, hq, _, hp, habove⟩
      · exact .inr ⟨_, hp, _, hq, habove⟩

/-- Of paths that are all `bound`, the first ones are. -/
theorem bound_eq_self {after : List Path} (h : resolver.bound paths = before ++ after) :
    resolver.bound before = before := by
  rw [bound, List.filter_eq_self]
  intro p hp
  have hmem : p ∈ resolver.bound paths := h ▸ List.mem_append_left after hp
  exact (mem_bound.mp hmem).2

/-- `build` fails when it succeeds for the first paths that are `bound`, and the next
one is `Refused` behind them. -/
theorem build_eq_error_iff_exists_build : resolver.build paths = .error fault ↔
    ∃ before p after, resolver.bound paths = before ++ p :: after ∧
      (∃ env, resolver.build before = .ok env) ∧ Path.Refused before p fault := by
  rw [← build_bound, build, bindAll_eq_foldlM, foldlM_eq_error_iff]
  refine exists_congr fun before => exists_congr fun p => exists_congr fun after => ?_
  rw [exists_and_left, and_congr_right_iff]
  intro hsplit
  have hbefore : resolver.bound before = before := bound_eq_self hsplit
  have hvalue : (resolver p).isSome := by
    have hp : p ∈ resolver.bound paths := by simp [hsplit]
    exact (mem_bound.mp hp).2
  obtain ⟨value, hvalue⟩ := Option.isSome_iff_exists.mp hvalue
  have hstep : ∀ env, resolver.bindOne env p = env.insert p value := by
    intro env
    rw [bindOne, hvalue]
  -- On the tree of the first paths, the step refuses what these refuse.
  have hrefused : ∀ env, resolver.build before = .ok env →
      (resolver.bindOne env p = .error fault ↔ Path.Refused before p fault) := by
    intro env h
    rw [hstep, insert_build_eq_error_iff h, hbefore]
  simp only [← bindAll_eq_foldlM]
  constructor
  · intro ⟨env, h, hfault⟩
    exact ⟨⟨env, h⟩, (hrefused env h).mp hfault⟩
  · intro ⟨⟨env, h⟩, hfault⟩
    exact ⟨env, h, (hrefused env h).mpr hfault⟩

/-- `build` fails exactly when the paths that are `bound` do `Clash`. -/
theorem build_fails_iff :
    (∃ fault, resolver.build paths = .error fault) ↔ Path.Clash (resolver.bound paths) := by
  constructor
  · intro ⟨fault, h⟩
    obtain ⟨before, p, after, hsplit, -, hrefused⟩ := build_eq_error_iff_exists_build.mp h
    exact hsplit ▸ clash_of_refused hrefused
  · intro hclash
    rw [except_fails_iff]
    intro ⟨env, h⟩
    exact not_clash_of_build h hclash

/-- `build` has the fault of the first path that is `Refused` behind those before it. -/
theorem build_eq_error_iff : resolver.build paths = .error fault ↔
    ∃ before p after, resolver.bound paths = before ++ p :: after ∧ ¬ Path.Clash before ∧
      Path.Refused before p fault := by
  rw [build_eq_error_iff_exists_build]
  refine exists_congr fun before => exists_congr fun p => exists_congr fun after => ?_
  refine and_congr_right fun hsplit => and_congr_left fun _ => ?_
  -- What is bound before has answers already, so it is built as it is.
  have hfails : (∃ fault, resolver.build before = .error fault) ↔
      Path.Clash (resolver.bound before) := build_fails_iff
  rw [except_fails_iff, bound_eq_self hsplit] at hfails
  exact not_not.symm.trans (not_congr hfails)

end Resolver

end EntityRules
