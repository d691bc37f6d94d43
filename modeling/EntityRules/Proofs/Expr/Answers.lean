import EntityRules.Proofs.Environment.Building
import EntityRules.Proofs.Expr.Reads
import EntityRules.Schema.Defaults

/-!
# `EntityRules.Proofs.Expr.Answers`: an expression and what answers its paths

An expression is evaluated in a tree that is built for it alone, from the answers
to the paths that it references. The tree is a detour: these paths share their
beginnings in it, but each is answered as if it had been asked for by itself.

* `evalWith_congr`: an evaluation depends on the answers to the referenced paths
  only.
* `Resolver.environmentFor_refines_lookup`: evaluating in the tree is evaluating
  against the answers themselves, and there is a tree unless two of the paths
  with an answer clash.
* `Resolver.evaluate_congr`: so resolvers that agree on the referenced paths give
  one outcome, whether there is a tree or not.
* `Resolver.mem_referencedPaths_of_mem_recorded`: and only referenced paths are
  recorded.

A resolver that falls back on the defaults of a schema is a resolver too
(`Resolver.withDefaults`), so all of this holds with defaults and without.
-/

set_option autoImplicit false

namespace EntityRules

namespace Expr

variable {e : Expr} {look look' : Lookup} {p : Path}

/-- `evalWith` reads nothing that is not among `referencedPaths`. -/
theorem mem_referencedPaths_of_mem_reads (h : p ∈ (e.evalWith look).reads) :
    p ∈ e.referencedPaths :=
  List.mem_eraseDups.mpr ((reads_evalWith_sublist look e).subset h)

/-- `evalWith` depends on the answers to `referencedPaths` only. -/
theorem evalWith_congr (h : ∀ p ∈ e.referencedPaths, look p = look' p) :
    e.evalWith look = e.evalWith look' := by
  refine (determined_evalWith e look look' ?_).symm
  intro p hp
  exact h p (mem_referencedPaths_of_mem_reads hp)

end Expr

namespace Resolver

variable {resolver resolver' : Resolver} {e : Expr} {p : Path}

/-- What `evaluate` has recorded was read in the tree of `environmentFor`. -/
theorem exists_environmentFor_of_mem_recorded (h : p ∈ (resolver.evaluate e).recorded) :
    ∃ env, resolver.environmentFor e = .ok env ∧ p ∈ (e.eval env).recorded := by
  rw [evaluate] at h
  cases henv : resolver.environmentFor e with
  | error fault =>
      -- Without an environment nothing is read.
      rw [henv] at h
      cases h
  | ok env =>
      rw [henv] at h
      exact ⟨env, rfl, h⟩

/-- `evaluate` records nothing that is not among `referencedPaths`. -/
theorem mem_referencedPaths_of_mem_recorded (h : p ∈ (resolver.evaluate e).recorded) :
    p ∈ e.referencedPaths := by
  obtain ⟨env, -, hrecorded⟩ := exists_environmentFor_of_mem_recorded h
  exact Expr.mem_referencedPaths_of_mem_reads (List.mem_eraseDups.mp hrecorded)

/-- `evaluate` has one outcome for resolvers that agree on `referencedPaths`. -/
theorem evaluate_congr (h : ∀ p ∈ e.referencedPaths, resolver p = resolver' p) :
    resolver.evaluate e = resolver'.evaluate e := by
  have henv : resolver.environmentFor e = resolver'.environmentFor e := build_congr h
  rw [evaluate, evaluate, henv]

/-- In the tree of `environmentFor`, evaluation gives what it gives against the answers
of the resolver themselves: the same value or error, and the same reads. The tree cannot
be built exactly when the referenced paths that are `bound` do `Clash`, that is when one
of them is empty or one is strictly above another. The fault is that of the first of
them, in the order of mention, that is `Refused` behind those before it: the empty path
as an unknown field, any other as a conflict. -/
theorem environmentFor_refines_lookup (resolver : Resolver) (e : Expr) :
    (∀ env, resolver.environmentFor e = .ok env → e.eval env = e.evalWith resolver.lookup) ∧
    ((∃ fault, resolver.environmentFor e = .error fault) ↔
      Path.Clash (resolver.bound e.referencedPaths)) ∧
    ∀ fault, resolver.environmentFor e = .error fault ↔
      ∃ before p after, resolver.bound e.referencedPaths = before ++ p :: after ∧
        ¬ Path.Clash before ∧ Path.Refused before p fault := by
  refine ⟨?_, build_fails_iff, fun fault => build_eq_error_iff⟩
  intro env h
  exact Expr.evalWith_congr fun p hp => lookup_build h hp

/-- Both flags of an item and the item itself. `listed` is answered and the other flag
has a default, and the item, which only stands above both, has no value: the conjunction
fails on it after both flags were read. Where the item has a value of its own, there is
no tree. -/
theorem environmentFor_refines_lookup_item :
    let listed : Path := ⟨["_curr", "item", "listed"]⟩
    let priced : Path := ⟨["_curr", "item", "priced"]⟩
    let item : Path := ⟨["_curr", "item"]⟩
    let order : Struct := .ofFields "Order" [("item", ⟨.reference "Item", none⟩)]
    let r : Registry := .ofStructs "shop" [order, .ofFields "Item"
      [("listed", ⟨.primitive .boolean, none⟩),
        ("priced", ⟨.primitive .boolean, some (.boolean true)⟩)]] {}
    let e : Expr := .logical .and (.path listed) (.path priced) [.path item]
    let answers : Resolver := fun p => if p = listed then some (.boolean true) else none
    let more : Resolver := fun p => if p = item then some (.text "pen") else answers p
    let flags : Environment :=
      .node [("listed", .leaf (.boolean true)), ("priced", .leaf (.boolean true))]
    let env : Environment := .node [("_curr", .node [("item", flags)])]
    (answers.withDefaults r order).environmentFor e = .ok env ∧
    e.eval env = e.evalWith (answers.withDefaults r order).lookup ∧
    (e.eval env).result = .error (.unknownField "_curr.item") ∧
    (e.eval env).recorded = [listed, priced, item] ∧
    Path.Clash ((more.withDefaults r order).bound e.referencedPaths) ∧
    (more.withDefaults r order).environmentFor e = .error (.conflict item) := by
  refine ⟨rfl, ?_, rfl, by decide +kernel, ?_, rfl⟩
  · exact (environmentFor_refines_lookup _ _).1 _ rfl
  · exact (environmentFor_refines_lookup _ _).2.1.mp ⟨_, rfl⟩

end Resolver

end EntityRules
