import EntityRules.Proofs.Environment.InPlace
import EntityRules.Proofs.Tables
import EntityRules.Schema.Defaults

/-!
# `EntityRules.Proofs.Environment.Canonical`: a tree that is built is its values

Two trees from which the same can be read may still be different: a parent without
children is read like nothing, and the children of a node can stand in another
order. Trees that are built have neither. What can be read in them is all there is
to them, so the order in which their paths were bound leaves no trace.

* `eq_of_find?_eq`: ordered trees without dead branches are equal when every path
  is read alike in both.
* `Grown.subtree?_ne_empty`: a tree without dead branches has no parent without
  children below its root.
* `Resolver.build_eq_of_mem_iff`: lists with the same paths, in any order and with
  any repetition, make one tree or none, and in the tree exactly the paths that the
  resolver answers have a value.

The first is an induction on the tree, one node at a time: a child of one tree has a
leaf somewhere below it, the leaf is read in the other tree too, and so the other
tree has a child there. That every node is in order then makes the two lists of
children one.
-/

set_option autoImplicit false

namespace EntityRules

namespace Environment

variable {env env' : Environment} {children children' : List (String × Environment)}
  {segment : String} {child : Environment}

/-! ### Nodes without dead branches -/

/-- `find?` goes on in the child that a path begins with. -/
theorem find?_cons_of_lookup (h : children.lookup segment = some child) (rest : List String) :
    find? (segment :: rest) (node children) = find? rest child := by
  rw [find?_cons, h, Option.getD_some]

/-- Below every child of a tree that is `Grown` hangs a leaf. -/
theorem Grown.exists_find?_child (hgrown : (node children).Grown)
    (h : children.lookup segment = some child) : ∃ rest, (child.find? rest).isSome := by
  have hchild : (subtree? [segment] (node children)).isSome := by
    rw [subtree?, h]
    rfl
  obtain ⟨rest, hrest⟩ := hgrown [segment] (List.cons_ne_nil _ _) hchild
  refine ⟨rest, ?_⟩
  rwa [List.singleton_append, find?_cons_of_lookup h] at hrest

/-- A child of a tree that is `Grown` is so too. -/
theorem Grown.of_lookup (hgrown : (node children).Grown)
    (h : children.lookup segment = some child) : child.Grown := by
  intro p _ hsome
  have hbelow : (subtree? (segment :: p) (node children)).isSome := by
    rw [subtree?, h]
    exact hsome
  obtain ⟨rest, hrest⟩ := hgrown _ (List.cons_ne_nil _ _) hbelow
  refine ⟨rest, ?_⟩
  rwa [List.cons_append, find?_cons_of_lookup h] at hrest

/-- In a tree that is `Grown` no parent below the root is without children. -/
theorem Grown.subtree?_ne_empty (hgrown : env.Grown) {p : List String} (hp : p ≠ []) :
    env.subtree? p ≠ some empty := by
  intro hempty
  have hsome : (env.subtree? p).isSome := by rw [hempty, Option.isSome_some]
  obtain ⟨rest, hrest⟩ := hgrown p hp hsome
  rw [find?_append, hempty, Option.bind_some, find?_empty] at hrest
  cases hrest

/-! ### Trees in which the same is read -/

/-- A child of a tree that is `Grown` is a child of every tree in which `find?` gives
the same. -/
theorem isSome_lookup_of_find?_eq (hgrown : (node children).Grown)
    (hread : ∀ p, (node children).find? p = (node children').find? p)
    (h : (children.lookup segment).isSome) : (children'.lookup segment).isSome := by
  obtain ⟨child, hchild⟩ := Option.isSome_iff_exists.mp h
  obtain ⟨rest, hrest⟩ := hgrown.exists_find?_child hchild
  have hother : ((node children').find? (segment :: rest)).isSome := by
    rwa [← hread, find?_cons_of_lookup hchild]
  rw [find?] at hother
  cases hlookup : children'.lookup segment with
  | some child' => rfl
  | none =>
      rw [hlookup] at hother
      cases hother

/-- Trees that are `Ordered` and `Grown` are equal when `find?` gives the same in both.
-/
theorem eq_of_find?_eq (hordered : env.Ordered) (hordered' : env'.Ordered)
    (hgrown : env.Grown) (hgrown' : env'.Grown) (hread : ∀ p, env.find? p = env'.find? p) :
    env = env' := by
  induction hordered generalizing env' with
  | leaf value =>
      cases hordered' with
      | leaf value' =>
          have hvalue : some value = some value' := hread []
          rw [Option.some.inj hvalue]
      | node sorted' below' => cases hread []
  | @node children sorted below ih =>
      cases hordered' with
      | leaf value' => cases hread []
      | @node children' sorted' below' =>
          have hlookup : ∀ segment, children.lookup segment = children'.lookup segment := by
            intro segment
            cases hchild : children.lookup segment with
            | none =>
                have hnone : ¬ (children.lookup segment).isSome := by simp [hchild]
                have hread' := fun p => (hread p).symm
                have hother := mt (isSome_lookup_of_find?_eq hgrown' hread') hnone
                exact (Option.not_isSome_iff_eq_none.mp hother).symm
            | some child =>
                have hsome : (children.lookup segment).isSome := by simp [hchild]
                have hother := isSome_lookup_of_find?_eq hgrown hread hsome
                obtain ⟨child', hchild'⟩ := Option.isSome_iff_exists.mp hother
                have hmem := (Table.lookup_eq_some_iff_mem sorted segment child).mp hchild
                have hmem' := (Table.lookup_eq_some_iff_mem sorted' segment child').mp hchild'
                -- Both children are read like the trees behind the segment.
                have hbelow : ∀ p, child.find? p = child'.find? p := by
                  intro p
                  rw [← find?_cons_of_lookup hchild, hread, find?_cons_of_lookup hchild']
                have hsame : child = child' := ih _ hmem (below' _ hmem') (hgrown.of_lookup hchild)
                  (hgrown'.of_lookup hchild') hbelow
                rw [hchild', hsame]
          have hmem : ∀ e, e ∈ children ↔ e ∈ children' := by
            rintro ⟨segment, child⟩
            rw [← Table.lookup_eq_some_iff_mem sorted, ← Table.lookup_eq_some_iff_mem sorted',
              hlookup]
          rw [sorted.eq_of_mem_iff sorted' hmem]

end Environment

/-! ### Lists of the same paths -/

/-- `Clash` looks only at which paths there are. -/
theorem Path.clash_congr {paths paths' : List Path} (h : ∀ p, p ∈ paths ↔ p ∈ paths') :
    Clash paths ↔ Clash paths' := by
  simp only [Clash, h]

namespace Resolver

variable {resolver : Resolver} {paths paths' : List Path} {env env' : Environment}

/-- `build` makes trees that are `Ordered`. -/
theorem ordered_build (h : resolver.build paths = .ok env) : env.Ordered := by
  refine keeps_of_bindAll (fun hordered hinsert => ?_) Environment.ordered_empty h
  exact Environment.ordered_of_insertInPlace hordered
    (Environment.insertInPlace_eq_ok_iff.mpr hinsert)

/-- `build` makes trees that are `Grown`. -/
theorem grown_build (h : resolver.build paths = .ok env) : env.Grown :=
  grown_bindAll Environment.grown_empty h

/-- `build` makes one tree of lists with the same paths, if it makes one of each. -/
theorem eq_of_build (hpaths : ∀ p, p ∈ paths ↔ p ∈ paths')
    (h : resolver.build paths = .ok env) (h' : resolver.build paths' = .ok env') : env = env' := by
  refine Environment.eq_of_find?_eq (ordered_build h) (ordered_build h') (grown_build h)
    (grown_build h') fun p => ?_
  rw [find?_build h ⟨p⟩, find?_build h' ⟨p⟩]
  simp only [hpaths]

/-- `build` makes a tree of both lists with the same paths, or of neither. -/
theorem build_fails_congr (hpaths : ∀ p, p ∈ paths ↔ p ∈ paths') :
    (∃ fault, resolver.build paths = .error fault) ↔
      ∃ fault, resolver.build paths' = .error fault := by
  have hbound : ∀ p, p ∈ resolver.bound paths ↔ p ∈ resolver.bound paths' := by
    intro p
    rw [mem_bound, mem_bound, hpaths]
  rw [build_fails_iff, build_fails_iff, Path.clash_congr hbound]

/-- `build` does not depend on the order of the paths or on their repetition, for any
resolver, with defaults or without. Of lists with the same paths (`hpaths`) either none
makes a tree or both make the same. In the tree a path has a value exactly when it is in
the list and the resolver answers it, and the value is the answer. Every node of the
tree has its children in name order, each name once (`Ordered`), and below the root no
parent is without children. -/
theorem build_eq_of_mem_iff (resolver : Resolver) {paths paths' : List Path}
    (hpaths : ∀ p, p ∈ paths ↔ p ∈ paths') :
    ((∃ fault, resolver.build paths = .error fault) ∧
      ∃ fault, resolver.build paths' = .error fault) ∨
    ∃ env, resolver.build paths = .ok env ∧ resolver.build paths' = .ok env ∧
      (∀ q value, env.lookup q = .ok value ↔ q ∈ paths ∧ resolver q = some value) ∧
      env.Ordered ∧ ∀ q : Path, q ≠ .empty → env.subtree? q.segments ≠ some .empty := by
  -- Both lists are refused, or the trees that they make find the same.
  cases h : resolver.build paths with
  | error fault => exact .inl ⟨⟨fault, rfl⟩, (build_fails_congr hpaths).mp ⟨fault, h⟩⟩
  | ok env =>
      refine .inr ⟨env, rfl, ?_, ?_, ordered_build h, ?_⟩
      · cases h' : resolver.build paths' with
        | error fault' =>
            obtain ⟨fault, hfault⟩ := (build_fails_congr hpaths).mpr ⟨fault', h'⟩
            rw [h] at hfault
            cases hfault
        | ok env' => rw [eq_of_build hpaths h h']
      · intro q value
        rw [Environment.lookup_eq_ok_iff, find?_build h, Option.ite_none_right_eq_some]
      · intro q hq
        exact (grown_build h).subtree?_ne_empty (mt Path.segments_inj.mp hq)

/-- The `price` and the `name` of an item, once in one order and once in the other with
the name twice, make one tree. The name is answered and the price has a default. With a
value of the item itself there is no tree, whether the item comes first or last; only
the path at fault is another. -/
theorem build_eq_of_mem_iff_item :
    let name : Path := ⟨["_curr", "item", "name"]⟩
    let price : Path := ⟨["_curr", "item", "price"]⟩
    let item : Path := ⟨["_curr", "item"]⟩
    let order : Struct := .ofFields "Order" [("item", ⟨.reference "Item", none⟩)]
    let r : Registry := .ofStructs "shop" [order, .ofFields "Item"
      [("name", ⟨.primitive .text, none⟩), ("price", ⟨.primitive .text, some (.text "1.50")⟩)]] {}
    let answers : Resolver := fun p => if p = name then some (.text "pen") else none
    let more : Resolver := fun p => if p = item then some (.text "x") else answers p
    (∃ env, (answers.withDefaults r order).build [price, name] = .ok env ∧
      (answers.withDefaults r order).build [name, price, name] = .ok env ∧
      env.lookup price = .ok (.text "1.50") ∧ env.lookup name = .ok (.text "pen")) ∧
    (more.withDefaults r order).build [name, item] = .error (.conflict item) ∧
    (more.withDefaults r order).build [item, name] = .error (.conflict name) := by
  intro name price item order r answers more
  have hprice : answers.withDefaults r order price = some (.text "1.50") := by decide +revert
  have hpaths : ∀ p, p ∈ [price, name] ↔ p ∈ [name, price, name] := by
    intro p
    simp only [List.mem_cons, List.not_mem_nil, or_false]
    tauto
  refine ⟨?_, rfl, rfl⟩
  obtain ⟨⟨fault, hfault⟩, -⟩ | ⟨env, hone, hother, hvalues, -⟩ :=
    build_eq_of_mem_iff (answers.withDefaults r order) hpaths
  · subst answers r order price name
    cases hfault
  · exact ⟨env, hone, hother, (hvalues price _).mpr ⟨by simp, hprice⟩,
      (hvalues name _).mpr ⟨by simp, rfl⟩⟩

end Resolver

end EntityRules
