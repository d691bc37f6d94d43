import EntityRules.Proofs.Environment.Building

/-!
# `EntityRules.Proofs.Environment.InPlace`: a binding of the tree at hand

`insertInPlace` changes the tree while it goes down a path. It makes the parents
that are missing before it knows whether the path can be bound, and it is only at
the end that a parent of children may turn up. A refusal leaves nothing of that
behind all the same:

* `insertInPlace_eq_ok_iff`, `insertInPlace_eq_error_iff`: in place a path is
  bound or refused as `insert` binds or refuses it.
* `place_of_refused`: a tree that refuses a path is left as it was.
* `insertInPlace_atomic`: both, with what can be read after a binding.

The reason is `place_empty`: a parent that was made on the way has no children,
so everything below it is made as well and nothing there can refuse the value.
Where the way down made nothing, it put back what it found, and for that the
children of a node have to be in name order, as `Ordered` says of every node.
-/

set_option autoImplicit false

namespace EntityRules.Environment

open Proofs

/-- `env.Ordered`: the children of every node are in name order, each name once. -/
inductive Ordered : Environment → Prop
  | leaf (value : Leaf) : Ordered (leaf value)
  | node {children : List (String × Environment)}
      (sorted : children.Pairwise fun a b => a.1 < b.1)
      (below : ∀ child ∈ children, Ordered child.2) : Ordered (node children)

variable {value : Leaf} {env env' : Environment} {p : List String} {path : Path}
  {fault : EvalError}

/-! ### The way down -/

/-- The tree without values is `Ordered`. -/
theorem ordered_empty : Ordered empty :=
  .node .nil fun _ h => absurd h List.not_mem_nil

/-- A child of an `Ordered` node is so too, also one that is missing, as the tree that
is made for it. -/
theorem ordered_getD_lookup {children : List (String × Environment)}
    (h : Ordered (node children)) (hop : String) :
    Ordered ((children.lookup hop).getD empty) := by
  cases h with
  | node sorted below =>
      cases hlookup : children.lookup hop with
      | none => exact ordered_empty
      | some child => exact below _ ((Table.lookup_eq_some_iff_mem sorted hop child).mp hlookup)

/-- A node stays `Ordered` when `insertEntry` puts an ordered child into it. -/
theorem ordered_insertEntry {children : List (String × Environment)}
    (h : Ordered (node children)) (hop : String) {child : Environment} (hchild : Ordered child) :
    Ordered (node (Table.insertEntry hop child children)) := by
  cases h with
  | node sorted below =>
      refine .node (Table.sorted_insertEntry hop child sorted) fun e he => ?_
      rcases Table.mem_insertEntry he with rfl | he
      · exact hchild
      · exact below e he

/-- `place` leaves an `Ordered` tree, wherever the way down ends. -/
theorem ordered_place (h : env.Ordered) (value : Leaf) (p : List String) :
    (env.place value p).1.Ordered := by
  induction p generalizing env with
  | nil => exact h
  | cons hop rest ih =>
      cases env with
      -- Nothing is placed into a leaf, nor over a child that is a parent.
      | leaf old => cases rest with
        | nil => exact h
        | cons next rest => exact h
      | node children =>
          cases rest with
          | nil =>
              rw [place]
              split
              · exact h
              · exact ordered_insertEntry h hop (.leaf value)
          | cons next rest => exact ordered_insertEntry h hop (ih (ordered_getD_lookup h hop))

/-- `place` in a tree without values makes everything on the way, so the value always
finds its place. -/
theorem place_empty (value : Leaf) (hop : String) (rest : List String) :
    (empty.place value (hop :: rest)).2 = true := by
  induction rest generalizing hop with
  | nil => rfl
  | cons next rest ih => exact ih next

/-- `place` leaves a tree that refuses the value as it was. -/
theorem place_of_refused (h : env.Ordered) (hrefused : (env.place value p).2 = false) :
    (env.place value p).1 = env := by
  induction p generalizing env with
  | nil => rfl
  | cons hop rest ih =>
      cases env with
      | leaf old => cases rest with
        | nil => rfl
        | cons next rest => rfl
      | node children =>
          cases rest with
          | nil =>
              rw [place] at hrefused ⊢
              split at hrefused
              · next hparent => rw [if_pos hparent]
              · cases hrefused
          | cons next rest =>
              rw [place] at hrefused ⊢
              have hchild := ih (ordered_getD_lookup h hop) hrefused
              cases hlookup : children.lookup hop with
              | none =>
                  -- A child that had to be made refuses nothing.
                  rw [hlookup, Option.getD_none, place_empty] at hrefused
                  cases hrefused
              | some child =>
                  rw [hlookup, Option.getD_some] at hchild
                  cases h with
                  | node sorted below =>
                      rw [Option.getD_some, hchild]
                      exact congrArg node (Table.insertEntry_eq_self sorted hlookup)

/-- `bind?` refuses a path at its end where a parent of children is. -/
theorem bind?_nil (env : Environment) :
    env.bind? value [] = if env.isParent then none else some (leaf value) := by
  cases env with
  | leaf old => rfl
  | node children => cases children with
    | nil => rfl
    | cons child rest => rfl

/-- `isParent` is false for a child that is missing. -/
theorem isParent_getD_empty (child : Option Environment) :
    (child.getD empty).isParent = child.any isParent := by
  cases child with
  | none => rfl
  | some child => rfl

/-- `place` puts the value where `bind?` does, and makes the same tree. -/
theorem bind?_eq_some_iff_place (hp : p ≠ []) :
    env.bind? value p = some env' ↔ env.place value p = (env', true) := by
  induction p generalizing env env' with
  | nil => exact absurd rfl hp
  | cons hop rest ih =>
      cases env with
      -- A leaf is a parent of nothing, and both refuse it.
      | leaf old => cases rest with
        | nil => simp [bind?, place]
        | cons next rest => simp [bind?, place]
      | node children =>
          -- Below a node both go down to one child.
          have hdown : (node children).bind? value (hop :: rest) = some env' ↔ ∃ child,
              bind? value rest ((children.lookup hop).getD empty) = some child ∧
                node (Table.insertEntry hop child children) = env' := by
            show Option.bind _ _ = some env' ↔ _
            simp [Option.bind_eq_some_iff]
          rw [hdown]
          cases rest with
          | nil =>
              rw [bind?_nil, isParent_getD_empty, place]
              split
              · simp
              · simp
          | cons next rest =>
              simp only [ih (List.cons_ne_nil next rest), place, Prod.ext_iff]
              constructor
              · rintro ⟨child, ⟨rfl, hput⟩, rfl⟩
                exact ⟨rfl, hput⟩
              · rintro ⟨rfl, hput⟩
                exact ⟨_, ⟨rfl, hput⟩, rfl⟩

/-! ### A binding -/

/-- `insertInPlace` succeeds where `insert` does, with the same tree. -/
theorem insertInPlace_eq_ok_iff :
    env.insertInPlace path value = .ok () env' ↔ env.insert path value = .ok env' := by
  rw [insertInPlace, insert_eq_ok_iff]
  split
  · next h => simp [Path.isEmpty_iff.mp h]
  · next h =>
      have hne : path ≠ .empty := fun heq => h (Path.isEmpty_iff.mpr heq)
      have hsegments : path.segments ≠ [] := by simpa [Path.isEmpty] using h
      rw [bind?_eq_some_iff_place hsegments]
      split
      · next after hplace => simp [hplace, hne]
      · next after hplace => simp [hplace]

/-- `insertInPlace` fails where `insert` does, for the same reason. -/
theorem insertInPlace_eq_error_iff :
    (∃ env', env.insertInPlace path value = .error fault env') ↔
      env.insert path value = .error fault := by
  rw [insertInPlace, insert_eq_error_iff]
  split
  · next h => simp [Path.isEmpty_iff.mp h, eq_comm]
  · next h =>
      have hne : path ≠ .empty := fun heq => h (Path.isEmpty_iff.mpr heq)
      have hsegments : path.segments ≠ [] := by simpa [Path.isEmpty] using h
      rw [Option.eq_none_iff_forall_ne_some]
      simp only [ne_eq, bind?_eq_some_iff_place hsegments]
      split
      · next after hplace => simp [hplace, hne]
      · next after hplace => simp [hplace, hne, eq_comm]

/-- `find?` finds a value where a leaf hangs at the end of the path. -/
theorem isSome_find?_iff : (env.find? p).isSome ↔ ∃ old, env.subtree? p = some (leaf old) := by
  have hend := find?_append p [] env
  rw [List.append_nil] at hend
  rw [hend]
  cases hpart : env.subtree? p with
  | none => simp
  | some t => cases t with
    | leaf old => simp [find?]
    | node children => simp [find?]

/-- `insert` fails when the path is empty, when a leaf hangs above it, or when a parent
of children hangs at its end. -/
theorem insert_fails_iff :
    (∃ fault, env.insert path value = .error fault) ↔
      path = .empty ∨
      (∃ above : Path, above.Above path ∧ ∃ old, env.subtree? above.segments = some (leaf old)) ∨
      ∃ child children, env.subtree? path.segments = some (node (child :: children)) := by
  -- A path above is a beginning of the segments that leaves some of them.
  have habove : (∃ above : Path, above.Above path ∧
        ∃ old, env.subtree? above.segments = some (leaf old)) ↔
      ∃ above segment rest, path.segments = above ++ segment :: rest ∧
        (env.find? above).isSome := by
    simp only [Path.above_iff, isSome_find?_iff]
    constructor
    · rintro ⟨above, ⟨segment, rest, hsplit⟩, hleaf⟩
      exact ⟨above.segments, segment, rest, hsplit, hleaf⟩
    · rintro ⟨above, segment, rest, hsplit, hleaf⟩
      exact ⟨⟨above⟩, ⟨segment, rest, hsplit⟩, hleaf⟩
  rw [habove, ← @bind?_eq_none_iff value env path.segments]
  simp only [insert_eq_error_iff]
  by_cases hpath : path = .empty
  · simp [hpath]
  · simp [hpath]

/-- After `insert` the path has the value, and any other path what it had. -/
theorem lookup_of_insert (h : env.insert path value = .ok env') (other : Path) :
    env'.lookup other = if other = path then .ok value else env.lookup other := by
  obtain ⟨-, hbind⟩ := insert_eq_ok_iff.mp h
  rw [lookup, find?_bind? hbind]
  by_cases hother : other = path
  · simp [hother]
  · have hsegments : other.segments ≠ path.segments := mt Path.segments_inj.mp hother
    simp [hother, hsegments, lookup]

/-- `insertInPlace` keeps a tree `Ordered`. -/
theorem ordered_of_insertInPlace (h : env.Ordered)
    (hok : env.insertInPlace path value = .ok () env') : env'.Ordered := by
  rw [insertInPlace] at hok
  split at hok
  · cases hok
  · have hplaced := ordered_place h value path.segments
    split at hok
    · next after hplace =>
        rw [hplace] at hplaced
        cases hok
        exact hplaced
    · cases hok

/-- `insertInPlace` leaves a tree that refuses the path as it was. -/
theorem eq_of_insertInPlace_eq_error (h : env.Ordered)
    (herror : env.insertInPlace path value = .error fault env') : env' = env := by
  rw [insertInPlace] at herror
  split at herror
  · cases herror
    rfl
  · split at herror
    · cases herror
    · next after hplace =>
        have hsame : (env.place value path.segments).1 = env :=
          place_of_refused h (by rw [hplace])
        rw [hplace] at hsame
        cases herror
        exact hsame

/-- `insertInPlace` is an update of a map or nothing. It fails exactly for the empty
path, below a leaf, and where a parent has children. The tree of a failure is the tree
of before, although the way down makes the parents that are missing; that the tree is
`Ordered`, as one made of maps, is all it takes. Where the path is bound it has the
value, and every other path, also one above or below it, is looked up as before. -/
theorem insertInPlace_atomic (env : Environment) (path : Path) (value : Leaf) :
    ((∃ fault env', env.insertInPlace path value = .error fault env') ↔
      path = .empty ∨
      (∃ above : Path, above.Above path ∧ ∃ old, env.subtree? above.segments = some (leaf old)) ∨
      ∃ child children, env.subtree? path.segments = some (node (child :: children))) ∧
    (env.Ordered → ∀ fault env', env.insertInPlace path value = .error fault env' → env' = env) ∧
    ∀ env', env.insertInPlace path value = .ok () env' →
      (env.Ordered → env'.Ordered) ∧ env'.lookup path = .ok value ∧
        ∀ other, other ≠ path → env'.lookup other = env.lookup other := by
  refine ⟨?_, ?_, ?_⟩
  · have hsame : (∃ fault env', env.insertInPlace path value = .error fault env') ↔
        ∃ fault, env.insert path value = .error fault :=
      exists_congr fun fault => insertInPlace_eq_error_iff
    rw [hsame, insert_fails_iff]
  · intro hordered fault env' herror
    exact eq_of_insertInPlace_eq_error hordered herror
  · intro env' hok
    have hlookup := lookup_of_insert (insertInPlace_eq_ok_iff.mp hok)
    refine ⟨fun hordered => ordered_of_insertInPlace hordered hok, ?_, ?_⟩
    · rw [hlookup, if_pos rfl]
    · intro other hother
      rw [hlookup, if_neg hother]

/-- An item with a price and a draft without anything. The item takes no value
itself, since it has a price, and none below its price; both times the tree stays
as it is. The draft takes one, and the price is what it was. -/
theorem insertInPlace_atomic_item :
    let price : Path := ⟨["item", "price"]⟩
    let env : Environment := .node [("draft", .node []),
      ("item", .node [("price", .leaf (.text "1.50"))])]
    let value : Leaf := .boolean true
    env.Ordered ∧
    (∃ fault, env.insertInPlace ⟨["item"]⟩ value = .error fault env) ∧
    (∃ fault, env.insertInPlace ⟨["item", "price", "net", "sum"]⟩ value = .error fault env) ∧
    ∃ env', env.insertInPlace ⟨["draft"]⟩ value = .ok () env' ∧
      env'.lookup ⟨["draft"]⟩ = .ok value ∧ env'.lookup price = .ok (.text "1.50") := by
  intro price env value
  have hordered : env.Ordered := by
    refine .node (by decide) ?_
    simp only [List.mem_cons, List.not_mem_nil, or_false, forall_eq_or_imp, forall_eq]
    refine ⟨ordered_empty, .node (by decide) ?_⟩
    simp only [List.mem_cons, List.not_mem_nil, or_false, forall_eq]
    exact .leaf _
  have hatomic := insertInPlace_atomic env
  refine ⟨hordered, ?_, ?_, ?_⟩
  -- There is a value below the path.
  · obtain ⟨hfails, hsame, -⟩ := hatomic ⟨["item"]⟩ value
    obtain ⟨fault, env', herror⟩ := hfails.mpr (.inr (.inr ⟨_, _, rfl⟩))
    exact ⟨fault, hsame hordered fault env' herror ▸ herror⟩
  -- There is a value on the way.
  · obtain ⟨hfails, hsame, -⟩ := hatomic ⟨["item", "price", "net", "sum"]⟩ value
    obtain ⟨fault, env', herror⟩ :=
      hfails.mpr (.inr (.inl ⟨price, Path.above_iff.mpr ⟨"net", ["sum"], rfl⟩, _, rfl⟩))
    exact ⟨fault, hsame hordered fault env' herror ▸ herror⟩
  -- Nothing is in the way, and only the path itself gets the value.
  · obtain ⟨-, -, hbound⟩ := hatomic ⟨["draft"]⟩ value
    obtain ⟨-, hvalue, hothers⟩ := hbound _ rfl
    exact ⟨_, rfl, hvalue, hothers price (by decide)⟩

end EntityRules.Environment
