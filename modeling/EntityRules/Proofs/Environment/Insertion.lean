import EntityRules.Environment
import Mathlib.Data.List.Basic

/-!
# `EntityRules.Proofs.Environment.Insertion`: what a binding does to the tree

An environment is a tree, but what an expression can learn from it is one leaf
for each path that ends on a leaf. The theorems describe a binding by what can be
read before and after it:

* `find?_bind?`: the path that was bound has the value, and every other path has
  what it had, also one that begins or continues the path.
* `bind?_eq_none_iff`: a binding is refused where a leaf stands above the end of
  the path, or a parent of children at its end.
* `bind?_eq_none_iff_of_grown`: in a tree where every branch ends on a leaf, that
  is exactly where a value can be read strictly above or strictly below.

The last one needs that no parent below the root is without leaves, because such
a parent refuses a value although nothing can be read below it. `Grown` says so,
and `grown_bind?` that a binding keeps it.
-/

set_option autoImplicit false

namespace EntityRules.Environment

variable {value : Leaf} {env env' : Environment} {p q : List String}

/-! ### Parts of a tree -/

/-- `env.subtree? p`: the part of the tree that hangs at the end of `p`. -/
def subtree? : List String → Environment → Option Environment
  | [], env => some env
  | _ :: _, leaf _ => none
  | segment :: rest, node children => (children.lookup segment).bind (subtree? rest)

/-- `find?` finds nothing in the tree without values. -/
@[simp] theorem find?_empty (p : List String) : find? p empty = none := by
  cases p with
  | nil => rfl
  | cons segment rest => rfl

/-- `find?` looks for the end of a path in the `subtree?` at its beginning. -/
theorem find?_append (p q : List String) (env : Environment) :
    find? (p ++ q) env = (subtree? p env).bind (find? q) := by
  induction p generalizing env with
  | nil => rfl
  | cons segment rest ih =>
      cases env with
      | leaf value => rfl
      | node children =>
          show (children.lookup segment).bind (find? (rest ++ q)) =
            ((children.lookup segment).bind (subtree? rest)).bind (find? q)
          rw [Option.bind_assoc]
          exact congrArg _ (funext ih)

/-- The `subtree?` of a `subtree?` is one of the tree. -/
theorem subtree?_append (p q : List String) (env : Environment) :
    subtree? (p ++ q) env = (subtree? p env).bind (subtree? q) := by
  induction p generalizing env with
  | nil => rfl
  | cons segment rest ih =>
      cases env with
      | leaf value => rfl
      | node children =>
          show (children.lookup segment).bind (subtree? (rest ++ q)) =
            ((children.lookup segment).bind (subtree? rest)).bind (subtree? q)
          rw [Option.bind_assoc]
          exact congrArg _ (funext ih)

/-- `find?` finds nothing below a leaf. -/
theorem find?_append_cons_eq_none (h : (env.find? p).isSome) (segment : String)
    (rest : List String) : env.find? (p ++ segment :: rest) = none := by
  have hend := find?_append p [] env
  rw [List.append_nil] at hend
  rw [hend] at h
  rw [find?_append]
  cases hpart : env.subtree? p with
  | none => rfl
  | some t =>
      rw [hpart, Option.bind_some] at h
      cases t with
      | leaf value => rfl
      | node children => cases h

/-- `find?` treats a missing child like a tree without values. -/
theorem find?_cons (segment : String) (rest : List String)
    (children : List (String × Environment)) :
    find? (segment :: rest) (node children) =
      find? rest ((children.lookup segment).getD empty) := by
  rw [find?]
  cases children.lookup segment with
  | none => exact (find?_empty rest).symm
  | some child => rfl

/-- `subtree?` finds nothing below a missing child, where only the empty path leads to
the tree that is put in for it. -/
theorem eq_nil_or_isSome_subtree?_cons {segment : String} {rest : List String}
    {children : List (String × Environment)}
    (h : (subtree? rest ((children.lookup segment).getD empty)).isSome) :
    rest = [] ∨ (subtree? (segment :: rest) (node children)).isSome := by
  rw [subtree?]
  cases hlookup : children.lookup segment with
  | some child =>
      rw [hlookup] at h
      exact .inr h
  | none =>
      rw [hlookup] at h
      cases rest with
      | nil => exact .inl rfl
      | cons next rest => cases h

/-- `subtree?` finds a parent of children below a child where it hangs, since the tree
that is put in for a missing child is none. -/
theorem subtree?_cons_eq_parent_iff {segment : String} {rest : List String}
    {children more : List (String × Environment)} {child : String × Environment} :
    subtree? (segment :: rest) (node children) = some (node (child :: more)) ↔
      subtree? rest ((children.lookup segment).getD empty) = some (node (child :: more)) := by
  rw [subtree?]
  cases children.lookup segment with
  | some t => rfl
  | none =>
      cases rest with
      | nil => simp [subtree?, empty]
      | cons next rest => simp [subtree?, empty]

/-! ### A binding that is made -/

/-- `bind?` puts the value at the end of a path where no parent of children is. -/
theorem bind?_nil_eq_some (h : env.bind? value [] = some env') :
    env' = leaf value ∧ ∀ segment rest, env.find? (segment :: rest) = none := by
  cases env with
  | leaf old => exact ⟨(Option.some.inj h).symm, fun _ _ => rfl⟩
  | node children =>
      cases children with
      | nil => exact ⟨(Option.some.inj h).symm, fun _ _ => rfl⟩
      | cons child rest => cases h

/-- `bind?` goes down into one child, and the others stay. -/
theorem bind?_cons_eq_some {segment : String} {rest : List String}
    (h : env.bind? value (segment :: rest) = some env') :
    ∃ children child, env = node children ∧
      bind? value rest ((children.lookup segment).getD empty) = some child ∧
      env' = node (Table.insertEntry segment child children) := by
  cases env with
  | leaf old => cases h
  | node children =>
      obtain ⟨child, hchild, hnode⟩ := Option.bind_eq_some_iff.mp h
      exact ⟨children, child, rfl, hchild, (Option.some.inj hnode).symm⟩

/-- `find?` finds what `bind?` has put at its path, and at any other path what was
there. -/
theorem find?_bind? (h : env.bind? value p = some env') (q : List String) :
    env'.find? q = if q = p then some value else env.find? q := by
  induction p generalizing env env' q with
  | nil =>
      obtain ⟨rfl, hbelow⟩ := bind?_nil_eq_some h
      cases q with
      | nil => rfl
      | cons segment rest => exact (hbelow segment rest).symm
  | cons segment rest ih =>
      obtain ⟨children, child, rfl, hchild, rfl⟩ := bind?_cons_eq_some h
      cases q with
      | nil => rfl
      | cons other others =>
          rw [find?_cons, find?_cons, Table.lookup_insertEntry]
          by_cases hsegment : other = segment
          · -- The path goes into the child that was bound.
            subst hsegment
            rw [if_pos rfl, Option.getD_some, ih hchild]
            simp
          · simp [hsegment]

/-- `bind?` makes the tree larger along its own path only. -/
theorem isPrefix_or_isSome_subtree?_of_bind? (h : env.bind? value p = some env')
    (hq : (env'.subtree? q).isSome) : q <+: p ∨ (env.subtree? q).isSome := by
  induction p generalizing env env' q with
  | nil =>
      obtain ⟨rfl, -⟩ := bind?_nil_eq_some h
      cases q with
      | nil => exact .inr rfl
      | cons segment rest => cases hq
  | cons segment rest ih =>
      obtain ⟨children, child, rfl, hchild, rfl⟩ := bind?_cons_eq_some h
      cases q with
      | nil => exact .inr rfl
      | cons other others =>
          rw [subtree?, Table.lookup_insertEntry] at hq
          -- A path of the new tree goes into the child that was bound, or it was there
          -- before.
          by_cases hsegment : other = segment
          · subst hsegment
            rw [if_pos rfl, Option.bind_some] at hq
            rw [List.cons_prefix_cons]
            rcases ih hchild hq with hbegins | hold
            · exact .inl ⟨rfl, hbegins⟩
            · rcases eq_nil_or_isSome_subtree?_cons hold with rfl | hold
              · exact .inl ⟨rfl, List.nil_prefix⟩
              · exact .inr hold
          · rw [if_neg hsegment] at hq
            exact .inr hq

/-! ### A binding that is refused -/

/-- `bind?` refuses where a leaf hangs above the end of the path, or a parent of
children at its end. -/
theorem bind?_eq_none_iff : env.bind? value p = none ↔
    (∃ above segment rest, p = above ++ segment :: rest ∧ (env.find? above).isSome) ∨
      ∃ child children, env.subtree? p = some (node (child :: children)) := by
  induction p generalizing env with
  | nil =>
      cases env with
      | leaf old => simp [bind?, subtree?]
      | node children =>
          cases children with
          | nil => simp [bind?, subtree?]
          | cons child rest => simp [bind?, subtree?]
  | cons segment rest ih =>
      cases env with
      | leaf old =>
          -- The leaf at the root stands above every path.
          exact ⟨fun _ => .inl ⟨[], segment, rest, rfl, rfl⟩, fun _ => rfl⟩
      | node children =>
          have hstep : (node children).bind? value (segment :: rest) = none ↔
              bind? value rest ((children.lookup segment).getD empty) = none := by
            show Option.bind _ _ = none ↔ _
            cases bind? value rest ((children.lookup segment).getD empty) with
            | none => simp
            | some child => simp
          have habove : (∃ above other others, rest = above ++ other :: others ∧
                (find? above ((children.lookup segment).getD empty)).isSome) ↔
              ∃ above other others, segment :: rest = above ++ other :: others ∧
                ((node children).find? above).isSome := by
            constructor
            · intro ⟨above, other, others, hsplit, hfind⟩
              refine ⟨segment :: above, other, others, ?_, ?_⟩
              · rw [hsplit, List.cons_append]
              · rwa [find?_cons]
            · intro ⟨above, other, others, hsplit, hfind⟩
              cases above with
              | nil => cases hfind
              | cons first above =>
                  rw [List.cons_append, List.cons.injEq] at hsplit
                  rw [find?_cons, ← hsplit.1] at hfind
                  exact ⟨above, other, others, hsplit.2, hfind⟩
          rw [hstep, ih, habove]
          simp only [subtree?_cons_eq_parent_iff]

/-! ### Trees without dead branches -/

/-- `env.Grown`: every branch below the root ends on a leaf. -/
def Grown (env : Environment) : Prop :=
  ∀ p, p ≠ [] → (env.subtree? p).isSome → ∃ q, (env.find? (p ++ q)).isSome

/-- The tree without values is `Grown`, since it has no branches. -/
theorem grown_empty : Grown empty := by
  intro p hp hsome
  cases p with
  | nil => exact absurd rfl hp
  | cons segment rest => cases hsome

/-- `bind?` keeps a tree `Grown`: it ends the branch that it makes on a leaf, and takes
no leaf from another. -/
theorem grown_bind? (hgrown : env.Grown) (h : env.bind? value p = some env') : env'.Grown := by
  intro q hq hsome
  rcases isPrefix_or_isSome_subtree?_of_bind? h hsome with ⟨rest, hrest⟩ | hold
  · refine ⟨rest, ?_⟩
    rw [find?_bind? h, if_pos hrest]
    rfl
  · obtain ⟨rest, hrest⟩ := hgrown q hq hold
    refine ⟨rest, ?_⟩
    rw [find?_bind? h]
    split
    · rfl
    · exact hrest

/-- In a tree that is `Grown`, `bind?` refuses exactly when `find?` finds a value
strictly above the path or strictly below it. -/
theorem bind?_eq_none_iff_of_grown (hgrown : env.Grown) : env.bind? value p = none ↔
    ∃ q, (env.find? q).isSome ∧
      ((∃ segment rest, p = q ++ segment :: rest) ∨ ∃ segment rest, q = p ++ segment :: rest) := by
  rw [bind?_eq_none_iff]
  constructor
  · rintro (⟨above, segment, rest, hsplit, hfind⟩ | ⟨⟨segment, t⟩, children, hparent⟩)
    -- A value stands on the way.
    · exact ⟨above, hfind, .inl ⟨segment, rest, hsplit⟩⟩
    · -- The first child of the parent is a branch, so a leaf hangs somewhere below it.
      have hchild : (env.subtree? (p ++ [segment])).isSome := by
        rw [subtree?_append, hparent]
        simp [subtree?]
      obtain ⟨rest, hrest⟩ := hgrown _ (by simp) hchild
      exact ⟨_, hrest, .inr ⟨segment, rest, by simp⟩⟩
  · rintro ⟨q, hfind, ⟨segment, rest, hsplit⟩ | ⟨segment, rest, rfl⟩⟩
    -- A value on the way is in the way of any tree.
    · exact .inl ⟨q, segment, rest, hsplit, hfind⟩
    -- A value behind the path makes what stands there a node with a child.
    · rw [find?_append] at hfind
      cases hpart : env.subtree? p with
      | none =>
          rw [hpart] at hfind
          cases hfind
      | some t =>
          rw [hpart, Option.bind_some] at hfind
          cases t with
          | leaf old => cases hfind
          | node children =>
              cases children with
              | nil => cases hfind
              | cons child children => exact .inr ⟨child, children, rfl⟩

end EntityRules.Environment
