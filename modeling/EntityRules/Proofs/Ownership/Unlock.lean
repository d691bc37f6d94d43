import EntityRules.Proofs.FirstFault
import EntityRules.Proofs.Schema.Routes

/-!
# `EntityRules.Proofs.Ownership.Unlock`: what a path unlocks, hop by hop

`unlock` descends a path and carries the hops before it along. Its result is
described without the descent: `Along` collects what every hop contributes on
the struct that it leaves, each path behind the hops before it.

* `mem_of_unlock`: an owner writes what the grants allow to write and reads what
  they allow to read; a borrower reads both and writes nothing.
* `unlock_eq_error`: on a path that leads to a field, the only fault is a hop
  without a grant.
* `unlock_fails_iff`: such a path fails exactly when some hop has none.
-/

set_option autoImplicit false

namespace EntityRules

open Proofs

/-! ### Contributions of one hop -/

namespace Struct

/-- `t.GrantsWrite hop q`: the owner through the field `hop` may write the path `q` of
the struct. -/
def GrantsWrite (t : Struct) (hop : String) (q : Path) : Prop :=
  ∃ grant, t.permissions.grants.find? hop = some grant ∧ q ∈ grant.write

/-- `t.GrantsRead hop q`: the owner through the field `hop` may read the path `q` of the
struct: one of the grant, the field itself, or a public one. -/
def GrantsRead (t : Struct) (hop : String) (q : Path) : Prop :=
  (∃ grant, t.permissions.grants.find? hop = some grant ∧ q ∈ grant.read) ∨
    q = ⟨[hop]⟩ ∨ q ∈ t.permissions.publicPaths

end Struct

namespace Registry

/-- `r.Along s hops contributes p`: some hop `contributes` the path, seen from where the
hops begin. -/
def Along (r : Registry) (s : Struct) (hops : List String)
    (contributes : Struct → String → Path → Prop) (p : Path) : Prop :=
  ∃ i t hop q, r.Leaves s hops i t hop ∧ contributes t hop q ∧ p = ⟨hops.take i ++ q.segments⟩

variable {r : Registry} {s : Struct} {hop : String} {rest hops : List String}
  {contributes : Struct → String → Path → Prop} {before p : Path} {borrowed : Bool}
  {u : Unlocked}

/-- `Along` no hops nothing is contributed. -/
@[simp] theorem not_along_nil : ¬ r.Along s [] contributes p := by
  rintro ⟨i, t, hop, q, hleaves, -⟩
  exact not_leaves_nil hleaves

/-- `Along` some hops the first contributes on the struct itself, the others behind it.
-/
theorem along_cons :
    r.Along s (hop :: rest) contributes p ↔
      contributes s hop p ∨
        ∃ next, r.hop? s hop = some next ∧
          ∃ q, r.Along next rest contributes q ∧ p = ⟨hop :: q.segments⟩ := by
  constructor
  · -- Hop 0 leaves the struct itself; hop `i + 1` is hop `i` behind the first.
    rintro ⟨i, t, h, q, hleaves, hq, rfl⟩
    cases i with
    | zero =>
        obtain ⟨rfl, rfl⟩ := leaves_zero.mp hleaves
        exact .inl (by simpa using hq)
    | succ i =>
        obtain ⟨next, hnext, hleaves⟩ := leaves_succ.mp hleaves
        exact .inr ⟨next, hnext, _, ⟨i, t, h, q, hleaves, hq, rfl⟩, by simp⟩
  · rintro (hp | ⟨next, hnext, q, ⟨i, t, h, q', hleaves, hq, rfl⟩, rfl⟩)
    · exact ⟨0, s, hop, p, by simp, hp, by simp⟩
    · exact ⟨i + 1, t, h, q', leaves_succ.mpr ⟨next, hnext, hleaves⟩, hq, by simp⟩

/-- `Along` a hop to the next struct, what is contributed there stands behind the hop.
-/
theorem along_cons_of_hop {next : Struct} (h : r.hop? s hop = some next) :
    r.Along s (hop :: rest) contributes p ↔
      contributes s hop p ∨ ∃ q, r.Along next rest contributes q ∧ p = ⟨hop :: q.segments⟩ := by
  rw [along_cons]
  simp [h]

/-- `Along` a single hop all is contributed on the struct itself. -/
theorem along_singleton : r.Along s [hop] contributes p ↔ contributes s hop p := by
  rw [along_cons]
  simp

end Registry

/-! ### Owning and borrowing -/

namespace Unlocked

variable {borrowed : Bool} {here rest : Unlocked} {p : Path}

/-- Two grants, joined by `++`, allow to write what either does. -/
@[simp] theorem mem_write_append : p ∈ (here ++ rest).write ↔ p ∈ here.write ∨ p ∈ rest.write :=
  List.mem_append

/-- Two grants, joined by `++`, allow to read what either does. -/
@[simp] theorem mem_read_append : p ∈ (here ++ rest).read ↔ p ∈ here.read ∨ p ∈ rest.read :=
  List.mem_append

/-- `readOnly` allows to write nothing. -/
@[simp] theorem write_readOnly : here.readOnly.write = [] := rfl

/-- `readOnly` allows to read what might be written. -/
@[simp] theorem mem_read_readOnly : p ∈ here.readOnly.read ↔ p ∈ here.read ∨ p ∈ here.write :=
  List.mem_append

/-- `join` allows to write what one of the grants does. -/
@[simp] theorem mem_write_join {grants : List Unlocked} :
    p ∈ (join grants).write ↔ ∃ u ∈ grants, p ∈ u.write :=
  List.mem_flatMap

/-- `join` allows to read what one of the grants does. -/
@[simp] theorem mem_read_join {grants : List Unlocked} :
    p ∈ (join grants).read ↔ ∃ u ∈ grants, p ∈ u.read :=
  List.mem_flatMap

/-- `last` allows owners to write what the hop does. -/
@[simp] theorem mem_write_last :
    p ∈ (here.last borrowed).write ↔ borrowed = false ∧ p ∈ here.write := by
  cases borrowed with
  | false => simp [last]
  | true => simp [last]

/-- `last` lets a borrower read what an owner would write. -/
@[simp] theorem mem_read_last :
    p ∈ (here.last borrowed).read ↔ p ∈ here.read ∨ borrowed = true ∧ p ∈ here.write := by
  cases borrowed with
  | false => simp [last]
  | true => simp [last]

/-- `beyond` allows owners to write what the hop and those beyond it do. -/
@[simp] theorem mem_write_beyond :
    p ∈ (here.beyond borrowed rest).write ↔
      borrowed = false ∧ (p ∈ here.write ∨ p ∈ rest.write) := by
  cases borrowed with
  | false => simp [beyond]
  | true => simp [beyond]

/-- `beyond` lets a borrower read what an owner would write, at every hop. -/
@[simp] theorem mem_read_beyond :
    p ∈ (here.beyond borrowed rest).read ↔
      (p ∈ here.read ∨ p ∈ rest.read) ∨ borrowed = true ∧ (p ∈ here.write ∨ p ∈ rest.write) := by
  cases borrowed with
  | false => simp [beyond]
  | true => simp [beyond, or_assoc, or_comm, or_left_comm]

end Unlocked

/-- `unlockHop` allows to write what `GrantsWrite` says of the hop. -/
theorem Struct.mem_write_unlockHop {s : Struct} {before p : Path} {hop : String} {grant : Grant}
    (h : s.permissions.grants.find? hop = some grant) :
    p ∈ (s.unlockHop before hop grant).write ↔ ∃ q, s.GrantsWrite hop q ∧ p = before.join q := by
  simp [unlockHop, GrantsWrite, h, eq_comm]

/-- `unlockHop` allows to read what `GrantsRead` says of the hop. -/
theorem Struct.mem_read_unlockHop {s : Struct} {before p : Path} {hop : String} {grant : Grant}
    (h : s.permissions.grants.find? hop = some grant) :
    p ∈ (s.unlockHop before hop grant).read ↔ ∃ q, s.GrantsRead hop q ∧ p = before.join q := by
  simp only [unlockHop, GrantsRead, h, List.mem_cons, List.mem_append, List.mem_map,
    Option.some.injEq, exists_eq_left', or_and_right, exists_or, exists_eq_left, eq_comm (a := p)]
  exact or_left_comm

/-! ### A whole path -/

namespace Registry

variable {r : Registry} {s t : Struct} {hop : String} {rest hops : List String}
  {before p : Path} {borrowed : Bool} {u : Unlocked}

/-- `nextStruct` is there when the hop leads to a struct with the field of the next hop.
-/
theorem nextStruct_eq_ok_iff {next : String} :
    r.nextStruct s hop next = .ok t ↔ r.hop? s hop = some t ∧ (t.field? next).isSome := by
  unfold nextStruct hop?
  -- The hop has to be a reference, its struct to be registered, and that to have the next
  -- field.
  cases s.target? hop with
  | none => simp
  | some target =>
      cases hfind : r.find? target with
      | none => simp [hfind]
      | some t' =>
          simp only [Option.bind_some, hfind, Option.some.injEq]
          cases hfield : t'.field? next with
          | none =>
              simp only [Option.isNone_none, ↓reduceIte, reduceCtorEq, false_iff, not_and]
              rintro rfl
              simp [hfield]
          | some f =>
              simp only [Option.isNone_some, Bool.false_eq_true, ↓reduceIte, Except.ok.injEq,
                iff_self_and]
              rintro rfl
              simp [hfield]

/-- `unlock` of a last hop needs a grant. -/
theorem unlock_singleton_eq_ok_iff :
    r.unlock borrowed before s [hop] = .ok u ↔
      ∃ grant, s.permissions.grants.find? hop = some grant ∧
        u = (s.unlockHop before hop grant).last borrowed := by
  unfold unlock
  cases s.permissions.grants.find? hop with
  | none => simp
  | some grant => simp [eq_comm]

/-- `unlock` of any other hop needs a grant and a `nextStruct`, and the hops beyond it
need what they need there. -/
theorem unlock_cons_cons_eq_ok_iff {next : String} :
    r.unlock borrowed before s (hop :: next :: rest) = .ok u ↔
      ∃ grant t others, s.permissions.grants.find? hop = some grant ∧
        r.nextStruct s hop next = .ok t ∧
        r.unlock borrowed (before.child hop) t (next :: rest) = .ok others ∧
        u = (s.unlockHop before hop grant).beyond borrowed others := by
  rw [unlock]
  cases s.permissions.grants.find? hop with
  | none => simp
  | some grant =>
      cases hnext : r.nextStruct s hop next with
      | error reason => simp [hnext]
      | ok t => simp [hnext, except_bind_eq_ok, eq_comm (a := u)]

/-- `Along` some hops, what is contributed behind `before` comes from the first of them
or from behind it. -/
theorem exists_along_cons {contributes : Struct → String → Path → Prop} {next : Struct}
    (h : r.hop? s hop = some next) :
    (∃ q, r.Along s (hop :: rest) contributes q ∧ p = before.join q) ↔
      (∃ q, contributes s hop q ∧ p = before.join q) ∨
        ∃ q, r.Along next rest contributes q ∧ p = (before.child hop).join q := by
  simp only [along_cons_of_hop h, or_and_right, exists_or]
  refine or_congr_right ⟨?_, ?_⟩
  · rintro ⟨-, ⟨q, hq, rfl⟩, rfl⟩
    exact ⟨q, hq, by simp [Path.join, Path.child]⟩
  · rintro ⟨q, hq, rfl⟩
    exact ⟨_, ⟨q, hq, rfl⟩, by simp [Path.join, Path.child]⟩

/-- `unlock` gives what the hops contribute, behind the hops taken `before`:
`GrantsWrite` and `GrantsRead` to an owner, both to a borrower to read. -/
theorem mem_of_unlock (h : r.unlock borrowed before s hops = .ok u) (p : Path) :
    (p ∈ u.write ↔
      borrowed = false ∧ ∃ q, r.Along s hops Struct.GrantsWrite q ∧ p = before.join q) ∧
    (p ∈ u.read ↔
      (∃ q, r.Along s hops Struct.GrantsRead q ∧ p = before.join q) ∨
        borrowed = true ∧ ∃ q, r.Along s hops Struct.GrantsWrite q ∧ p = before.join q) := by
  -- `before` grows with every hop, so the induction is over all of its values.
  induction hops generalizing before s u with
  | nil => cases h
  | cons hop rest ih =>
      cases rest with
      | nil =>
          obtain ⟨grant, hgrant, rfl⟩ := unlock_singleton_eq_ok_iff.mp h
          simp [along_singleton, Struct.mem_write_unlockHop hgrant,
            Struct.mem_read_unlockHop hgrant]
      | cons next rest =>
          obtain ⟨grant, t, others, hgrant, ht, hothers, rfl⟩ := unlock_cons_cons_eq_ok_iff.mp h
          obtain ⟨hwrite, hread⟩ := ih hothers
          have hhop := (nextStruct_eq_ok_iff.mp ht).1
          simp only [Unlocked.mem_write_beyond, Unlocked.mem_read_beyond,
            Struct.mem_write_unlockHop hgrant, Struct.mem_read_unlockHop hgrant, hwrite, hread,
            exists_along_cons hhop]
          cases borrowed with
          | false => simp
          | true => simp [or_assoc, or_comm, or_left_comm]

/-- `nextStruct` is there for every hop but the last of a path that leads to a field. -/
theorem exists_nextStruct {next : String} {f : Field}
    (h : r.findField? s (hop :: next :: rest) = some f) :
    ∃ t, r.nextStruct s hop next = .ok t ∧ r.findField? t (next :: rest) = some f := by
  obtain ⟨t, ht, hf⟩ := Option.bind_eq_some_iff.mp h
  obtain ⟨t', hop', hleaves, hfield⟩ := exists_leaves_of_findField? hf (i := 0) (by simp)
  obtain ⟨rfl, rfl⟩ := leaves_zero.mp hleaves
  exact ⟨t, nextStruct_eq_ok_iff.mpr ⟨ht, hfield⟩, hf⟩

/-- `unlock` of a path that leads to a field has one fault only, a hop without a grant,
and it names the struct, the rest of the path and the hop. -/
theorem unlock_eq_error {f : Field} {e : OwnershipFault} (hf : r.findField? s hops = some f)
    (h : r.unlock borrowed before s hops = .error e) :
    ∃ i t hop, r.Leaves s hops i t hop ∧ t.permissions.grants.find? hop = none ∧
      e = ⟨t.name, ⟨hops.drop i⟩, .noGrant hop⟩ := by
  induction hops generalizing before s with
  | nil => cases hf
  | cons hop rest ih =>
      cases hgrant : s.permissions.grants.find? hop with
      | none =>
          rw [unlock, hgrant] at h
          exact ⟨0, s, hop, by simp, hgrant, by simpa using h.symm⟩
      | some grant =>
          cases rest with
          | nil => simp [unlock, hgrant] at h
          | cons next rest =>
              -- The path leads to a field, so the hop leads on and its fault is out.
              obtain ⟨t, ht, hf⟩ := exists_nextStruct hf
              rw [unlock, hgrant] at h
              simp only [ht] at h
              cases hothers : r.unlock borrowed (before.child hop) t (next :: rest) with
              | ok others => simp [hothers] at h
              | error e' =>
                  obtain rfl : e' = e := by simpa [hothers] using h
                  obtain ⟨i, t', hop', hleaves, hnone, he⟩ := ih hf hothers
                  have hhop := (nextStruct_eq_ok_iff.mp ht).1
                  exact ⟨i + 1, t', hop', leaves_succ.mpr ⟨t, hhop, hleaves⟩, hnone,
                    by simpa using he⟩

/-- `unlock` succeeds only if every hop has a grant. -/
theorem isSome_grant_of_unlock {i : Nat} (h : r.unlock borrowed before s hops = .ok u)
    (hleaves : r.Leaves s hops i t hop) : (t.permissions.grants.find? hop).isSome := by
  induction hops generalizing before s u i with
  | nil => cases h
  | cons first rest ih =>
      cases rest with
      | nil =>
          obtain ⟨grant, hgrant, -⟩ := unlock_singleton_eq_ok_iff.mp h
          cases i with
          | zero =>
              obtain ⟨rfl, rfl⟩ := leaves_zero.mp hleaves
              exact Option.isSome_iff_exists.mpr ⟨grant, hgrant⟩
          | succ i => simp at hleaves
      | cons next rest =>
          obtain ⟨grant, t', others, hgrant, ht', hothers, -⟩ := unlock_cons_cons_eq_ok_iff.mp h
          cases i with
          | zero =>
              obtain ⟨rfl, rfl⟩ := leaves_zero.mp hleaves
              exact Option.isSome_iff_exists.mpr ⟨grant, hgrant⟩
          | succ i =>
              obtain ⟨next', hnext', hleaves⟩ := leaves_succ.mp hleaves
              -- The descent and the route follow the same reference.
              rw [(nextStruct_eq_ok_iff.mp ht').1, Option.some.injEq] at hnext'
              subst hnext'
              exact ih hothers hleaves

/-- `unlock` of a path that leads to a field fails exactly when some hop has no grant.
-/
theorem unlock_fails_iff {f : Field} (hf : r.findField? s hops = some f) :
    (∃ e, r.unlock borrowed before s hops = .error e) ↔
      ∃ i t hop, r.Leaves s hops i t hop ∧ t.permissions.grants.find? hop = none := by
  constructor
  · rintro ⟨e, he⟩
    obtain ⟨i, t, hop, hleaves, hnone, -⟩ := unlock_eq_error hf he
    exact ⟨i, t, hop, hleaves, hnone⟩
  · rintro ⟨i, t, hop, hleaves, hnone⟩
    refine except_fails_iff.mpr ?_
    rintro ⟨u, hu⟩
    have hsome := isSome_grant_of_unlock hu hleaves
    rw [hnone] at hsome
    cases hsome

end Registry

end EntityRules
