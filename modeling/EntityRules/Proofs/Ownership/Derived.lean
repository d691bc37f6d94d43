import EntityRules.Proofs.Ownership.Listing
import EntityRules.Schema.Loading

/-!
# `EntityRules.Proofs.Ownership.Derived`: derived fields in a view

A path that an effect writes is not for the user to write. A view knows of the
effects of the struct in view and of the ancestors that are listed with it, which
see the path behind their own. It does not ask the structs that its paths lead
to: what such a struct derives for itself can be written from above by whoever
has the grant.

* `isDerived_iff`: `isDerived` marks what an effect of the struct in view or of a
  listed ancestor has as its target.
* `writeable_iff_of_mem_access`: a listed path can be written exactly when a
  grant allows it (`MayWrite`) and nothing derives it (`Derives`).
* `target_writeable_iff`: the same for the targets of the effects of any struct
  that the view leads to; in the view of the struct itself none can be written.
* `nested_target_writeable`: a target of the struct below that can be written.

`isDerived` takes the snapshot root off a target and off a listed path, and off
nothing else. A listed path has none, but a field may be spelled like one; the
theorems are about the other paths, for which nothing is lost. The path of an
ancestor to the struct in view is compared as it is written, and a root in front
of it like the name of a field. So `Derives` asks only the ancestors whose path is
relative, and what an ancestor with a root makes of a path is left open.
-/

set_option autoImplicit false

namespace EntityRules

open Proofs

/-- A path is its own `relative` when it has no snapshot root. -/
theorem Path.relative_of_snapshot?_eq_none {p : Path} (h : p.snapshot? = none) :
    p.relative = p := by
  rw [relative, h]
  rfl

/-- `s.Targets p`: an effect of `s` has `p` as its target, after the snapshot root
of the target is taken off. -/
def Struct.Targets (s : Struct) (p : Path) : Prop :=
  ∃ statement ∈ s.statements, statement.target.relative = p

/-- `writes` is the test for `Targets`. -/
theorem Struct.writes_iff {s : Struct} {p : Path} : s.writes p = true ↔ s.Targets p := by
  simp only [writes, Targets, List.any_eq_true, beq_iff_eq]

namespace Registry

variable {r : Registry} {s : Struct} {paths : List Path} {requested : List String}
  {ancestors : List Ancestor} {access : List FieldAccess} {p : Path}

/-- `r.Derives s ancestors p`: an effect of `s` has `p` as its target, or one of a
listed ancestor has it, behind the path `via` through which the ancestor reaches
`s`. An ancestor counts when `via` has no snapshot root. -/
def Derives (r : Registry) (s : Struct) (ancestors : List Ancestor) (p : Path) : Prop :=
  s.Targets p ∨ ∃ ancestor ∈ ancestors, ancestor.via.snapshot? = none ∧
    ∃ higher, r.find? ancestor.struct = some higher ∧ higher.Targets (ancestor.via.join p)

/-- `r.MayWrite s paths p`: one of `paths` counts for `s` and has a hop whose grant
allows to write `p`. -/
def MayWrite (r : Registry) (s : Struct) (paths : List Path) (p : Path) : Prop :=
  ∃ path, s.Owns paths path ∧ r.Along s path.segments Struct.GrantsWrite p

/-- `isDerived` marks a path without a snapshot root when it is a target of `s`, or
one of an ancestor behind `via`, whatever `via` begins with. -/
theorem isDerived_iff (hp : p.snapshot? = none) :
    r.isDerived s ancestors p = true ↔ s.Targets p ∨ ∃ ancestor ∈ ancestors,
      ∃ higher, r.find? ancestor.struct = some higher ∧
        higher.Targets (ancestor.via.join p) := by
  have hhigher : ∀ ancestor : Ancestor,
      (r.find? ancestor.struct).any (·.writes (ancestor.via.join p)) = true ↔
        ∃ higher, r.find? ancestor.struct = some higher ∧
          higher.Targets (ancestor.via.join p) := by
    intro ancestor
    cases r.find? ancestor.struct with
    | none => simp
    | some higher => simp [Struct.writes_iff]
  rw [isDerived, Path.relative_of_snapshot?_eq_none hp, Bool.or_eq_true, Struct.writes_iff,
    List.any_eq_true]
  simp only [hhigher]

/-- What `Derives` says is marked, whichever other ancestors are listed. -/
theorem isDerived_of_derives (hp : p.snapshot? = none) (h : r.Derives s ancestors p) :
    r.isDerived s ancestors p = true := by
  rw [isDerived_iff hp]
  rcases h with hs | ⟨ancestor, hancestor, -, hhigher⟩
  · exact .inl hs
  · exact .inr ⟨ancestor, hancestor, hhigher⟩

/-- `Derives` says all that is marked when every ancestor reaches `s` through a path
without a snapshot root. -/
theorem isDerived_iff_derives (hp : p.snapshot? = none)
    (hvia : ∀ ancestor ∈ ancestors, ancestor.via.snapshot? = none) :
    r.isDerived s ancestors p = true ↔ r.Derives s ancestors p := by
  constructor
  · intro h
    rcases (isDerived_iff hp).mp h with hs | ⟨ancestor, hancestor, hhigher⟩
    · exact .inl hs
    · exact .inr ⟨ancestor, hancestor, hvia ancestor hancestor, hhigher⟩
  · exact isDerived_of_derives hp

/-- A listed path is writeable exactly when `MayWrite` holds and `isDerived` does not
mark it. -/
theorem writeable_iff_mayWrite (h : r.access s paths requested ancestors = .ok access)
    {a : FieldAccess} (ha : a ∈ access) :
    a.writeable = true ↔ r.MayWrite s paths a.path ∧ ¬ r.isDerived s ancestors a.path = true := by
  obtain ⟨rights, hrights, rfl⟩ := access_eq_ok_iff.mp h
  obtain ⟨-, hmark⟩ := mem_markAll_iff.mp ha
  have hwriteable : a.writeable =
      (rights.write.contains a.path && !r.isDerived s ancestors a.path) := by
    rw [hmark]
    rfl
  rw [hwriteable, Bool.and_eq_true, Bool.not_eq_true', ← Bool.not_eq_true,
    PathSet.contains_iff_mem, mem_write_of_permissions hrights, MayWrite]

/-- A listed path is writeable only when `MayWrite` holds and `Derives` does not. When
every ancestor reaches `s` through a path without a snapshot root, this is enough. -/
theorem writeable_iff_of_mem_access
    (h : r.access s paths requested ancestors = .ok access) {a : FieldAccess} (ha : a ∈ access)
    (hp : a.path.snapshot? = none) :
    (a.writeable = true → r.MayWrite s paths a.path ∧ ¬ r.Derives s ancestors a.path) ∧
    ((∀ ancestor ∈ ancestors, ancestor.via.snapshot? = none) →
      (a.writeable = true ↔ r.MayWrite s paths a.path ∧ ¬ r.Derives s ancestors a.path)) := by
  rw [writeable_iff_mayWrite h ha]
  constructor
  · rintro ⟨hgranted, hmarked⟩
    exact ⟨hgranted, mt (isDerived_of_derives hp) hmarked⟩
  · intro hvia
    rw [isDerived_iff_derives hp hvia]

/-- A target of an effect of any struct `t` that the view of `s` leads to, where the
path to the target begins with no field that is spelled like a snapshot root. It is
writeable only when a grant allows it and neither `s` derives it nor an ancestor that
reaches `s` through a path without a root; when all listed ancestors do so, it is
writeable exactly then. Whether `t` derives it is not asked. Without hops `t` is `s`,
and the targets of `s` are not writeable, whatever ancestors are listed. -/
theorem target_writeable_iff (h : r.access s paths requested ancestors = .ok access) :
    ∀ (hops : List String) (t : Struct), r.structAt? s hops = some t →
      ∀ statement ∈ t.statements, ∀ a ∈ access,
        a.path = Path.join ⟨hops⟩ statement.target.relative → a.path.snapshot? = none →
          (hops = [] → a.writeable = false) ∧
          (a.writeable = true →
            r.MayWrite s paths a.path ∧ ¬ r.Derives s ancestors a.path) ∧
          ((∀ ancestor ∈ ancestors, ancestor.via.snapshot? = none) →
            (a.writeable = true ↔
              r.MayWrite s paths a.path ∧ ¬ r.Derives s ancestors a.path)) := by
  intro hops t ht statement hstatement a ha hpath hp
  obtain ⟨honly, hiff⟩ := writeable_iff_of_mem_access h ha hp
  refine ⟨?_, honly, hiff⟩
  rintro rfl
  cases ht
  -- The target is one of the struct in view.
  have hderives : r.Derives s ancestors a.path := .inl ⟨statement, hstatement, hpath.symm⟩
  exact Bool.eq_false_iff.mpr fun hwriteable => (honly hwriteable).2 hderives

/-- The declarations of customers and orders. The owner of a customer may write
what the customer spent, which an effect of the customer derives. -/
def salesBundle : Json := .obj [
  ("constructs", .arr [
    .obj [
      ("effects", .obj [
        ("tally", .obj [("mutate", .arr [.obj [
          ("expr", Expr.form "literal" "number" [.int 0]),
          ("target", .str "_curr.spent")]])])]),
      ("fields", .obj [
        ("owner", .obj [("struct", .str "User"), ("type", .str "other")]),
        ("spent", .obj [("type", .str "number")])]),
      ("id", .str "Customer"),
      ("kind", .str "Struct"),
      ("permissions", .obj [
        ("ownership", .arr [.obj [("field", .str "owner")]]),
        ("private", .obj [("owner", .obj [("write", .arr [.str "spent"])])])])],
    .obj [
      ("fields", .obj [
        ("customer", .obj [("struct", .str "Customer"), ("type", .str "other")])]),
      ("id", .str "Order"),
      ("kind", .str "Struct"),
      ("permissions", .obj [
        ("ownership", .arr [.obj [("field", .str "customer")]]),
        ("private", .obj [("customer", .obj [])])])]]),
  ("id", .str "shop")]

/-- In the view of the customer of `salesBundle` that is reached from the orders, its
owner cannot write what the customer spent: `MayWrite` holds, and so does `Derives`. -/
theorem target_writeable_iff_spent : ∃ r customer access, load salesBundle {} = .ok r ∧
    r.find? "Customer" = some customer ∧
    r.access customer [⟨["owner"]⟩] [] [⟨"Order", ⟨["customer"]⟩⟩] = .ok access ∧
    ∃ a ∈ access, a.path = ⟨["spent"]⟩ ∧ r.MayWrite customer [⟨["owner"]⟩] a.path ∧
      r.Derives customer [⟨"Order", ⟨["customer"]⟩⟩] a.path ∧ a.writeable = false := by
  -- What the bundle is loaded as and what it allows is computed; that the view of an
  -- ancestor writes the path follows from the mark.
  have hread : ∃ r customer access statement, load salesBundle {} = .ok r ∧
      r.find? "Customer" = some customer ∧
      r.access customer [⟨["owner"]⟩] [] [⟨"Order", ⟨["customer"]⟩⟩] = .ok access ∧
      statement ∈ customer.statements ∧ statement.target.relative = ⟨["spent"]⟩ ∧
      ∃ a ∈ access, a.path = ⟨["spent"]⟩ ∧ ∃ rights,
        r.permissions customer [⟨["owner"]⟩] [] = .ok rights ∧
          ⟨["spent"]⟩ ∈ rights.write.toList :=
    ⟨_, _, _, _, rfl, rfl, rfl, List.mem_singleton_self _, rfl, _,
      List.mem_cons_of_mem _ (List.mem_singleton_self _), rfl, _, rfl, List.mem_singleton_self _⟩
  obtain ⟨r, customer, access, statement, hload, hfind, haccess, hstatement, htarget, a, ha, hpath,
    rights, hrights, hgranted⟩ := hread
  have hroot : a.path.snapshot? = none := by
    rw [hpath]
    rfl
  have hjoin : a.path = Path.join ⟨[]⟩ statement.target.relative := by
    rw [hpath, htarget]
    rfl
  obtain ⟨hown, -, hiff⟩ := target_writeable_iff haccess [] customer rfl statement hstatement a ha
    hjoin hroot
  have hclosed : a.writeable = false := hown rfl
  have hmay : r.MayWrite customer [⟨["owner"]⟩] a.path := by
    rw [← hpath] at hgranted
    exact (mem_write_of_permissions hrights a.path).mp hgranted
  have hderives : r.Derives customer [⟨"Order", ⟨["customer"]⟩⟩] a.path := by
    by_contra hnot
    rw [(hiff (by decide)).mpr ⟨hmay, hnot⟩] at hclosed
    cases hclosed
  exact ⟨r, customer, access, hload, hfind, haccess, a, ha, hpath, hmay, hderives, hclosed⟩

/-- In the view of the order of `salesBundle`, who owns the customer can write what the
customer spent, although an effect of the customer `Targets` it. -/
theorem nested_target_writeable : ∃ r order customer access, load salesBundle {} = .ok r ∧
    r.find? "Order" = some order ∧ r.structAt? order ["customer"] = some customer ∧
    r.access order [⟨["customer", "owner"]⟩] [] [] = .ok access ∧
    ∃ statement ∈ customer.statements, ∃ a ∈ access,
      a.path = Path.join ⟨["customer"]⟩ statement.target.relative ∧ a.writeable = true :=
  ⟨_, _, _, _, rfl, rfl, rfl, rfl, _, List.mem_singleton_self _, _,
    List.mem_cons_of_mem _ (List.mem_cons_of_mem _ (List.mem_singleton_self _)), rfl, rfl⟩

end Registry

end EntityRules
