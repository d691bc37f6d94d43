import EntityRules.Proofs.Access.Marks

/-!
# `EntityRules.Proofs.Access.Ancestors`: derived from below and from above

A field that an ancestor derives is marked in the view of the struct that holds it.
The ancestor sees that field behind its own path to the struct (`Ancestor.seen`), and
derives it there in a view of its own, without ancestors (`DerivesAlone`).

* `Path.relative_join`: a root in front of a path is in front of what follows it.
* `isDerived_iff_exists_seen`: the two views agree when what the ancestor sees is
  taken below a state, whatever is in front of it already.
* `isDerived_iff_derivesAlone`: they agree on what the ancestor sees as it is when
  that has no root, and also when the path to the ancestor is given without its own.
* `not_isDerived_of_rooted_ancestor`: with its root they do not agree, and a field
  that is derived can be written.

Both views compare paths without their roots. The view from above takes the root off
everything that it is asked for. The view from below takes it off the field only and
puts the path to the ancestor in front as it is written, so that a root there is
compared like the name of a field.
-/

set_option autoImplicit false

namespace EntityRules

/-! ### Roots in front of joined paths -/

/-- `relative` takes the root off the first path of a `join`; without segments in front,
the second must have no root. -/
theorem Path.relative_join {p q : Path} (h : p.segments ≠ [] ∨ q.snapshot? = none) :
    (p.join q).relative = p.relative.join q := by
  obtain ⟨segments⟩ := p
  cases segments with
  | nil =>
      have hq : q.snapshot? = none := h.resolve_left fun hne => hne rfl
      exact relative_of_snapshot?_eq_none hq
  | cons first rest =>
      -- Both have the same first segment, which is the root or none.
      have hroot : (Path.join ⟨first :: rest⟩ q).snapshot? = (Path.mk (first :: rest)).snapshot? :=
        rfl
      rw [relative, relative, hroot]
      split
      · rfl
      · rfl

/-- `a.seen p` is `p` as the ancestor sees it: behind `via`, its own path to the struct
in view. -/
def Ancestor.seen (a : Ancestor) (p : Path) : Path := a.via.join p.relative

/-- The ancestor with the snapshot root taken off `via`. -/
def Ancestor.relative (a : Ancestor) : Ancestor := { a with via := a.via.relative }

namespace Registry

variable {r : Registry} {s : Struct} {ancestors : List Ancestor} {p : Path}

/-- `r.DerivesAlone name p`: the struct called `name` derives `p` in a view of its own,
without ancestors. -/
def DerivesAlone (r : Registry) (name : String) (p : Path) : Prop :=
  ∃ s, r.find? name = some s ∧ r.isDerived s [] p = true

/-- Without ancestors `isDerived` marks what `writes` tests. -/
theorem isDerived_nil : r.isDerived s [] p = s.writes p.relative := by
  rw [isDerived, List.any_nil, Bool.or_false]

/-- `DerivesAlone` looks at `relative` paths only. -/
theorem derivesAlone_congr {name : String} {q : Path} (h : q.relative = p.relative) :
    r.DerivesAlone name q ↔ r.DerivesAlone name p := by
  simp only [DerivesAlone, isDerived_congr h]

/-- `isDerived` marks `p` when it does so without ancestors, or when one of them derives
what it has `seen`. That is taken below a root, so that a root of its own counts as a
field. -/
theorem isDerived_iff_exists_seen :
    r.isDerived s ancestors p = true ↔ r.isDerived s [] p = true ∨
      ∃ a ∈ ancestors, r.DerivesAlone a.struct ((a.seen p).rooted .curr) := by
  have habove : ∀ a : Ancestor, (r.find? a.struct).any (·.writes (a.via.join p.relative)) = true ↔
      r.DerivesAlone a.struct ((a.seen p).rooted .curr) := by
    intro a
    simp only [DerivesAlone, isDerived_nil, Path.relative_rooted, Ancestor.seen]
    cases r.find? a.struct with
    | none => simp
    | some higher => simp
  rw [isDerived_nil, isDerived, Bool.or_eq_true, List.any_eq_true]
  simp only [habove]

/-- The view from below (`isDerived`) and the views of the ancestors (`DerivesAlone`)
agree. A field is derived from below exactly when it is so without ancestors or when one
of them derives, in a view of its own, what it has `seen` below a state. The state can
be left out where no ancestor sees a path with a root. Where one does because `via` has
the root, the views agree once `Ancestor.relative` has taken it off. -/
theorem isDerived_iff_derivesAlone (r : Registry) (s : Struct) (ancestors : List Ancestor)
    (p : Path) :
    (r.isDerived s ancestors p = true ↔ r.isDerived s [] p = true ∨
      ∃ a ∈ ancestors, r.DerivesAlone a.struct ((a.seen p).rooted .curr)) ∧
    ((∀ a ∈ ancestors, (a.seen p).snapshot? = none) →
      (r.isDerived s ancestors p = true ↔ r.isDerived s [] p = true ∨
        ∃ a ∈ ancestors, r.DerivesAlone a.struct (a.seen p))) ∧
    ((∀ a ∈ ancestors, a.via.segments ≠ [] ∨ p.relative.snapshot? = none) →
      (r.isDerived s (ancestors.map Ancestor.relative) p = true ↔ r.isDerived s [] p = true ∨
        ∃ a ∈ ancestors, r.DerivesAlone a.struct (a.seen p))) := by
  refine ⟨isDerived_iff_exists_seen, fun hseen => ?_, fun hroots => ?_⟩
  · rw [isDerived_iff_exists_seen]
    refine or_congr_right (exists_congr fun a => and_congr_right fun ha => ?_)
    exact derivesAlone_congr (Path.relative_rooted_eq (hseen a ha) .curr)
  · rw [isDerived_iff_exists_seen]
    simp only [List.mem_map, exists_exists_and_eq_and]
    refine or_congr_right (exists_congr fun a => and_congr_right fun ha => ?_)
    -- Without its root the path to the ancestor gives what it sees without a root.
    have hseen : a.relative.seen p = (a.seen p).relative :=
      (Path.relative_join (hroots a ha)).symm
    exact derivesAlone_congr (by rw [hseen, Path.relative_rooted])

/-! ### Customers below orders -/

/-- The declarations of customers and orders. The owner of a customer may write
what the customer spent, which an effect of the orders derives. -/
def chargeBundle : Json := .obj [
  ("constructs", .arr [
    .obj [
      ("fields", .obj [
        ("owner", .obj [("struct", .str "User"), ("type", .str "other")]),
        ("spent", .obj [("type", .str "number")])]),
      ("id", .str "Customer"),
      ("kind", .str "Struct"),
      ("permissions", .obj [
        ("ownership", .arr [.obj [("field", .str "owner")]]),
        ("private", .obj [("owner", .obj [("write", .arr [.str "spent"])])])])],
    .obj [
      ("effects", .obj [
        ("charge", .obj [("mutate", .arr [.obj [
          ("expr", Expr.form "literal" "number" [.int 0]),
          ("target", .str "_curr.customer.spent")]])])]),
      ("fields", .obj [
        ("customer", .obj [("struct", .str "Customer"), ("type", .str "other")])]),
      ("id", .str "Order"),
      ("kind", .str "Struct"),
      ("permissions", .obj [
        ("ownership", .arr [.obj [("field", .str "customer")]]),
        ("private", .obj [("customer", .obj [])])])]]),
  ("id", .str "shop")]

/-- In `chargeBundle` the orders derive what their customers spent, and the customers do
not. -/
theorem load_chargeBundle : ∃ r customer order, load chargeBundle {} = .ok r ∧
    r.find? "Customer" = some customer ∧ r.find? "Order" = some order ∧
    r.isDerived customer [] ⟨["spent"]⟩ = false ∧
    r.isDerived order [] ⟨["customer", "spent"]⟩ = true :=
  ⟨_, _, _, rfl, rfl, rfl, rfl, rfl⟩

/-- What a customer spent is derived below the orders, which see it as `customer.spent`;
so it is below orders whose `via` has a root, once `Ancestor.relative` has taken that
off. -/
theorem isDerived_iff_derivesAlone_spent : ∃ r customer, load chargeBundle {} = .ok r ∧
    r.find? "Customer" = some customer ∧ r.isDerived customer [] ⟨["spent"]⟩ = false ∧
    r.isDerived customer [⟨"Order", ⟨["customer"]⟩⟩] ⟨["spent"]⟩ = true ∧
    r.isDerived customer ([⟨"Order", ⟨["_curr", "customer"]⟩⟩].map Ancestor.relative)
      ⟨["spent"]⟩ = true := by
  obtain ⟨r, customer, order, hload, hcustomer, horder, halone, hderives⟩ := load_chargeBundle
  have hplain : ∀ a ∈ [(⟨"Order", ⟨["customer"]⟩⟩ : Ancestor)],
      (a.seen ⟨["spent"]⟩).snapshot? = none := by decide
  have hrooted : ∀ a ∈ [(⟨"Order", ⟨["_curr", "customer"]⟩⟩ : Ancestor)],
      a.via.segments ≠ [] ∨ (Path.relative ⟨["spent"]⟩).snapshot? = none := by decide
  have habove : r.DerivesAlone "Order" ⟨["customer", "spent"]⟩ := ⟨order, horder, hderives⟩
  have hrootedAbove : r.DerivesAlone "Order" ⟨["_curr", "customer", "spent"]⟩ :=
    (derivesAlone_congr rfl).mpr habove
  have hagree := (isDerived_iff_derivesAlone r customer _ _).2.1 hplain
  have hagreeRooted := (isDerived_iff_derivesAlone r customer _ _).2.2 hrooted
  exact ⟨r, customer, hload, hcustomer, halone,
    hagree.mpr (.inr ⟨_, List.mem_singleton_self _, habove⟩),
    hagreeRooted.mpr (.inr ⟨_, List.mem_singleton_self _, hrootedAbove⟩)⟩

/-- Below orders whose `via` has the root `_curr`, what a customer spent is not derived:
the owner can write it. Yet the orders derive what they see from there, and it is
derived below them when `via` has no root. -/
theorem not_isDerived_of_rooted_ancestor : ∃ r customer access, load chargeBundle {} = .ok r ∧
    r.find? "Customer" = some customer ∧
    r.access customer [⟨["owner"]⟩] [] [⟨"Order", ⟨["_curr", "customer"]⟩⟩] = .ok access ∧
    (∃ a ∈ access, a.path = ⟨["spent"]⟩ ∧ a.writeable = true) ∧
    r.isDerived customer [⟨"Order", ⟨["customer"]⟩⟩] ⟨["spent"]⟩ = true ∧
    ¬ (r.isDerived customer [⟨"Order", ⟨["_curr", "customer"]⟩⟩] ⟨["spent"]⟩ = true ↔
      r.isDerived customer [] ⟨["spent"]⟩ = true ∨
        ∃ a ∈ [(⟨"Order", ⟨["_curr", "customer"]⟩⟩ : Ancestor)],
          r.DerivesAlone a.struct (a.seen ⟨["spent"]⟩)) := by
  have hread : ∃ r customer order access, load chargeBundle {} = .ok r ∧
      r.find? "Customer" = some customer ∧ r.find? "Order" = some order ∧
      r.access customer [⟨["owner"]⟩] [] [⟨"Order", ⟨["_curr", "customer"]⟩⟩] = .ok access ∧
      (∃ a ∈ access, a.path = ⟨["spent"]⟩ ∧ a.writeable = true) ∧
      r.isDerived customer [⟨"Order", ⟨["customer"]⟩⟩] ⟨["spent"]⟩ = true ∧
      r.isDerived customer [⟨"Order", ⟨["_curr", "customer"]⟩⟩] ⟨["spent"]⟩ = false ∧
      r.isDerived order [] ⟨["_curr", "customer", "spent"]⟩ = true :=
    ⟨_, _, _, _, rfl, rfl, rfl, rfl,
      ⟨_, List.mem_cons_of_mem _ (List.mem_singleton_self _), rfl, rfl⟩, rfl, rfl, rfl⟩
  obtain ⟨r, customer, order, access, hload, hcustomer, horder, haccess, hwriteable, hplain, hbelow,
    habove⟩ := hread
  refine ⟨r, customer, access, hload, hcustomer, haccess, hwriteable, hplain, fun hiff => ?_⟩
  have hderived := hiff.mpr (.inr ⟨_, List.mem_singleton_self _, order, horder, habove⟩)
  rw [hbelow] at hderived
  cases hderived

end Registry

end EntityRules
