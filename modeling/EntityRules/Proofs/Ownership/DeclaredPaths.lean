import EntityRules.Proofs.Ownership.Listing
import EntityRules.Proofs.Schema.Validity

/-!
# `EntityRules.Proofs.Ownership.DeclaredPaths`: rights name fields

The paths of a grant are checked on the struct that declares the grant, but
rights name them behind the hops that lead there. Both find the same field,
since the hops end at the very struct that declares the grant.

* `isSome_findField?_of_along`: what a hop contributes is a field of the struct
  where the hops begin.
* `rights_name_fields`: on a loaded registry every path of the rights, and every
  path that `access` lists, leads to a field.
-/

set_option autoImplicit false

namespace EntityRules

open Proofs

namespace Registry

variable {r : Registry} {s t : Struct} {hop : String} {hops : List String}
  {paths : List Path} {requested : List String} {p q : Path}

/-! ### One hop -/

/-- `GrantsWrite` names fields of the struct that declares the grant, if this
`KeepsRules`. -/
theorem isSome_findField?_of_grantsWrite (ht : t.KeepsRules r) (h : t.GrantsWrite hop q) :
    (r.findField? t q.segments).isSome := by
  obtain ⟨grant, hgrant, hq⟩ := h
  exact (Struct.grantFault?_eq_none_iff.mp (ht.grants hop grant hgrant)).2 q (.inr hq)

/-- `GrantsRead` names fields of the struct that declares the grant, if this
`KeepsRules`. -/
theorem isSome_findField?_of_grantsRead (ht : t.KeepsRules r) (hfield : (t.field? hop).isSome)
    (h : t.GrantsRead hop q) : (r.findField? t q.segments).isSome := by
  rcases h with ⟨grant, hgrant, hq⟩ | rfl | hq
  · exact (Struct.grantFault?_eq_none_iff.mp (ht.grants hop grant hgrant)).2 q (.inl hq)
  · exact hfield
  · exact ht.publicPaths q hq

/-! ### All hops of a path -/

/-- `Along` names fields of the struct where the path begins, if every hop `contributes`
fields of the struct that it leaves. -/
theorem isSome_findField?_of_along {contributes : Struct → String → Path → Prop} {f : Field}
    (hs : s ∈ r.structs) (hpath : r.findField? s hops = some f)
    (hcontributes : ∀ t ∈ r.structs, ∀ hop q, (t.field? hop).isSome → contributes t hop q →
      (r.findField? t q.segments).isSome)
    (h : r.Along s hops contributes p) : (r.findField? s p.segments).isSome := by
  obtain ⟨i, t, hop, q, hleaves, hq, rfl⟩ := h
  -- The hop leaves `t` through a field of `t`, since the whole path leads to one.
  have hi : i < hops.length := (List.getElem?_eq_some_iff.mp hleaves.1).1
  obtain ⟨t', hop', hleaves', hfield⟩ := exists_leaves_of_findField? hpath hi
  obtain ⟨rfl, rfl⟩ := hleaves.unique hleaves'
  have hfound := hcontributes t (hleaves.mem_structs hs) hop q hfield hq
  have hne : q.segments ≠ [] := by
    obtain ⟨g, hg⟩ := Option.isSome_iff_exists.mp hfound
    exact ne_nil_of_findField? hg
  -- The hops before lead to `t`, so the path goes on there.
  rwa [findField?_append hleaves.2 hne]

/-- `permissions` name fields only, in a registry whose structs keep the rules. -/
theorem isSome_findField?_of_permissions (hrules : ∀ s ∈ r.structs, s.KeepsRules r)
    (hs : s ∈ r.structs) {rights : Rights} (h : r.permissions s paths requested = .ok rights)
    (hp : p ∈ rights.write.toList ∨ p ∈ rights.read.toList) :
    (r.findField? s p.segments).isSome := by
  have hwrite : ∀ path, ¬ r.Rejects s path → r.Along s path.segments Struct.GrantsWrite p →
      (r.findField? s p.segments).isSome := by
    intro path hpath halong
    obtain ⟨f, hf⟩ := exists_findField?_of_not_rejects hpath
    exact isSome_findField?_of_along hs hf
      (fun t ht _ _ _ hq => isSome_findField?_of_grantsWrite (hrules t ht) hq) halong
  have hread : ∀ path, ¬ r.Rejects s path → r.Along s path.segments Struct.GrantsRead p →
      (r.findField? s p.segments).isSome := by
    intro path hpath halong
    obtain ⟨f, hf⟩ := exists_findField?_of_not_rejects hpath
    exact isSome_findField?_of_along hs hf
      (fun t ht _ _ hfield hq => isSome_findField?_of_grantsRead (hrules t ht) hfield hq) halong
  -- Whatever is in the rights comes along a path that is not refused.
  rcases hp with hp | hp
  · obtain ⟨path, howns, halong⟩ := (mem_write_of_permissions h p).mp hp
    exact hwrite path (not_rejects_of_permissions h (.inl howns)) halong
  · rcases (mem_read_of_permissions h p).mp hp with ⟨path, howns, halong⟩ | ⟨path, hlent, halong⟩
    · exact hread path (not_rejects_of_permissions h (.inl howns)) halong
    · have hpath := not_rejects_of_permissions h (.inr hlent)
      rcases halong with halong | halong
      · exact hread path hpath halong
      · exact hwrite path hpath halong

/-! ### Rights and listings -/

/-- In a loaded registry the `permissions` on a struct name fields that the schema
declares, each reached through reference fields by `getField`, and so do the paths that
`access` and `sessionAccess` list with what an actor may do. -/
theorem rights_name_fields {v : Json} {config : Config} (h : load v config = .ok r) :
    (∀ s ∈ r.structs, ∀ paths requested rights,
      r.permissions s paths requested = .ok rights → ∀ p,
      p ∈ rights.write.toList ∨ p ∈ rights.read.toList →
        p.segments ≠ [] ∧ ∃ f, r.getField s p = .ok f) ∧
    (∀ s ∈ r.structs, ∀ paths requested ancestors access,
      r.access s paths requested ancestors = .ok access → ∀ a ∈ access,
        a.path.segments ≠ [] ∧ ∃ f, r.getField s a.path = .ok f) ∧
    ∀ name paths resolver ancestors access,
      r.sessionAccess name paths resolver ancestors = .ok access →
        ∃ s, r.get name = .ok s ∧ ∀ a ∈ access,
          a.path.segments ≠ [] ∧ ∃ f, r.getField s a.path = .ok f := by
  -- Loading checks the rules that the paths of rights lead to fields by, and a list has
  -- only paths of rights.
  have hrules := (load_eq_ok_iff.mp h).2
  have hrights : ∀ s ∈ r.structs, ∀ paths requested rights,
      r.permissions s paths requested = .ok rights → ∀ p,
      p ∈ rights.write.toList ∨ p ∈ rights.read.toList →
        p.segments ≠ [] ∧ ∃ f, r.getField s p = .ok f := by
    intro s hs paths requested rights hrights p hp
    have hfound := isSome_findField?_of_permissions hrules hs hrights hp
    obtain ⟨f, hf⟩ := Option.isSome_iff_exists.mp hfound
    exact ⟨ne_nil_of_findField? hf, f, getField_eq_ok_iff.mpr hf⟩
  have haccess : ∀ s ∈ r.structs, ∀ paths requested ancestors access,
      r.access s paths requested ancestors = .ok access → ∀ a ∈ access,
        a.path.segments ≠ [] ∧ ∃ f, r.getField s a.path = .ok f := by
    intro s hs paths requested ancestors access haccess a ha
    obtain ⟨rights, hok, rfl⟩ := access_eq_ok_iff.mp haccess
    exact hrights s hs paths requested rights hok a.path (mem_markAll_iff.mp ha).1
  refine ⟨hrights, haccess, fun name paths resolver ancestors access hsession => ?_⟩
  obtain ⟨s, hfind, hok⟩ := sessionAccess_eq_ok_iff.mp hsession
  refine ⟨s, by rw [get, hfind], ?_⟩
  exact haccess s (mem_structs_of_find? hfind) paths _ ancestors access hok

/-- Whoever owns the customer of `shopOrder` may write the name of the customer, and
that is a field which an order leads to. -/
theorem rights_name_fields_shop : ∃ rights,
    shop.permissions shopOrder [⟨["customer", "owner"]⟩] ["owner"] = .ok rights ∧
      ⟨["customer", "name"]⟩ ∈ rights.write.toList ∧
      ∃ f, shop.getField shopOrder ⟨["customer", "name"]⟩ = .ok f := by
  have hwrite : ((shop.permissions shopOrder [⟨["customer", "owner"]⟩] ["owner"]).map fun rights =>
      decide (⟨["customer", "name"]⟩ ∈ rights.write.toList)).toOption = some true := by
    decide +kernel
  cases hrights : shop.permissions shopOrder [⟨["customer", "owner"]⟩] ["owner"] with
  | error e =>
      rw [hrights] at hwrite
      cases hwrite
  | ok rights =>
      rw [hrights] at hwrite
      have hmem : ⟨["customer", "name"]⟩ ∈ rights.write.toList := by
        simpa [Except.map, Except.toOption] using hwrite
      have hfields := (rights_name_fields load_shopBundle).1 shopOrder
        (mem_structs_of_find? find?_order_shop) _ _ rights hrights _ (.inl hmem)
      exact ⟨rights, rfl, hmem, hfields.2⟩

end Registry

end EntityRules
