import EntityRules.Proofs.Schema.RoundTrip

/-!
# `EntityRules.Proofs.Schema.Distinct`: structs told apart by their declarations

Reading a declaration gives the struct with its leaves made canonical, so two
structs with one declaration differ at most in the signs of zeros. Each part
shows these signs in its JSON (`Leaf.eq_of_toJson_eq`), and so they do not differ
at all.

* `Struct.eq_of_toJson_eq`: readable structs with one declaration are equal.

Every part has two hypotheses: `hsame`, that the parts are equal once canonical,
and that they are written alike. The first alone fixes the shape, so the proofs
never compare two different constructors.
-/

set_option autoImplicit false

namespace EntityRules

open Proofs

/-! ### Parts of a struct -/

/-- `toDecl` tells fields apart that `mapLeaves` makes the same. -/
theorem Field.eq_of_toDecl_eq {a b : Field}
    (hsame : a.mapLeaves Leaf.canonical = b.mapLeaves Leaf.canonical) (h : a.toDecl = b.toDecl) :
    a = b := by
  obtain ⟨type, default⟩ := a
  obtain ⟨type', default'⟩ := b
  obtain ⟨htype, hcanonical⟩ := Field.mk.inj hsame
  have hjson : default.map Leaf.toJson = default'.map Leaf.toJson := (FieldDecl.mk.inj h).2.2
  cases default with
  | none =>
      cases default' with
      | none => exact congrArg (Field.mk · none) htype
      | some leaf' => cases hjson
  | some leaf =>
      cases default' with
      | none => cases hjson
      | some leaf' =>
          have hleaf : leaf.canonical = leaf'.canonical := Option.some.inj hcanonical
          -- The JSON of a leaf does not show its kind; the canonical leaf does.
          have hkind : leaf.kind = leaf'.kind := by
            rw [← Leaf.kind_canonical, hleaf, Leaf.kind_canonical]
          have : leaf = leaf' := Leaf.eq_of_toJson_eq hkind (Option.some.inj hjson)
          exact congr (congrArg Field.mk htype) (congrArg some this)

/-- `toJson` tells ownership rules apart that `mapLeaves` makes the same. -/
theorem OwnershipRule.eq_of_toJson_eq {a b : OwnershipRule}
    (hsame : a.mapLeaves Leaf.canonical = b.mapLeaves Leaf.canonical) (h : a.toJson = b.toJson) :
    a = b := by
  obtain ⟨field, guard⟩ := a
  obtain ⟨field', guard'⟩ := b
  simp only [mapLeaves, mk.injEq] at hsame
  obtain ⟨rfl, hguard⟩ := hsame
  simp only [toJson, Json.obj.injEq, List.cons.injEq, Prod.mk.injEq, true_and, and_true] at h
  rw [Expr.eq_of_toJson_eq hguard h]

/-- `toJson` tells borrow rules apart that `mapLeaves` makes the same. -/
theorem BorrowRule.eq_of_toJson_eq {a b : BorrowRule}
    (hsame : a.mapLeaves Leaf.canonical = b.mapLeaves Leaf.canonical) (h : a.toJson = b.toJson) :
    a = b := by
  obtain ⟨name, prove, paths⟩ := a
  obtain ⟨name', prove', paths'⟩ := b
  simp only [mapLeaves, mk.injEq] at hsame
  obtain ⟨rfl, hprove, rfl⟩ := hsame
  simp only [toJson, Json.obj.injEq, List.cons.injEq, Prod.mk.injEq, true_and, and_true] at h
  rw [Expr.eq_of_toJson_eq hprove h]

/-- `toJson` tells permissions apart that `mapLeaves` makes the same. -/
theorem Permissions.eq_of_toJson_eq {a b : Permissions}
    (hsame : a.mapLeaves Leaf.canonical = b.mapLeaves Leaf.canonical) (h : a.toJson = b.toJson) :
    a = b := by
  obtain ⟨ownership, borrow, grants, publicPaths⟩ := a
  obtain ⟨ownership', borrow', grants', publicPaths'⟩ := b
  -- Grants and public paths hold no leaves, so they are the same already.
  simp only [mapLeaves, mk.injEq] at hsame
  obtain ⟨hownership, hborrow, rfl, rfl⟩ := hsame
  simp only [toJson, Json.obj.injEq, List.cons.injEq, Prod.mk.injEq, true_and, and_true,
    Json.arr.injEq] at h
  have hrules : ownership = ownership' :=
    eq_of_map_eq_map hownership h.2 fun _ _ _ => OwnershipRule.eq_of_toJson_eq
  have hborrows : borrow = borrow' :=
    Table.eq_of_ofTable_eq hborrow h.1 fun _ _ => BorrowRule.eq_of_toJson_eq
  rw [hrules, hborrows]

/-- `toJson` tells statements apart that `mapLeaves` makes the same. -/
theorem Statement.eq_of_toJson_eq {a b : Statement}
    (hsame : a.mapLeaves Leaf.canonical = b.mapLeaves Leaf.canonical) (h : a.toJson = b.toJson) :
    a = b := by
  obtain ⟨target, expr⟩ := a
  obtain ⟨target', expr'⟩ := b
  simp only [mapLeaves, mk.injEq] at hsame
  obtain ⟨rfl, hexpr⟩ := hsame
  simp only [toJson, Json.obj.injEq, List.cons.injEq, Prod.mk.injEq, true_and, and_true] at h
  rw [Expr.eq_of_toJson_eq hexpr h]

/-- `toJson` tells effects apart that `mapLeaves` makes the same. -/
theorem Effect.eq_of_toJson_eq {a b : Effect}
    (hsame : a.mapLeaves Leaf.canonical = b.mapLeaves Leaf.canonical) (h : a.toJson = b.toJson) :
    a = b := by
  obtain ⟨name, dependencies, statements⟩ := a
  obtain ⟨name', dependencies', statements'⟩ := b
  simp only [mapLeaves, mk.injEq] at hsame
  obtain ⟨rfl, rfl, hstatements⟩ := hsame
  simp only [toJson, Json.obj.injEq, List.cons.injEq, Prod.mk.injEq, true_and, and_true,
    Json.arr.injEq] at h
  rw [eq_of_map_eq_map hstatements h fun _ _ _ => Statement.eq_of_toJson_eq]

/-- `toJson` tells checks apart that `mapLeaves` makes the same. -/
theorem Check.eq_of_toJson_eq {a b : Check}
    (hsame : a.mapLeaves Leaf.canonical = b.mapLeaves Leaf.canonical) (h : a.toJson = b.toJson) :
    a = b := by
  obtain ⟨name, expr, errorCode⟩ := a
  obtain ⟨name', expr', errorCode'⟩ := b
  simp only [mapLeaves, mk.injEq] at hsame
  obtain ⟨rfl, hexpr, rfl⟩ := hsame
  simp only [toJson, Json.obj.injEq, List.cons.injEq, Prod.mk.injEq, true_and, and_true] at h
  rw [Expr.eq_of_toJson_eq hexpr h]

/-! ### Structs -/

/-- `ofMembers` tells rules in name order apart, if `write` tells apart those that `f`
makes the same. -/
theorem eq_of_ofMembers_eq {α : Type} {l l' : List α} {name : α → String} {write : α → Json}
    {f : α → α} (hl : l.Pairwise fun a b => name a < name b)
    (hl' : l'.Pairwise fun a b => name a < name b) (hsame : l.map f = l'.map f)
    (h : Json.ofMembers (l.map fun a => (name a, write a)) =
      Json.ofMembers (l'.map fun a => (name a, write a)))
    (heq : ∀ a b : α, f a = f b → write a = write b → a = b) : l = l' := by
  have hentries : ∀ l : List α, l.Pairwise (fun a b => name a < name b) →
      (Table.ofList (l.map fun a => (name a, write a))).entries =
        l.map fun a => (name a, write a) :=
    fun l hl => Table.entries_ofList (List.pairwise_map.mpr hl)
  rw [Json.ofMembers, Json.ofMembers, hentries l hl, hentries l' hl', Json.obj.injEq] at h
  exact eq_of_map_eq_map hsame h fun a _ b hab hwrite => heq a b hab (Prod.mk.inj hwrite).2

/-- `toJson` tells structs apart that are `Readable`. -/
theorem Struct.eq_of_toJson_eq {s t : Struct} (hs : s.Readable) (ht : t.Readable)
    (h : s.toJson = t.toJson) : s = t := by
  have hdecl : s.toDecl = t.toDecl := by
    have := congrArg StructDecl.ofJson h
    rw [StructDecl.ofJson_toJson, StructDecl.ofJson_toJson] at this
    exact Except.ok.inj this
  -- What is read from the one shape is both canonical structs.
  have hsame : s.mapLeaves Leaf.canonical = t.mapLeaves Leaf.canonical := by
    have := congrArg ofDecl hdecl
    rw [ofDecl_toDecl hs, ofDecl_toDecl ht] at this
    exact Except.ok.inj this
  obtain ⟨hname, hfields, hunique, hpermissions, heffects, hchecks⟩ := Struct.mk.inj hsame
  obtain ⟨-, hfieldDecls, -, hpermissionsJson, heffectsJson, hchecksJson, -⟩ :=
    StructDecl.mk.inj hdecl
  have hfields : s.fields.entries = t.fields.entries := by
    refine eq_of_map_eq_map (Table.mk.inj hfields) hfieldDecls fun e _ e' hsame hdecl => ?_
    obtain ⟨hkey, hfield⟩ := Prod.mk.inj hsame
    exact Prod.ext hkey (Field.eq_of_toDecl_eq hfield (Prod.mk.inj hdecl).2)
  have hpermissions : s.permissions = t.permissions :=
    Permissions.eq_of_toJson_eq hpermissions (Option.some.inj hpermissionsJson)
  have heffects : s.effects = t.effects :=
    eq_of_ofMembers_eq hs.effectNames ht.effectNames heffects (Option.some.inj heffectsJson)
      fun _ _ => Effect.eq_of_toJson_eq
  have hchecks : s.checks = t.checks :=
    eq_of_ofMembers_eq hs.checkNames ht.checkNames hchecks (Option.some.inj hchecksJson)
      fun _ _ => Check.eq_of_toJson_eq
  obtain ⟨name, ⟨fields, _⟩, unique, permissions, effects, checks⟩ := s
  obtain ⟨name', ⟨fields', _⟩, unique', permissions', effects', checks'⟩ := t
  obtain rfl : name = name' := hname
  obtain rfl : fields = fields' := hfields
  obtain rfl : unique = unique' := hunique
  obtain rfl : permissions = permissions' := hpermissions
  obtain rfl : effects = effects' := heffects
  obtain rfl : checks = checks' := hchecks
  rfl

end EntityRules
