import EntityRules.Proofs.Schema.Arrangement
import EntityRules.Proofs.Schema.Distinct

/-!
# `EntityRules.Proofs.Schema.Reload`: loading what was loaded

The structs of a loaded registry, written in name order, make a bundle that is
loaded again under the same settings. What comes back is the registry with its
leaves made canonical (`Registry.canonical`): the same registry, unless a default
or a literal is a zero with a minus. Such a zero is written with its sign and
read without it, so the reloaded registry is written differently.

* `load_toBundle`: a loaded registry is loaded again from its own structs.
* `reload_eq_self_iff`: it is the same registry, with the same declarations and
  the same fingerprint, exactly when no leaf is a zero with a minus.
* `reload_negativeZero`: a bundle with such a zero, whose fingerprint changes.

Three things have to be seen for the first. The bundle has the shape that was
written (`ofBundle_toBundle`), its declarations are understood as the canonical
structs (`Struct.ofDecl_toDecl`), and these keep the rules because the replaced
leaves have the kinds of the old ones (`validate_mapLeaves`).
-/

set_option autoImplicit false

namespace EntityRules

open Proofs

/-! ### The bundle of a registry -/

/-- `readConstructs` reads the `toJson` of structs as their `toDecl`. -/
theorem Bundle.readConstructs_toJson (index : Nat) (structs : List Struct) :
    readConstructs index (structs.map Struct.toJson) = .ok (structs.map Struct.toDecl) := by
  induction structs generalizing index with
  | nil => rfl
  | cons s rest ih =>
      have hhead : readConstruct index s.toJson = .ok (some s.toDecl) := by
        show (StructDecl.ofJson s.toJson).map some = _
        rw [StructDecl.ofJson_toJson]
        rfl
      rw [List.map_cons, readConstructs, hhead, ih]
      rfl

namespace Registry

/-- `r.canonical`: the registry that is loaded from the declarations of `r`. -/
def canonical (r : Registry) : Registry := r.mapLeaves Leaf.canonical

variable {v : Json} {config : Config} {r : Registry}

/-- `ofStructs` makes `r.mapLeaves f` of the replaced structs of `r`. -/
theorem ofStructs_mapLeaves (f : Leaf → Leaf) :
    ofStructs r.id (r.structs.map (Struct.mapLeaves f)) r.config = r.mapLeaves f := by
  have hstructs : (r.mapLeaves f).structs = r.structs.map (Struct.mapLeaves f) :=
    Table.values_map ..
  exact ofStructs_eq_self (.of_eq hstructs.symm)

/-- `ofBundle` makes `r.canonical` of the bundle of `r`, if its structs are `Readable`.
-/
theorem ofBundle_toBundle (hr : ∀ s ∈ r.structs, s.Readable) :
    ofBundle r.toBundle r.config = .ok r.canonical := by
  have hshape : Bundle.ofJson r.toBundle = .ok ⟨r.id, "", r.structs.map Struct.toDecl⟩ := by
    have hid : r.toBundle.getString? "id" = some r.id := rfl
    have hconstructs : r.toBundle.getArray? "constructs" = some (r.structs.map Struct.toJson) := rfl
    rw [Bundle.ofJson, hid]
    dsimp only
    rw [hconstructs]
    dsimp only
    rw [Bundle.readConstructs_toJson]
    rfl
  have hnodup : ((r.structs.map Struct.toDecl).map (·.id)).Nodup := by
    rw [List.map_map]
    exact nodup_names_of_perm (.refl _)
  have hunderstand : (r.structs.map Struct.toDecl).mapM StructDecl.understand =
      .ok (r.structs.map (Struct.mapLeaves Leaf.canonical)) := by
    refine mapM_map_eq_ok fun s hs => ?_
    rw [StructDecl.understand, Struct.ofDecl_toDecl (hr s hs)]
  rw [ofBundle, hshape]
  dsimp only
  rw [Bundle.understand, StructDecl.repeated?_eq_none_iff.mpr ⟨fun _ _ => List.not_mem_nil, hnodup⟩]
  dsimp only
  rw [hunderstand, except_bind_ok, ofStructs_mapLeaves]
  rfl

/-- `load` makes a registry of `Readable` structs. -/
theorem readable_of_load (h : load v config = .ok r) :
    r.config = config ∧ ∀ s ∈ r.structs, s.Readable :=
  readable_of_ofBundle (load_eq_ok_iff.mp h).1

/-- `load` makes `r.canonical` of the bundle of a loaded registry `r`. -/
theorem load_toBundle (h : load v config = .ok r) : load r.toBundle config = .ok r.canonical := by
  obtain ⟨rfl, hreadable⟩ := readable_of_load h
  -- Canonical leaves have the kinds of the old ones, so the rules are kept.
  have hvalid : r.canonical.validate = .ok () := by
    rw [canonical, validate_mapLeaves r Leaf.kind_canonical]
    exact validate_eq_ok_iff.mpr (load_eq_ok_iff.mp h).2
  rw [load, ofBundle_toBundle hreadable]
  dsimp only
  rw [hvalid]
  rfl

/-- `r.canonical` is `r` when none of the `leaves` of `r` is a zero with a minus. -/
theorem canonical_eq_self_iff : r.canonical = r ↔ ∀ leaf ∈ r.leaves, ¬ leaf.IsNegativeZero := by
  rw [canonical, mapLeaves_eq_self_iff]
  simp only [Leaf.canonical_eq_self_iff]

/-- `toJson` tells registries of `Readable` structs apart, whatever their settings. -/
theorem eq_of_toJson_eq {a b : Registry} (ha : ∀ s ∈ a.structs, s.Readable)
    (hb : ∀ s ∈ b.structs, s.Readable) (h : a.toJson = b.toJson) : a.structs = b.structs := by
  rw [toJson, toJson] at h
  generalize a.structs = l at ha h
  generalize b.structs = l' at hb h
  induction l generalizing l' with
  | nil => exact (List.map_eq_nil_iff.mp h.symm).symm
  | cons s rest ih =>
      cases l' with
      | nil => cases h
      | cons t rest' =>
          rw [List.map_cons, List.map_cons, List.cons.injEq] at h
          rw [List.forall_mem_cons] at ha hb
          rw [Struct.eq_of_toJson_eq ha.1 hb.1 h.1, ih ha.2 rest' hb.2 h.2]

/-- A loaded registry `r`, written and loaded again under the same settings, comes back
as `r.canonical`. It comes back as it was, and is written as it was, exactly when none
of its `leaves` is a zero with a minus (`Leaf.IsNegativeZero`); its `fingerprint` is
then the same too. Whatever the leaves, no two structs that were loaded have one
`toJson`. -/
theorem reload_eq_self_iff (h : load v config = .ok r) :
    load r.toBundle config = .ok r.canonical ∧
      (load r.toBundle config = .ok r ↔ ∀ leaf ∈ r.leaves, ¬ leaf.IsNegativeZero) ∧
      (r.canonical.toJson = r.toJson ↔ ∀ leaf ∈ r.leaves, ¬ leaf.IsNegativeZero) ∧
      ((∀ leaf ∈ r.leaves, ¬ leaf.IsNegativeZero) → r.canonical.fingerprint = r.fingerprint) ∧
      ∀ v' config' r', load v' config' = .ok r' → ∀ s ∈ r.structs, ∀ t ∈ r'.structs,
        s.toJson = t.toJson → s = t := by
  have hreload := load_toBundle h
  obtain ⟨hconfig, hreadable⟩ := readable_of_load h
  -- What is loaded again is the canonical registry, so all is said about that one.
  refine ⟨hreload, ?_, ?_, ?_, ?_⟩
  · rw [hreload, Except.ok.injEq, canonical_eq_self_iff]
  · rw [← canonical_eq_self_iff]
    constructor
    · -- The reloaded structs are loaded too, and so told by their declarations.
      intro hjson
      have hstructs := eq_of_toJson_eq (readable_of_load hreload).2 hreadable hjson
      have hsame : ∀ s ∈ r.structs, s.mapLeaves Leaf.canonical = s := by
        rw [← map_eq_self_iff, structs, ← Table.values_map]
        exact hstructs
      rw [canonical, mapLeaves_eq_self_iff, leaves, List.forall_mem_flatMap]
      exact fun s hs => (Struct.mapLeaves_eq_self_iff _).mp (hsame s hs)
    · exact congrArg toJson
  · exact fun hzero => congrArg fingerprint (canonical_eq_self_iff.mpr hzero)
  · intro v' config' r' h' s hs t ht hjson
    exact Struct.eq_of_toJson_eq (hreadable s hs) ((readable_of_load h').2 t ht) hjson

/-- `shop` has a default, `1.50`, which is no zero: it is loaded again as it is. -/
theorem reload_shop : load shopBundle {} = .ok shop ∧
    (∀ leaf ∈ shop.leaves, ¬ leaf.IsNegativeZero) ∧ load shop.toBundle {} = .ok shop := by
  have hzero : ∀ leaf ∈ shop.leaves, ¬ leaf.IsNegativeZero := by decide +kernel
  exact ⟨load_shopBundle, hzero, (reload_eq_self_iff load_shopBundle).2.1.mpr hzero⟩

/-- The declaration of a struct with a default that rounds to a zero with a
minus. -/
def negativeZeroBundle : Json := .obj [
  ("constructs", .arr [.obj [
    ("fields", .obj [
      ("a", .obj [("default", .str "-0.4e-28"), ("type", .str "decimal")])]),
    ("id", .str "Z"),
    ("kind", .str "Struct")]]),
  ("id", .str "z")]

/-- `r.fingerprinted`: the text whose digest is the `fingerprint`. -/
def fingerprinted (r : Registry) : String := (Json.arr r.toJson).compact

/-- `changesOnReload v`: the bundle is loaded, and loaded again from its structs, with
another text to take the fingerprint of. -/
def changesOnReload (v : Json) : Bool :=
  match load v {} with
  | .error _ => false
  | .ok r =>
    match load r.toBundle {} with
    | .error _ => false
    | .ok r' => r'.fingerprinted != r.fingerprinted

/-- The default in `negativeZeroBundle`, a zero with a minus, does not come back: the
reloaded registry is written differently, and its fingerprint is that of another text.
-/
theorem reload_negativeZero : ∃ r r', load negativeZeroBundle {} = .ok r ∧
    load r.toBundle {} = .ok r' ∧ r'.toJson ≠ r.toJson ∧ r'.fingerprinted ≠ r.fingerprinted := by
  have hchanges : changesOnReload negativeZeroBundle = true := by decide +kernel
  rw [changesOnReload] at hchanges
  split at hchanges
  · cases hchanges
  · next r hr =>
      split at hchanges
      · cases hchanges
      · next r' hr' =>
          have hne : r'.fingerprinted ≠ r.fingerprinted := by simpa using hchanges
          exact ⟨r, r', hr, hr', fun hjson => hne (by rw [fingerprinted, hjson]; rfl), hne⟩

end Registry

end EntityRules
