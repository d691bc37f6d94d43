import EntityRules.Leaf.Form
import EntityRules.Proofs.Decimal.RoundTrip
import EntityRules.Proofs.FirstFault

/-!
# `EntityRules.Proofs.Leaf.RoundTrip`: a leaf read back from its JSON scalar

A leaf is written without its kind, so it is read back under the kind that its
place gives it. Then it is the same leaf, except that a decimal comes back
canonical.

* `ofJson_toJson`: a leaf is read from its JSON as the leaf made canonical.
* `kind_of_ofJson`: what is read as a kind has that kind.
* `eq_of_toJson_eq`: different leaves of one kind are written differently.
-/

set_option autoImplicit false

namespace EntityRules

/-- `ofName?` finds a kind by its `name`. -/
theorem LeafKind.ofName?_name (kind : LeafKind) : LeafKind.ofName? kind.name = some kind := by
  cases kind <;> rfl

namespace Leaf

open Proofs

/-- `leaf.canonical`: the leaf that is read from the JSON of `leaf`; a decimal zero
loses its sign. -/
def canonical : Leaf → Leaf
  | decimal d => decimal d.canonical
  | leaf => leaf

/-- `leaf.IsNegativeZero`: the leaf is a decimal zero with a minus. -/
def IsNegativeZero : Leaf → Prop
  | decimal d => d.IsNegativeZero
  | _ => False

instance : DecidablePred IsNegativeZero
  | decimal d => inferInstanceAs (Decidable d.IsNegativeZero)
  | number _ | text _ | boolean _ => inferInstanceAs (Decidable False)

/-- `leaf.canonical` is `leaf` unless this is a zero with a minus. -/
theorem canonical_eq_self_iff {leaf : Leaf} : leaf.canonical = leaf ↔ ¬ leaf.IsNegativeZero := by
  cases leaf with
  | decimal d => simp [canonical, IsNegativeZero, Decimal.canonical_eq_self_iff]
  | number n => simp [canonical, IsNegativeZero]
  | text s => simp [canonical, IsNegativeZero]
  | boolean b => simp [canonical, IsNegativeZero]

/-- `canonical` keeps the `kind`. -/
@[simp] theorem kind_canonical (leaf : Leaf) : leaf.canonical.kind = leaf.kind := by
  cases leaf <;> rfl

/-- `toJson` of a leaf is never `null`. -/
@[simp] theorem isNull_toJson (leaf : Leaf) : leaf.toJson.isNull = false := by
  cases leaf <;> rfl

/-- `ofJson` reads a leaf back from its `toJson`, as its `canonical` form. -/
theorem ofJson_toJson (leaf : Leaf) : ofJson leaf.kind leaf.toJson = .ok leaf.canonical := by
  cases leaf with
  | number n =>
      have hint : (Json.int n.toInt).asNumber? = some n := n.ofInt?_toInt
      simp [ofJson, toJson, kind, canonical, readNumber, hint, Except.map]
  | decimal d =>
      simp [ofJson, toJson, kind, canonical, readDecimal, numeral?, d.read_text, Except.map]
  | text s => rfl
  | boolean b => rfl

/-- `ofJson kind` reads leaves of this `kind` only. -/
theorem kind_of_ofJson {kind : LeafKind} {v : Json} {leaf : Leaf} (h : ofJson kind v = .ok leaf) :
    leaf.kind = kind := by
  cases kind with
  -- Numbers and decimals are read by readers of their own, texts and booleans as they are.
  | number =>
      obtain ⟨n, -, rfl⟩ := except_map_eq_ok.mp h
      rfl
  | decimal =>
      obtain ⟨d, -, rfl⟩ := except_map_eq_ok.mp h
      rfl
  | text =>
      rw [ofJson] at h
      split at h
      · cases h
        rfl
      · cases h
  | boolean =>
      rw [ofJson] at h
      split at h
      · cases h
        rfl
      · cases h

/-- `toJson` tells leaves of one `kind` apart. -/
theorem eq_of_toJson_eq {a b : Leaf} (hkind : a.kind = b.kind) (h : a.toJson = b.toJson) :
    a = b := by
  cases a with
  | number n =>
      cases b with
      | number m =>
          have hint : n.toInt = m.toInt := Json.int.inj h
          have hsome : Number.ofInt? n.toInt = Number.ofInt? m.toInt := congrArg _ hint
          rw [Number.ofInt?_toInt, Number.ofInt?_toInt] at hsome
          rw [Option.some.inj hsome]
      | decimal _ | text _ | boolean _ => cases hkind
  | decimal d =>
      cases b with
      | decimal e => rw [Decimal.text_injective (Json.str.inj h)]
      | number _ | text _ | boolean _ => cases hkind
  | text s =>
      cases b with
      | text s' => rw [Json.str.inj h]
      | number _ | decimal _ | boolean _ => cases hkind
  | boolean x =>
      cases b with
      | boolean y => rw [Json.bool.inj h]
      | number _ | decimal _ | text _ => cases hkind

end Leaf

end EntityRules
