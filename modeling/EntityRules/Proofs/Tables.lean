import EntityRules.Json.Basic
import EntityRules.Proofs.Lists
import Mathlib.Data.List.Sort

/-!
# `EntityRules.Proofs.Tables`: what tells tables apart

The entries of a `Table` are in the order of their keys, and no key comes twice. So the
entries are determined by which there are, and the table by anything that tells its
entries.

* `Table.ext_find?`: by what it answers for each key.
* `Table.map_eq_self_iff`: a table is its own image when its values are theirs.
* `Table.eq_of_ofTable_eq`: by its JSON, if this tells the values.
-/

set_option autoImplicit false

namespace EntityRules

open Proofs

namespace Table

variable {κ β : Type}

section Order

variable [LT κ] [LE κ] [Std.IsLinearOrder κ] [Std.LawfulOrderLT κ]

/-- No entry is before itself, because no key is. -/
instance irrefl_key_lt : Std.Irrefl fun a b : κ × β => a.1 < b.1 where
  irrefl _ := Std.lt_irrefl

/-- No two entries are before each other, so the order of the keys is antisymmetric on
entries too. -/
instance antisymm_key_lt : Std.Antisymm fun a b : κ × β => a.1 < b.1 where
  antisymm _ _ h h' := absurd (Std.lt_trans h h') Std.lt_irrefl

/-- `find?` determines a table. -/
theorem ext_find? [DecidableEq κ] {s t : Table κ β} (h : ∀ key, s.find? key = t.find? key) :
    s = t := by
  have hmem : ∀ e, e ∈ s.entries ↔ e ∈ t.entries := by
    rintro ⟨key, value⟩
    rw [mem_entries_iff, mem_entries_iff, h]
  have hentries : s.entries = t.entries := s.sorted.eq_of_mem_iff t.sorted hmem
  cases s
  cases t
  simpa using hentries

end Order

/-- A table is its own image under `g` exactly when `g` keeps each of its values. -/
theorem map_eq_self_iff {t : Table String β} {g : β → β} :
    t.map g = t ↔ ∀ value ∈ t.values, g value = value := by
  have hentries : t.map g = t ↔ t.entries.map (fun e => (e.1, g e.2)) = t.entries := by
    cases t
    simp [map]
  rw [hentries, Proofs.map_eq_self_iff, values, List.forall_mem_map]
  simp only [Prod.ext_iff, true_and]

/-- Tables with one image under `f` and one JSON are equal, if values with both are. -/
theorem eq_of_ofTable_eq {t t' : Table String β} {f : β → β} {write : β → Json}
    (hsame : t.map f = t'.map f) (h : Json.ofTable t write = Json.ofTable t' write)
    (heq : ∀ a b : β, f a = f b → write a = write b → a = b) : t = t' := by
  have hentries : t.entries = t'.entries := by
    refine eq_of_map_eq_map (Table.mk.inj hsame) (Json.obj.inj h) fun a _ b hab hwrite => ?_
    obtain ⟨hkey, hvalue⟩ := Prod.mk.inj hab
    exact Prod.ext hkey (heq _ _ hvalue (Prod.mk.inj hwrite).2)
  cases t
  cases t'
  simpa using hentries

end Table

end EntityRules
