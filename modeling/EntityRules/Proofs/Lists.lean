import Mathlib.Data.List.Perm.Basic

/-!
# `EntityRules.Proofs.Lists`: what a map over a list tells about its items

Structs, effects and expressions hold lists of parts, and a function on them maps
these lists. The theorems bring a statement about the mapped lists down to the
items.

* `map_eq_self_iff`: a map keeps a list exactly when it keeps its items.
* `eq_of_map_eq_map`: two maps together tell lists apart when they tell items
  apart.
* `nodup_map_of_pairwise_lt`: items in the order of their names have distinct
  names.
* `nodup_eraseDups`: a list without its repetitions repeats nothing.
* `mapM_congr`: steps over a list are the same when they are the same on its items.
* `forall₂_flatMap`: two lists that are put together from parts are related when
  the parts are.
* `forall₂_imp_of_mem`, `exists_of_mem_of_forall₂`: related lists, seen from the items of
  the second one.
* `forall₂_comp_iff`: two relations between lists, one after the other, relate items
  through a list of items between them.
* `mapM_eq_some_iff`, `isSome_mapM`: partial steps over a list give a list when every step
  gives something.
* `forall₂_filter_filterMap`: what a partial step gives, beside the items that it gives
  it for.
* `perm_flatMap_filter`: a list that is sorted into classes, each item into one,
  loses nothing and repeats nothing.
-/

set_option autoImplicit false

namespace EntityRules.Proofs

variable {α β γ : Type}

/-- `map f` keeps a list exactly when `f` keeps each of its items. -/
theorem map_eq_self_iff {f : α → α} {l : List α} : l.map f = l ↔ ∀ a ∈ l, f a = a := by
  have hid : l.map f = l ↔ l.map f = l.map id := by rw [List.map_id]
  rw [hid, List.map_inj_left]
  rfl

/-- Lists with the same images under `f` and under `g` are equal, if items with the same
two images are. -/
theorem eq_of_map_eq_map {f : α → β} {g : α → γ} {l l' : List α} (hf : l.map f = l'.map f)
    (hg : l.map g = l'.map g) (h : ∀ a ∈ l, ∀ b, f a = f b → g a = g b → a = b) : l = l' := by
  induction l generalizing l' with
  | nil => exact (List.map_eq_nil_iff.mp hf.symm).symm
  | cons a rest ih =>
      cases l' with
      | nil => cases hf
      | cons b rest' =>
          rw [List.map_cons, List.map_cons, List.cons.injEq] at hf hg
          have hab : a = b := h a (List.mem_cons_self ..) b hf.1 hg.1
          have hrest : rest = rest' :=
            ih hf.2 hg.2 fun c hc => h c (List.mem_cons_of_mem _ hc)
          rw [hab, hrest]

/-- Items in the order of their `name` have distinct names. -/
theorem nodup_map_of_pairwise_lt {name : α → String} {l : List α}
    (h : l.Pairwise fun a b => name a < name b) : (l.map name).Nodup := by
  refine List.pairwise_map.mpr (h.imp fun hlt heq => ?_)
  rw [heq] at hlt
  exact Std.lt_irrefl hlt

/-- `eraseDups` leaves no repetition. The recursion is on the length, because the first
item is taken out of the others before they are looked at. -/
theorem nodup_eraseDups [DecidableEq α] : ∀ l : List α, l.eraseDups.Nodup
  | [] => List.nodup_nil
  | a :: rest => by
      have ih := nodup_eraseDups (rest.filter fun b => !b == a)
      rw [List.eraseDups_cons, List.nodup_cons]
      refine ⟨fun ha => ?_, ih⟩
      rw [List.mem_eraseDups, List.mem_filter] at ha
      simp at ha
termination_by l => l.length
decreasing_by
  have hfilter := List.length_filter_le (fun b => !b == a) rest
  rw [List.length_cons]
  omega

/-- `mapM` gives the same for `f` and `g`, whatever the monad, when these agree on the
items. -/
theorem mapM_congr {m : Type → Type} [Monad m] [LawfulMonad m] {f g : α → m β} {l : List α}
    (h : ∀ a ∈ l, f a = g a) : l.mapM f = l.mapM g := by
  induction l with
  | nil => rfl
  | cons a rest ih =>
      obtain ⟨ha, hrest⟩ := List.forall_mem_cons.mp h
      rw [List.mapM_cons, List.mapM_cons, ha, ih hrest]

/-- `flatMap` keeps lists related by `R` when `f` and `g` give related parts for each
item. -/
theorem forall₂_flatMap {R : β → γ → Prop} {f : α → List β} {g : α → List γ} {l : List α}
    (h : ∀ a ∈ l, List.Forall₂ R (f a) (g a)) : List.Forall₂ R (l.flatMap f) (l.flatMap g) := by
  have hself : List.Forall₂ (fun a b => a ∈ l ∧ a = b) l l :=
    List.forall₂_same.mpr fun a ha => ⟨ha, rfl⟩
  refine List.rel_flatMap hself ?_
  rintro a _ ⟨ha, rfl⟩
  exact h a ha

/-- Lists related by `R` have the same images under `f` and `g`, if related items have.
-/
theorem map_eq_map_of_forall₂ {R : α → β → Prop} {f : α → γ} {g : β → γ} {l : List α} {l' : List β}
    (h : List.Forall₂ R l l') (hR : ∀ a b, R a b → f a = g b) : l.map f = l'.map g := by
  induction h with
  | nil => rfl
  | cons hab _ ih => rw [List.map_cons, List.map_cons, hR _ _ hab, ih]

/-- Lists related by `R` are related by `S`, if `R` implies `S` for the items of the
second list. -/
theorem forall₂_imp_of_mem {R S : α → β → Prop} {l : List α} {l' : List β}
    (h : ∀ b ∈ l', ∀ a, R a b → S a b) (hl : List.Forall₂ R l l') : List.Forall₂ S l l' := by
  induction hl with
  | nil => exact .nil
  | cons hab _ ih =>
      obtain ⟨hhead, htail⟩ := List.forall_mem_cons.mp h
      exact .cons (hhead _ hab) (ih htail)

/-- In lists related by `R` every item of the second is related to one of the first. -/
theorem exists_of_mem_of_forall₂ {R : α → β → Prop} {l : List α} {l' : List β}
    (h : List.Forall₂ R l l') : ∀ b ∈ l', ∃ a ∈ l, R a b := by
  induction h with
  | nil => exact fun b hb => absurd hb List.not_mem_nil
  | @cons a b l l' hab _ ih =>
      refine List.forall_mem_cons.mpr ⟨⟨a, List.mem_cons_self .., hab⟩, fun c hc => ?_⟩
      obtain ⟨a', ha', hac⟩ := ih c hc
      exact ⟨a', List.mem_cons_of_mem _ ha', hac⟩

/-- `R` followed by `S` relates two lists exactly when some list `between` them is
related to both. -/
theorem forall₂_comp_iff {R : α → β → Prop} {S : β → γ → Prop} {l : List α} {l' : List γ} :
    List.Forall₂ (fun a c => ∃ b, R a b ∧ S b c) l l' ↔
      ∃ between, List.Forall₂ R l between ∧ List.Forall₂ S between l' := by
  constructor
  · intro h
    -- The values between are chosen one by one.
    induction h with
    | nil => exact ⟨[], .nil, .nil⟩
    | cons hac _ ih =>
        obtain ⟨b, hab, hbc⟩ := hac
        obtain ⟨between, hleft, hright⟩ := ih
        exact ⟨b :: between, .cons hab hleft, .cons hbc hright⟩
  · rintro ⟨between, hleft, hright⟩
    induction hleft generalizing l' with
    | nil =>
        cases hright
        exact .nil
    | cons hab _ ih =>
        cases hright with
        | cons hbc hright => exact .cons ⟨_, hab, hbc⟩ (ih hright)

/-- `l.mapM f` gives `l'` when the partial `f` gives its items on those of `l`, place by
place. -/
theorem mapM_eq_some_iff {f : α → Option β} {l : List α} {l' : List β} :
    l.mapM f = some l' ↔ List.Forall₂ (fun a b => f a = some b) l l' := by
  induction l generalizing l' with
  | nil =>
      rw [List.mapM_nil, List.forall₂_nil_left_iff, Option.pure_def, Option.some.injEq, eq_comm]
  | cons a rest ih =>
      simp only [List.mapM_cons, Option.bind_eq_bind, Option.pure_def, Option.bind_eq_some_iff,
        Option.some.injEq]
      constructor
      · rintro ⟨b, hb, bs, hbs, rfl⟩
        exact .cons hb (ih.mp hbs)
      · intro h
        cases h with
        | cons hb hbs => exact ⟨_, hb, _, ih.mpr hbs, rfl⟩

/-- `l.mapM f` gives something when the partial `f` does for every item. -/
theorem isSome_mapM {f : α → Option β} {l : List α} :
    (l.mapM f).isSome = l.all fun a => (f a).isSome := by
  induction l with
  | nil => rfl
  | cons a rest ih =>
      rw [List.mapM_cons, List.all_cons, ← ih]
      cases f a with
      | none => rfl
      | some b => cases rest.mapM f <;> rfl

/-- `filterMap f` has, in their order, what `f` gives for the items that it gives
something for. -/
theorem forall₂_filter_filterMap (f : α → Option β) (l : List α) :
    List.Forall₂ (fun a b => f a = some b) (l.filter fun a => (f a).isSome) (l.filterMap f) := by
  induction l with
  | nil => exact .nil
  | cons a rest ih =>
      cases ha : f a with
      | none => simpa [ha] using ih
      | some b => simpa [ha] using ih

/-- `a` is put down once for each of the `classes` that it is in. -/
theorem flatMap_if_eq_map_filter (inClass : β → Bool) (a : α) (classes : List β) :
    (classes.flatMap fun k => if inClass k then [a] else []) =
      (classes.filter inClass).map fun _ => a := by
  induction classes with
  | nil => rfl
  | cons k rest ih =>
      rw [List.flatMap_cons, ih]
      by_cases hin : inClass k = true
      · rw [List.filter_cons_of_pos hin, if_pos hin, List.map_cons, List.singleton_append]
      · rw [List.filter_cons_of_neg hin, if_neg hin, List.nil_append]

/-- The `classes` of a list, one behind the other, are the list in another order, if `h`
puts every item into exactly one class. -/
theorem perm_flatMap_filter {classes : List β} {inClass : β → α → Bool} {l : List α}
    (h : ∀ a ∈ l, ∃ k, classes.filter (fun k => inClass k a) = [k]) :
    (classes.flatMap fun k => l.filter (inClass k)).Perm l := by
  induction l with
  | nil => simp
  | cons a rest ih =>
      obtain ⟨⟨k, hk⟩, hrest⟩ := List.forall_mem_cons.mp h
      -- An item is in front of its own class and leaves the others as they are.
      have hsplit : ∀ k, (a :: rest).filter (inClass k) =
          (if inClass k a then [a] else []) ++ rest.filter (inClass k) := by
        intro k
        by_cases hin : inClass k a = true
        · rw [List.filter_cons_of_pos hin, if_pos hin, List.singleton_append]
        · rw [List.filter_cons_of_neg hin, if_neg hin, List.nil_append]
      have hown : (classes.flatMap fun k => if inClass k a then [a] else []) = [a] := by
        rw [flatMap_if_eq_map_filter, hk, List.map_singleton]
      have happend := (List.flatMap_append_perm classes (fun k => if inClass k a then [a] else [])
        fun k => rest.filter (inClass k)).symm
      rw [hown] at happend
      simp only [hsplit]
      exact happend.trans ((ih hrest).append_left [a])

end EntityRules.Proofs
