/-!
# `EntityRules.Table`: finite maps in key order

Every named thing of a schema (fields, grants, checks, structs) is looked up by
its name and listed in name order. `Table κ β` is the list of its entries with
the proof that the keys strictly increase, so equal look-ups make equal tables
and a listing needs no sorting.

* `find?_insert`: one insertion changes one key.
* `mem_entries_iff`: the entries are exactly what `find?` answers.
* `ofList_entries`: a table is the table of its entries.
* `perm_entries_ofList`: the table of a list with distinct keys loses no entry.
-/

set_option autoImplicit false

namespace EntityRules

/-- A finite map from `κ` to `β`: its entries, with strictly increasing keys. -/
structure Table (κ β : Type) [LT κ] where
  entries : List (κ × β)
  sorted : entries.Pairwise fun a b => a.1 < b.1

namespace Table

variable {κ β γ : Type} [LT κ]

instance [DecidableEq κ] [DecidableEq β] : DecidableEq (Table κ β) := fun s t =>
  decidable_of_iff (s.entries = t.entries) <| by
    cases s; cases t; simp

/-- The table without entries. -/
def empty : Table κ β := ⟨[], .nil⟩

instance : Inhabited (Table κ β) := ⟨empty⟩

/-- The keys, in order. -/
def keys (t : Table κ β) : List κ := t.entries.map (·.1)

/-- The values, in the order of their keys. -/
def values (t : Table κ β) : List β := t.entries.map (·.2)

/-- The value at a key, if the table has one. -/
def find? [BEq κ] (t : Table κ β) (key : κ) : Option β := t.entries.lookup key

/-- Whether the table has a value at a key. -/
def contains [BEq κ] (t : Table κ β) (key : κ) : Bool := (t.find? key).isSome

/-! ### Insertion into a list of entries -/

omit [LT κ] in
/-- A look-up asks the first entry and then the rest. -/
theorem lookup_cons_eq_if [DecidableEq κ] (key k : κ) (value : β) (rest : List (κ × β)) :
    ((k, value) :: rest).lookup key = if key = k then some value else rest.lookup key := by
  by_cases h : key = k
  · subst h; simp
  · have : (key == k) = false := by simpa using h
    simp [List.lookup_cons, this, h]

/-- Puts an entry at its place in key order; an entry with the same key gives
way. -/
def insertEntry [DecidableEq κ] [DecidableLT κ] (key : κ) (value : β) :
    List (κ × β) → List (κ × β)
  | [] => [(key, value)]
  | (k, v) :: rest =>
    if key = k then (key, value) :: rest
    else if key < k then (key, value) :: (k, v) :: rest
    else (k, v) :: insertEntry key value rest

section Insertion

variable [DecidableEq κ] [DecidableLT κ]

/-- An insertion is seen at its own key and nowhere else, in any list of
entries, sorted or not. -/
theorem lookup_insertEntry (key other : κ) (value : β) (entries : List (κ × β)) :
    (insertEntry key value entries).lookup other =
      if other = key then some value else entries.lookup other := by
  induction entries with
  | nil => simp [insertEntry, lookup_cons_eq_if]
  | cons entry rest ih =>
      obtain ⟨k, v⟩ := entry
      simp only [insertEntry]
      split
      · next hk => subst hk; simp only [lookup_cons_eq_if]; split <;> rfl
      · split
        · simp only [lookup_cons_eq_if]
        · next hk _ =>
            simp only [lookup_cons_eq_if, ih]
            by_cases h : other = key
            · subst h; simp [hk]
            · simp [h]

/-- Every entry after an insertion is the new one or an old one. -/
theorem mem_insertEntry {key : κ} {value : β} {entries : List (κ × β)} {e : κ × β}
    (h : e ∈ insertEntry key value entries) : e = (key, value) ∨ e ∈ entries := by
  induction entries with
  | nil => exact .inl (by simpa [insertEntry] using h)
  | cons entry rest ih =>
      obtain ⟨k, v⟩ := entry
      simp only [insertEntry] at h
      split at h
      · rcases List.mem_cons.mp h with h | h
        · exact .inl h
        · exact .inr (List.mem_cons_of_mem _ h)
      · split at h
        · rcases List.mem_cons.mp h with h | h
          · exact .inl h
          · exact .inr h
        · rcases List.mem_cons.mp h with h | h
          · exact .inr (h ▸ List.mem_cons_self ..)
          · rcases ih h with h | h
            · exact .inl h
            · exact .inr (List.mem_cons_of_mem _ h)

/-- A new key makes one entry more. -/
theorem perm_insertEntry {key : κ} (value : β) {entries : List (κ × β)}
    (h : key ∉ entries.map (·.1)) :
    (insertEntry key value entries).Perm ((key, value) :: entries) := by
  induction entries with
  | nil => exact .refl _
  | cons entry rest ih =>
      obtain ⟨k, v⟩ := entry
      rw [List.map_cons, List.mem_cons, not_or] at h
      rw [insertEntry, if_neg h.1]
      split
      · exact .refl _
      · exact ((ih h.2).cons (k, v)).trans (.swap ..)

variable [LE κ] [Std.IsLinearOrder κ] [Std.LawfulOrderLT κ]

/-- Insertion keeps the keys strictly increasing. -/
theorem sorted_insertEntry (key : κ) (value : β) {entries : List (κ × β)}
    (h : entries.Pairwise fun a b => a.1 < b.1) :
    (insertEntry key value entries).Pairwise fun a b => a.1 < b.1 := by
  induction entries with
  | nil => simp [insertEntry]
  | cons entry rest ih =>
      obtain ⟨k, v⟩ := entry
      obtain ⟨hhead, htail⟩ := List.pairwise_cons.mp h
      simp only [insertEntry]
      split
      · next hk =>
          subst hk
          exact List.pairwise_cons.mpr ⟨hhead, htail⟩
      · next hk =>
          split
          · next hlt =>
              refine List.pairwise_cons.mpr ⟨fun e he => ?_, h⟩
              rcases List.mem_cons.mp he with he | he
              · exact he ▸ hlt
              · exact Std.lt_trans hlt (hhead e he)
          · next hlt =>
              refine List.pairwise_cons.mpr ⟨fun e he => ?_, ih htail⟩
              rcases mem_insertEntry he with he | he
              · rcases Std.lt_trichotomy key k with h | h | h
                · exact absurd h hlt
                · exact absurd h hk
                · exact he ▸ h
              · exact hhead e he

/-- The table with `value` at `key`, replacing what was there. -/
def insert (t : Table κ β) (key : κ) (value : β) : Table κ β :=
  ⟨insertEntry key value t.entries, sorted_insertEntry key value t.sorted⟩

/-- The table of a list of entries; of two entries with one key the later
stays. -/
def ofList (entries : List (κ × β)) : Table κ β :=
  entries.foldl (fun t e => t.insert e.1 e.2) empty

/-- Insertions add no entries but their own. -/
theorem mem_foldl_insert {entries : List (κ × β)} {t : Table κ β} {e : κ × β}
    (h : e ∈ (entries.foldl (fun t e => t.insert e.1 e.2) t).entries) :
    e ∈ t.entries ∨ e ∈ entries := by
  induction entries generalizing t with
  | nil => exact .inl h
  | cons a rest ih =>
      rcases ih h with h | h
      · rcases mem_insertEntry h with h | h
        · exact .inr (h ▸ List.mem_cons_self ..)
        · exact .inl h
      · exact .inr (List.mem_cons_of_mem _ h)

/-- Every entry of the table of a list is in the list. -/
theorem mem_of_mem_ofList {entries : List (κ × β)} {e : κ × β} (h : e ∈ (ofList entries).entries) :
    e ∈ entries :=
  (mem_foldl_insert h).resolve_left (by simp [empty])

/-- An insertion behind all keys goes to the end. -/
theorem insertEntry_of_forall_lt {key : κ} (value : β) {entries : List (κ × β)}
    (h : ∀ e ∈ entries, e.1 < key) : insertEntry key value entries = entries ++ [(key, value)] := by
  induction entries with
  | nil => rfl
  | cons entry rest ih =>
      obtain ⟨hhead, htail⟩ := List.forall_mem_cons.mp h
      have hne : key ≠ entry.1 := fun heq => Std.lt_irrefl (heq ▸ hhead)
      have hnot : ¬ key < entry.1 := fun hlt => Std.lt_irrefl (Std.lt_trans hhead hlt)
      rw [insertEntry, if_neg hne, if_neg hnot, ih htail, List.cons_append]

/-- Entries whose keys increase, and are behind those of a table, are put at its
end. -/
theorem entries_foldl_insert {entries : List (κ × β)} {t : Table κ β}
    (ht : ∀ a ∈ t.entries, ∀ b ∈ entries, a.1 < b.1)
    (h : entries.Pairwise fun a b => a.1 < b.1) :
    (entries.foldl (fun t e => t.insert e.1 e.2) t).entries = t.entries ++ entries := by
  induction entries generalizing t with
  | nil => rw [List.foldl_nil, List.append_nil]
  | cons e rest ih =>
      obtain ⟨hhead, htail⟩ := List.pairwise_cons.mp h
      have hinsert : (t.insert e.1 e.2).entries = t.entries ++ [e] :=
        insertEntry_of_forall_lt e.2 fun a ha => ht a ha e (List.mem_cons_self ..)
      rw [List.foldl_cons, ih _ htail, hinsert, List.append_assoc, List.singleton_append]
      intro a ha b hb
      rw [hinsert, List.mem_append, List.mem_singleton] at ha
      rcases ha with ha | rfl
      · exact ht a ha b (List.mem_cons_of_mem _ hb)
      · exact hhead b hb

/-- The table of a list in key order has the entries of the list. -/
theorem entries_ofList {entries : List (κ × β)} (h : entries.Pairwise fun a b => a.1 < b.1) :
    (ofList entries).entries = entries :=
  entries_foldl_insert (fun _ ha => absurd ha List.not_mem_nil) h

/-- A table is the table of its entries. -/
@[simp] theorem ofList_entries (t : Table κ β) : ofList t.entries = t := by
  have h := entries_ofList t.sorted
  cases ht : ofList t.entries
  cases t
  simpa [ht] using h

end Insertion

/-- The table with the values replaced. -/
def map (t : Table κ β) (f : β → γ) : Table κ γ :=
  ⟨t.entries.map fun e => (e.1, f e.2), List.pairwise_map.mpr t.sorted⟩

/-- The table without the entries that fail a test. -/
def filter (t : Table κ β) (keep : κ → β → Bool) : Table κ β :=
  ⟨t.entries.filter fun e => keep e.1 e.2, t.sorted.filter _⟩

/-- The table without its entry at `key`. -/
def erase [DecidableEq κ] (t : Table κ β) (key : κ) : Table κ β :=
  t.filter fun k _ => k ≠ key

/-! ### What a table answers -/

@[simp] theorem find?_empty [BEq κ] (key : κ) : (empty : Table κ β).find? key = none := rfl

/-- Values that carry their keys are in the order of these. -/
theorem pairwise_values {t : Table κ β} {name : β → κ} (h : ∀ e ∈ t.entries, name e.2 = e.1) :
    t.values.Pairwise fun a b => name a < name b := by
  rw [values, List.pairwise_map]
  refine t.sorted.imp_of_mem fun ha hb hlt => ?_
  rw [h _ ha, h _ hb]
  exact hlt

/-- A replaced value is found where the value was. -/
@[simp] theorem find?_map [BEq κ] (t : Table κ β) (f : β → γ) (key : κ) :
    (t.map f).find? key = (t.find? key).map f := by
  show (t.entries.map fun e => (e.1, f e.2)).lookup key = (t.entries.lookup key).map f
  induction t.entries with
  | nil => rfl
  | cons e rest ih =>
      rw [List.map_cons, List.lookup_cons, List.lookup_cons, ih]
      split <;> rfl

/-- The values are replaced in their order. -/
@[simp] theorem values_map (t : Table κ β) (f : β → γ) : (t.map f).values = t.values.map f := by
  simp only [values, map, List.map_map]
  rfl

/-- One insertion changes one key. -/
theorem find?_insert [DecidableEq κ] [DecidableLT κ] [LE κ] [Std.IsLinearOrder κ]
    [Std.LawfulOrderLT κ] (t : Table κ β) (key other : κ) (value : β) :
    (t.insert key value).find? other = if other = key then some value else t.find? other :=
  lookup_insertEntry key other value t.entries

section Lookup

variable [DecidableEq κ] [LE κ] [Std.LawfulOrderLT κ]

/-- In a sorted list the first entry with a key is the only one. -/
theorem lookup_eq_some_iff_mem {entries : List (κ × β)}
    (h : entries.Pairwise fun a b => a.1 < b.1) (key : κ) (value : β) :
    entries.lookup key = some value ↔ (key, value) ∈ entries := by
  induction entries with
  | nil => simp
  | cons entry rest ih =>
      obtain ⟨k, v⟩ := entry
      obtain ⟨hhead, htail⟩ := List.pairwise_cons.mp h
      by_cases hk : key = k
      · subst hk
        have hnot : ∀ w, (key, w) ∉ rest := fun w hw => absurd (hhead (key, w) hw) Std.lt_irrefl
        simp [hnot, eq_comm]
      · simp [lookup_cons_eq_if, hk, ih htail]

/-- Putting back what is at a key changes nothing. -/
theorem insertEntry_eq_self [DecidableLT κ] [Std.IsLinearOrder κ] {entries : List (κ × β)}
    (h : entries.Pairwise fun a b => a.1 < b.1) {key : κ} {value : β}
    (hvalue : entries.lookup key = some value) : insertEntry key value entries = entries := by
  induction entries with
  | nil => cases hvalue
  | cons entry rest ih =>
      obtain ⟨k, v⟩ := entry
      obtain ⟨hhead, htail⟩ := List.pairwise_cons.mp h
      rw [lookup_cons_eq_if] at hvalue
      rw [insertEntry]
      split at hvalue
      · next hk =>
          subst hk
          rw [if_pos rfl, Option.some.inj hvalue]
      · next hk =>
          -- The entry of the key is in the rest, so its key is behind the first one.
          have hbehind : k < key := hhead _ ((lookup_eq_some_iff_mem htail key value).mp hvalue)
          have hnot : ¬ key < k := fun hlt => Std.lt_irrefl (Std.lt_trans hlt hbehind)
          rw [if_neg hk, if_neg hnot, ih htail hvalue]

/-- The entries are exactly what `find?` answers. -/
theorem mem_entries_iff (t : Table κ β) (key : κ) (value : β) :
    (key, value) ∈ t.entries ↔ t.find? key = some value :=
  (lookup_eq_some_iff_mem t.sorted key value).symm

/-- The keys are those that `find?` answers. -/
theorem mem_keys_iff (t : Table κ β) (key : κ) : key ∈ t.keys ↔ (t.find? key).isSome := by
  simp only [keys, List.mem_map, Option.isSome_iff_exists, ← mem_entries_iff]
  constructor
  · rintro ⟨e, he, rfl⟩
    exact ⟨e.2, he⟩
  · rintro ⟨value, hvalue⟩
    exact ⟨_, hvalue, rfl⟩

variable [Std.IsLinearOrder κ]

/-- Insertions add their own keys to those of the table. -/
theorem mem_keys_foldl_insert [DecidableLT κ] {entries : List (κ × β)} {t : Table κ β} {key : κ} :
    key ∈ (entries.foldl (fun t e => t.insert e.1 e.2) t).keys ↔
      key ∈ t.keys ∨ key ∈ entries.map (·.1) := by
  induction entries generalizing t with
  | nil => simp
  | cons e rest ih =>
      rw [List.foldl_cons, ih, mem_keys_iff, mem_keys_iff, find?_insert, List.map_cons,
        List.mem_cons]
      by_cases h : key = e.1
      · simp [h]
      · simp [h]

/-- Entries with distinct keys, none of them in a table, are put in as they are. -/
theorem perm_foldl_insert [DecidableLT κ] {entries : List (κ × β)} {t : Table κ β}
    (hnew : ∀ e ∈ entries, e.1 ∉ t.keys) (h : (entries.map (·.1)).Nodup) :
    (entries.foldl (fun t e => t.insert e.1 e.2) t).entries.Perm (entries ++ t.entries) := by
  induction entries generalizing t with
  | nil => exact .refl _
  | cons e rest ih =>
      obtain ⟨hkey, hrest⟩ := List.forall_mem_cons.mp hnew
      rw [List.map_cons, List.nodup_cons] at h
      have hinsert : (t.insert e.1 e.2).entries.Perm (e :: t.entries) := perm_insertEntry e.2 hkey
      have hnew' : ∀ a ∈ rest, a.1 ∉ (t.insert e.1 e.2).keys := by
        intro a ha
        have hne : a.1 ≠ e.1 := fun heq => h.1 (heq ▸ List.mem_map_of_mem ha)
        rw [mem_keys_iff, find?_insert, if_neg hne, ← mem_keys_iff]
        exact hrest a ha
      exact (ih hnew' h.2).trans ((hinsert.append_left rest).trans List.perm_middle)

/-- The table of a list with distinct keys has the entries of the list. -/
theorem perm_entries_ofList [DecidableLT κ] {entries : List (κ × β)}
    (h : (entries.map (·.1)).Nodup) : (ofList entries).entries.Perm entries := by
  have hempty : ∀ e ∈ entries, e.1 ∉ (empty : Table κ β).keys := fun _ _ => List.not_mem_nil
  exact (perm_foldl_insert hempty h).trans (.of_eq (List.append_nil entries))

/-- The table of a list has the keys of the list. -/
theorem mem_keys_ofList [DecidableLT κ] {entries : List (κ × β)} {key : κ} :
    key ∈ (ofList entries).keys ↔ key ∈ entries.map (·.1) := by
  rw [ofList, mem_keys_foldl_insert]
  simp [keys, empty]

end Lookup

end Table

end EntityRules
