import EntityRules.Ownership.Walk

/-!
# `EntityRules.Proofs.Schema.Routes`: the structs that a path passes

A path leads from struct to struct through reference fields. `structAt?` is the
struct that the first hops of a path reach, and `Leaves` says which struct one
hop leaves and through which field. Both are about hops alone, so that what is
found at the end of a path (`findField?`), whether the path proves ownership
(`walk`) and what it unlocks are all read off the same route.

* `findField?_append`: a path continues where its first hops lead.
* `walk_eq_ok_iff`: a path proves ownership when it ends at a field that refers
  to users.
* `validatePath_eq_ok_iff_leadsToUsers`: the paths that are accepted are those of
  at most the greatest length that lead to users, and what is behind users is
  followed from their struct.
* `exists_leaves_of_findField?`: every hop of a path to a field leaves some struct.
-/

set_option autoImplicit false

namespace EntityRules.Registry

/-- `r.structAt? s hops`: the struct that the hops lead to from `s`. -/
def structAt? (r : Registry) (s : Struct) : List String → Option Struct
  | [] => some s
  | hop :: rest => (r.hop? s hop).bind fun next => r.structAt? next rest

/-- `r.Leaves s hops i t hop`: hop number `i` leaves the struct `t` through the field
`hop`. -/
def Leaves (r : Registry) (s : Struct) (hops : List String) (i : Nat) (t : Struct)
    (hop : String) : Prop :=
  hops[i]? = some hop ∧ r.structAt? s (hops.take i) = some t

variable {r : Registry} {s t : Struct} {hop : String} {hops : List String}

/-! ### Structs on the way -/

/-- `find?` finds one of the `structs`. -/
theorem mem_structs_of_find? {name : String} (h : r.find? name = some t) : t ∈ r.structs :=
  List.mem_map.mpr ⟨(name, t), (r.table.mem_entries_iff name t).mpr h, rfl⟩

/-- `hop?` leads to one of the `structs`. -/
theorem mem_structs_of_hop? (h : r.hop? s hop = some t) : t ∈ r.structs := by
  obtain ⟨target, -, htarget⟩ := Option.bind_eq_some_iff.mp h
  exact mem_structs_of_find? htarget

/-- `structAt?` leads from one of the `structs` to one of them. -/
theorem mem_structs_of_structAt? (hs : s ∈ r.structs) (h : r.structAt? s hops = some t) :
    t ∈ r.structs := by
  induction hops generalizing s with
  | nil =>
      cases h
      exact hs
  | cons hop rest ih =>
      obtain ⟨next, hnext, hrest⟩ := Option.bind_eq_some_iff.mp h
      exact ih (mem_structs_of_hop? hnext) hrest

/-- `Leaves` tells of one of the `structs`, if the path begins at one of them. -/
theorem Leaves.mem_structs {i : Nat} (h : r.Leaves s hops i t hop) (hs : s ∈ r.structs) :
    t ∈ r.structs :=
  mem_structs_of_structAt? hs h.2

/-- `Leaves` for the first hop: it leaves the struct where the path begins. -/
@[simp] theorem leaves_zero {first : String} {rest : List String} :
    r.Leaves s (first :: rest) 0 t hop ↔ first = hop ∧ s = t := by
  simp [Leaves, structAt?]

/-- `Leaves` for the other hops: they are hops of the rest of the path, from the next
struct on. -/
@[simp] theorem leaves_succ {first : String} {rest : List String} {i : Nat} :
    r.Leaves s (first :: rest) (i + 1) t hop ↔
      ∃ next, r.hop? s first = some next ∧ r.Leaves next rest i t hop := by
  simp only [Leaves, List.getElem?_cons_succ, List.take_succ_cons, structAt?,
    Option.bind_eq_some_iff]
  constructor
  · rintro ⟨hi, next, hnext, ht⟩
    exact ⟨next, hnext, hi, ht⟩
  · rintro ⟨next, hnext, hi, ht⟩
    exact ⟨hi, next, hnext, ht⟩

/-- `Leaves` holds of no hop on the path without hops. -/
@[simp] theorem not_leaves_nil {i : Nat} : ¬ r.Leaves s [] i t hop := by
  simp [Leaves]

/-! ### The field at the end -/

/-- `findField?` follows a path of several hops from the struct behind the first. -/
theorem findField?_cons {rest : List String} (h : rest ≠ []) :
    r.findField? s (hop :: rest) = (r.hop? s hop).bind fun next => r.findField? next rest := by
  cases rest with
  | nil => exact absurd rfl h
  | cons next rest => rfl

/-- `findField?` continues a path where `structAt?` leads by its first hops, if they
lead anywhere. -/
theorem findField?_append_eq_bind {rest : List String} (hrest : rest ≠ []) :
    r.findField? s (hops ++ rest) = (r.structAt? s hops).bind fun t => r.findField? t rest := by
  induction hops generalizing s with
  | nil => rfl
  | cons hop others ih =>
      have hne : others ++ rest ≠ [] := by simp [hrest]
      rw [List.cons_append, findField?_cons hne, structAt?, Option.bind_assoc]
      exact congrArg _ (funext fun next => ih)

/-- `findField?` continues a path where `structAt?` leads by its first hops. -/
theorem findField?_append {rest : List String} (h : r.structAt? s hops = some t)
    (hrest : rest ≠ []) : r.findField? s (hops ++ rest) = r.findField? t rest := by
  rw [findField?_append_eq_bind hrest, h, Option.bind_some]

/-- `structAt?` leads by the hops of a path to a field to the struct that the field
refers to. -/
theorem structAt?_eq_of_findField? {f : Field} (h : r.findField? s hops = some f) :
    r.structAt? s hops = f.target?.bind r.find? := by
  induction hops generalizing s with
  | nil => cases h
  | cons hop rest ih =>
      by_cases hrest : rest = []
      · subst hrest
        have hfield : s.field? hop = some f := h
        rw [structAt?, hop?, Struct.target?, hfield, Option.bind_some]
        exact Option.bind_fun_some _
      · rw [findField?_cons hrest] at h
        obtain ⟨next, hnext, hf⟩ := Option.bind_eq_some_iff.mp h
        rw [structAt?, hnext, Option.bind_some, ih hf]

/-- `findField?` finds a field only by some hop. -/
theorem ne_nil_of_findField? {f : Field} (h : r.findField? s hops = some f) : hops ≠ [] := by
  rintro rfl
  cases h

/-- `getField` is the field that `findField?` finds. -/
theorem getField_eq_ok_iff {path : Path} {f : Field} :
    r.getField s path = .ok f ↔ r.findField? s path.segments = some f := by
  unfold getField
  cases r.findField? s path.segments with
  | none => simp
  | some f' => simp

/-- `Leaves` tells of one struct and one field for a hop. -/
theorem Leaves.unique {i : Nat} {t' : Struct} {hop' : String} (h : r.Leaves s hops i t hop)
    (h' : r.Leaves s hops i t' hop') : t = t' ∧ hop = hop' := by
  obtain ⟨hi, ht⟩ := h
  obtain ⟨hi', ht'⟩ := h'
  rw [hi, Option.some.injEq] at hi'
  rw [ht, Option.some.injEq] at ht'
  exact ⟨ht', hi'⟩

/-- `Leaves` holds of every hop of a path to a field, for some struct and through one of
its fields. -/
theorem exists_leaves_of_findField? {f : Field} (h : r.findField? s hops = some f) {i : Nat}
    (hi : i < hops.length) :
    ∃ t hop, r.Leaves s hops i t hop ∧ (t.field? hop).isSome := by
  induction hops generalizing s i with
  | nil => exact absurd hi (Nat.not_lt_zero i)
  | cons first rest ih =>
      -- The last hop names any field, every other one has to be a reference.
      by_cases hrest : rest = []
      · subst hrest
        obtain rfl : i = 0 := by simpa using hi
        exact ⟨s, first, by simp, Option.isSome_iff_exists.mpr ⟨f, h⟩⟩
      · rw [findField?_cons hrest] at h
        obtain ⟨next, hnext, hf⟩ := Option.bind_eq_some_iff.mp h
        cases i with
        | zero =>
            obtain ⟨target, htarget, -⟩ := Option.bind_eq_some_iff.mp hnext
            obtain ⟨field, hfield, -⟩ := Option.bind_eq_some_iff.mp htarget
            exact ⟨s, first, by simp, Option.isSome_iff_exists.mpr ⟨field, hfield⟩⟩
        | succ i =>
            obtain ⟨t, hop, hleaves, hfield⟩ := ih hf (by simpa using hi)
            exact ⟨t, hop, leaves_succ.mpr ⟨next, hnext, hleaves⟩, hfield⟩

/-! ### Paths that prove ownership -/

/-- `walk` accepts hops when they end at a field that refers to users. -/
theorem walk_eq_ok_iff :
    r.walk s hops = .ok () ↔
      ∃ f, r.findField? s hops = some f ∧ f.target? = some r.config.userStruct := by
  induction hops generalizing s with
  | nil => simp [walk, findField?]
  | cons first rest ih =>
      -- The last hop is compared with the name of users and not looked up.
      by_cases hrest : rest = []
      · subst hrest
        cases hf : s.field? first with
        | none => simp [walk, findField?, hf]
        | some f =>
            cases ht : f.target? with
            | none => simp [walk, findField?, hf, ht]
            | some target => simp [walk, findField?, hf, ht]
      · have hempty : rest.isEmpty = false := by simpa using hrest
        rw [findField?_cons hrest]
        cases hf : s.field? first with
        | none => simp [walk, hop?, Struct.target?, hf]
        | some f =>
            cases ht : f.target? with
            | none => simp [walk, hop?, Struct.target?, hf, ht]
            | some target =>
                cases hn : r.find? target with
                | none => simp [walk, hop?, Struct.target?, hf, ht, hn, hempty]
                | some next => simp [walk, hop?, Struct.target?, hf, ht, hn, hempty, ih]

/-- `checkPath` accepts a path when it has hops, not too many, and `walk` accepts these.
-/
theorem checkPath_eq_ok_iff {path : Path} :
    r.checkPath s path = .ok () ↔
      path.segments ≠ [] ∧ path.length ≤ r.config.maxPathDepth ∧
        r.walk s path.segments = .ok () := by
  unfold checkPath
  split
  · next h => simp_all [Path.isEmpty]
  · next h =>
      split
      · next hlong =>
          simp only [reduceCtorEq, false_iff]
          omega
      · next hshort =>
          have hne : path.segments ≠ [] := by simpa [Path.isEmpty] using h
          simp [hne, Nat.le_of_not_lt hshort]

/-- `validatePath` hands a path back as it is when `checkPath` accepts it. -/
theorem validatePath_eq_ok_iff {path path' : Path} :
    r.validatePath s path = .ok path' ↔ r.checkPath s path = .ok () ∧ path' = path := by
  unfold validatePath
  split
  · next h => simp [h, eq_comm]
  · next h => simp [h]

/-- `r.LeadsToUsers s path`: the path leads to a field that refers to the struct of
users. -/
def LeadsToUsers (r : Registry) (s : Struct) (path : Path) : Prop :=
  ∃ f, r.getField s path = .ok f ∧ f.target? = some r.config.userStruct

/-- `walk` accepts the hops of a path when it `LeadsToUsers`. -/
theorem walk_eq_ok_iff_leadsToUsers {path : Path} :
    r.walk s path.segments = .ok () ↔ r.LeadsToUsers s path := by
  simp only [walk_eq_ok_iff, LeadsToUsers, getField_eq_ok_iff]

/-- `LeadsToUsers` behind a path to users: what follows goes on from their struct, and
nowhere if the registry has none. -/
theorem leadsToUsers_join_iff {front rest : Path} (hfront : r.LeadsToUsers s front)
    (hrest : rest ≠ .empty) : r.LeadsToUsers s (front.join rest) ↔
      ∃ users, r.find? r.config.userStruct = some users ∧ r.LeadsToUsers users rest := by
  obtain ⟨f, hf, htarget⟩ := hfront
  have hroute := structAt?_eq_of_findField? (getField_eq_ok_iff.mp hf)
  rw [htarget, Option.bind_some] at hroute
  have hsegments : rest.segments ≠ [] := by
    intro hnil
    exact hrest (congrArg Path.mk hnil)
  simp only [LeadsToUsers, getField_eq_ok_iff, Path.join, findField?_append_eq_bind hsegments,
    hroute]
  cases r.find? r.config.userStruct with
  | none => simp
  | some users => simp

/-- Ownership is proved by the paths that the schema leads to users, and by no others.
`validatePath` accepts a path, and then as it is, exactly when it has hops, no more than
`maxPathDepth`, and leads by `getField` to a field that refers to the struct of users. A
path that `LeadsToUsers` may go on: it is then a path from their struct, so it leads
nowhere in a registry that has no such struct, although users need none to be reached.
-/
theorem validatePath_eq_ok_iff_leadsToUsers (r : Registry) (s : Struct) :
    (∀ path path', r.validatePath s path = .ok path' ↔
      path' = path ∧ 0 < path.length ∧ path.length ≤ r.config.maxPathDepth ∧
        ∃ f, r.getField s path = .ok f ∧ f.target? = some r.config.userStruct) ∧
    ∀ front rest, r.LeadsToUsers s front → rest ≠ Path.empty →
      (r.LeadsToUsers s (front.join rest) ↔
        ∃ users, r.find? r.config.userStruct = some users ∧ r.LeadsToUsers users rest) := by
  refine ⟨?_, fun front rest hfront hrest => leadsToUsers_join_iff hfront hrest⟩
  intro path path'
  have hhops : path.segments ≠ [] ↔ 0 < path.length := by
    rw [Path.length, List.length_pos_iff]
  rw [validatePath_eq_ok_iff, checkPath_eq_ok_iff, walk_eq_ok_iff_leadsToUsers, hhops, and_comm]
  rfl

/-- An order is owned by a user, and also by the manager of that user where users
are a struct of the registry. Where they are none, the order is still owned by its
user, and the path to the manager is refused. -/
theorem validatePath_eq_ok_iff_leadsToUsers_manager :
    let order : Struct := .ofFields "Order" [("owner", ⟨.reference "User", none⟩)]
    let user : Struct := .ofFields "User" [("manager", ⟨.reference "User", none⟩)]
    let registered : Registry := .ofStructs "shop" [order, user] {}
    let bare : Registry := .ofStructs "shop" [order] {}
    let owner : Path := ⟨["owner"]⟩
    let manager : Path := ⟨["manager"]⟩
    registered.validatePath order (owner.join manager) = .ok (owner.join manager) ∧
    bare.validatePath order owner = .ok owner ∧
    ∀ path, bare.validatePath order (owner.join manager) ≠ .ok path := by
  intro order user registered bare owner manager
  have husers : registered.find? "User" = some user := by
    subst registered user order
    rfl
  have hbare : bare.find? "User" = none := rfl
  have howner : ∀ r : Registry, r.config.userStruct = "User" → r.LeadsToUsers order owner :=
    fun r hr => ⟨_, rfl, hr ▸ rfl⟩
  have hmanager : registered.LeadsToUsers user manager := ⟨_, rfl, rfl⟩
  have hne : manager ≠ .empty := by decide
  obtain ⟨haccepts, hjoin⟩ := validatePath_eq_ok_iff_leadsToUsers registered order
  obtain ⟨haccepts', hjoin'⟩ := validatePath_eq_ok_iff_leadsToUsers bare order
  refine ⟨?_, ?_, fun path hpath => ?_⟩
  -- Users are registered, and the path goes on from them.
  · exact (haccepts _ _).mpr ⟨rfl, by decide, by decide,
      (hjoin owner manager (howner _ rfl) hne).mpr ⟨user, husers, hmanager⟩⟩
  -- Users need not be registered to be reached.
  · exact (haccepts' _ _).mpr ⟨rfl, by decide, by decide, howner _ rfl⟩
  -- Nothing goes on from users who are not.
  · have hleads : bare.LeadsToUsers order (owner.join manager) :=
      ((haccepts' _ _).mp hpath).2.2.2
    obtain ⟨users, hfind, -⟩ := (hjoin' owner manager (howner _ rfl) hne).mp hleads
    rw [show bare.config.userStruct = "User" from rfl, hbare] at hfind
    cases hfind

end EntityRules.Registry
