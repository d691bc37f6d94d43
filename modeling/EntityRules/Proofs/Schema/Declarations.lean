import EntityRules.Bundle
import EntityRules.Proofs.FirstFault
import EntityRules.Proofs.Json.Members

/-!
# `EntityRules.Proofs.Schema.Declarations`: which JSON values declare structs

A declaration is read by a walk that stops at the first member that is missing or of the
wrong type. The same can be said of the value as it stands: `Json.IsStructDecl` is the shape
that is asked for, `StructDecl.KeptFrom` what is kept of a value of that shape, and
`StructDecl.Malformed` which fault a value of another shape has.

* `StructDecl.readField_eq_ok_iff`, `StructDecl.readUnique_eq_ok_iff`,
  `StructDecl.readLocation?_eq_some_iff`: the parts of a declaration, one after the other.
* `StructDecl.ofJson_eq_ok_iff`: from there the whole declaration.
* `StructDecl.ofJson_eq_error_iff`: the fault is that of the first part in order which has
  one.

Each reader has one lemma for what it accepts and one for what it refuses. A list of parts
is read by `mapM`, so its lemmas come from those of one part (`mapM_eq_ok_iff`,
`mapM_eq_error_iff`).
-/

set_option autoImplicit false

namespace EntityRules

open Proofs

/-! ### The shape of a declaration -/

namespace Json

/-- `v.IsField`: the declaration of a field names its type, and a reference names the
struct that it leads to. -/
structure IsField (v : Json) : Prop where
  type : ∃ type, v.get? "type" = some (.str type)
  target : v.get? "type" = some (.str "other") → ∃ target, v.get? "struct" = some (.str target)

/-- `c.IsStructDecl`: the declaration of a struct has an id, fields, and uniqueness
groups if any. -/
structure IsStructDecl (c : Json) : Prop where
  id : ∃ id, c.get? "id" = some (.str id)
  fields : ∃ members, c.get? "fields" = some (.obj members) ∧ ∀ m ∈ members, m.2.IsField
  unique : c.get? "unique" = none ∨ c.get? "unique" = some .null ∨
    ∃ groups : List (List String), c.get? "unique" = some (.arr (groups.map ofStrings))

end Json

/-! ### What is kept -/

/-- `f.KeptFrom v`: of the declaration `v` the field `f` keeps the type, the target and
a default other than `null`. -/
structure FieldDecl.KeptFrom (v : Json) (f : FieldDecl) : Prop where
  type : v.get? "type" = some (.str f.type)
  target : ∀ target, f.target = some target ↔ v.get? "struct" = some (.str target)
  default : ∀ value, f.default = some value ↔ v.get? "default" = some value ∧ value ≠ .null

/-- `d.KeptFrom c`: of the construct `c` the declaration `d` keeps the id, every field
under its name, every uniqueness group, the tables other than `null` as they are, and
where it was written, if the file is a text and the line a whole number of 64 bits
without a sign. -/
structure StructDecl.KeptFrom (c : Json) (d : StructDecl) : Prop where
  id : c.get? "id" = some (.str d.id)
  fields : ∃ members, c.get? "fields" = some (.obj members) ∧
    List.Forall₂ (fun m f => f.1 = m.1 ∧ FieldDecl.KeptFrom m.2 f.2) members d.fields
  unique : d.unique = [] ∧ (c.get? "unique" = none ∨ c.get? "unique" = some .null) ∨
    c.get? "unique" = some (.arr (d.unique.map Json.ofStrings))
  permissions : ∀ table, d.permissions = some table ↔
    c.get? "permissions" = some table ∧ table ≠ .null
  effects : ∀ table, d.effects = some table ↔ c.get? "effects" = some table ∧ table ≠ .null
  checks : ∀ table, d.checks = some table ↔ c.get? "checks" = some table ∧ table ≠ .null
  location : ∀ place, d.location = some place ↔ ∃ p, c.get? "provenance" = some p ∧
    p.get? "file" = some (.str place.file) ∧ p.get? "line" = some (.int place.line) ∧
      place.line < 2 ^ 64

/-! ### Faults of shape -/

/-- `Malformed id name v e`: the declaration `v` of the field `name` has the fault `e`.
-/
inductive FieldDecl.Malformed (id name : String) (v : Json) : BundleError → Prop
  | noType (missing : ∀ type, v.get? "type" ≠ some (.str type)) :
      Malformed id name v (.fieldWithoutType id name)
  | noTarget (reference : v.get? "type" = some (.str "other"))
      (missing : ∀ target, v.get? "struct" ≠ some (.str target)) :
      Malformed id name v (.fieldWithoutTarget id name)

/-- `MalformedGroups id groups e`: the uniqueness groups have the fault `e`, because
they are no array, or because the first group that is no array of texts is no array or
has a first member that is no text. -/
inductive StructDecl.MalformedGroups (id : String) : Json → BundleError → Prop
  | notAnArray {groups : Json} (nonNull : groups ≠ .null) (other : ∀ items, groups ≠ .arr items) :
      MalformedGroups id groups (.uniqueNotAnArray id)
  | group {before : List (List String)} {group : Json} {after : List Json}
      (other : ∀ items, group ≠ .arr items) :
      MalformedGroups id (.arr (before.map .ofStrings ++ group :: after)) (.groupNotAnArray id)
  | member {before : List (List String)} {names : List String} {member : Json}
      {rest after : List Json} (other : ∀ text, member ≠ .str text) :
      MalformedGroups id
        (.arr (before.map .ofStrings ++ .arr (names.map .str ++ member :: rest) :: after))
        (.memberNotText id)

/-- `Malformed c e`: the declaration of a struct has the fault `e`, of its id, else of
its fields, and among them of the first that has one, else of its uniqueness groups. -/
inductive StructDecl.Malformed (c : Json) : BundleError → Prop
  | noId (missing : ∀ id, c.get? "id" ≠ some (.str id)) : Malformed c .structWithoutId
  | noFields {id : String} (named : c.get? "id" = some (.str id))
      (missing : ∀ members, c.get? "fields" ≠ some (.obj members)) :
      Malformed c (.structWithoutFields id)
  | field {id name : String} {before after : List (String × Json)} {v : Json} {e : BundleError}
      (named : c.get? "id" = some (.str id))
      (fields : c.get? "fields" = some (.obj (before ++ (name, v) :: after)))
      (first : ∀ m ∈ before, m.2.IsField) (fault : FieldDecl.Malformed id name v e) : Malformed c e
  | unique {id : String} {members : List (String × Json)} {groups : Json} {e : BundleError}
      (named : c.get? "id" = some (.str id)) (fields : c.get? "fields" = some (.obj members))
      (shaped : ∀ m ∈ members, m.2.IsField) (unique : c.get? "unique" = some groups)
      (fault : MalformedGroups id groups e) : Malformed c e

/-! ### Reading the parts of a declaration -/

namespace StructDecl

variable {id name : String} {c v : Json} {e : BundleError}

/-- `readField` reads a field when it `IsField`, and then as what is `KeptFrom` it. -/
theorem readField_eq_ok_iff {f : FieldDecl} :
    readField id name v = .ok f ↔ v.IsField ∧ f.KeptFrom v := by
  have hshape : v.IsField ↔ (∃ type, v.getString? "type" = some type) ∧
      (v.getString? "type" = some "other" → ∃ target, v.getString? "struct" = some target) := by
    simp only [Json.getString?_eq_some_iff]
    exact ⟨fun h => ⟨h.type, h.target⟩, fun h => ⟨h.1, h.2⟩⟩
  have hkept : f.KeptFrom v ↔ v.getString? "type" = some f.type ∧
      f.target = v.getString? "struct" ∧ f.default = v.getNonNull? "default" := by
    rw [Json.getString?_eq_some_iff, Json.eq_getString?_iff, Json.eq_getNonNull?_iff]
    exact ⟨fun h => ⟨h.type, h.target, h.default⟩, fun h => ⟨h.1, h.2.1, h.2.2⟩⟩
  rw [hshape, hkept, readField]
  obtain ⟨type, target, default⟩ := f
  cases v.getString? "type" with
  | none => simp
  | some type' =>
      cases v.getString? "struct" with
      | none =>
          by_cases hother : type' = "other"
          · simp [hother]
          · simp [hother, eq_comm]
      | some target' => simp [eq_comm]

/-- `readField` fails with the fault by which the field is `Malformed`. -/
theorem readField_eq_error_iff :
    readField id name v = .error e ↔ FieldDecl.Malformed id name v e := by
  constructor
  · intro h
    rw [readField] at h
    split at h
    · next htype =>
        cases h
        exact .noType (Json.getString?_eq_none_iff.mp htype)
    · next type htype =>
        simp only at h
        split at h
        · next hfault =>
            cases h
            obtain ⟨rfl, htarget⟩ := hfault
            rw [Option.isNone_iff_eq_none] at htarget
            exact .noTarget (Json.getString?_eq_some_iff.mp htype)
              (Json.getString?_eq_none_iff.mp htarget)
        · cases h
  · intro h
    cases h with
    | noType missing => simp [readField, Json.getString?_eq_none_iff.mpr missing]
    | noTarget reference missing =>
        simp [readField, Json.getString?_eq_some_iff.mpr reference,
          Json.getString?_eq_none_iff.mpr missing]

/-- `readField` reads exactly what `IsField`. -/
theorem readField_succeeds_iff : (∃ f, readField id name v = .ok f) ↔ v.IsField := by
  constructor
  · rintro ⟨f, hf⟩
    exact (readField_eq_ok_iff.mp hf).1
  · intro h
    by_contra hnot
    obtain ⟨e, he⟩ := except_fails_iff.mpr hnot
    cases readField_eq_error_iff.mp he with
    | noType missing =>
        obtain ⟨type, htype⟩ := h.type
        exact missing type htype
    | noTarget reference missing =>
        obtain ⟨target, htarget⟩ := h.target reference
        exact missing target htarget

/-- `readFields` reads fields one by one, each under its name. -/
theorem readFields_eq_mapM (members : List (String × Json)) :
    readFields id members =
      members.mapM fun m => (readField id m.1 m.2).map fun f => (m.1, f) := by
  induction members with
  | nil => rfl
  | cons m rest ih =>
      rw [readFields, List.mapM_cons, ih]
      cases readField id m.1 m.2 with
      | error fault => rfl
      | ok f => rfl

/-- `readFields` reads fields when each `IsField`. -/
theorem readFields_eq_ok_iff {members : List (String × Json)} {fields : List (String × FieldDecl)} :
    readFields id members = .ok fields ↔ (∀ m ∈ members, m.2.IsField) ∧
      List.Forall₂ (fun m f => f.1 = m.1 ∧ FieldDecl.KeptFrom m.2 f.2) members fields := by
  have hstep : ∀ (m : String × Json) (f : String × FieldDecl),
      (readField id m.1 m.2).map (fun f => (m.1, f)) = .ok f ↔
        m.2.IsField ∧ f.1 = m.1 ∧ FieldDecl.KeptFrom m.2 f.2 := by
    rintro m ⟨name, f⟩
    simp only [except_map_eq_ok, readField_eq_ok_iff, Prod.mk.injEq]
    constructor
    · rintro ⟨f', hf', rfl, rfl⟩
      exact ⟨hf'.1, rfl, hf'.2⟩
    · rintro ⟨hshape, rfl, hkept⟩
      exact ⟨f, ⟨hshape, hkept⟩, rfl, rfl⟩
  rw [readFields_eq_mapM, mapM_eq_ok_iff]
  simp only [hstep]
  rw [List.forall₂_and_left]

/-- `readFields` has a result for members each of which `IsField`. -/
theorem exists_readFields (id : String) {members : List (String × Json)}
    (h : ∀ m ∈ members, m.2.IsField) : ∃ fields, readFields id members = .ok fields := by
  rw [readFields_eq_mapM]
  refine mapM_succeeds fun m hm => ?_
  obtain ⟨f, hf⟩ := readField_succeeds_iff.mpr (h m hm)
  exact ⟨_, except_map_eq_ok.mpr ⟨f, hf, rfl⟩⟩

/-- `readFields` fails for the first field that is `Malformed`. -/
theorem readFields_eq_error_iff {members : List (String × Json)} :
    readFields id members = .error e ↔
      ∃ before name v after, members = before ++ (name, v) :: after ∧
        (∀ m ∈ before, m.2.IsField) ∧ FieldDecl.Malformed id name v e := by
  have hstep : ∀ m : String × Json,
      (∃ f, (readField id m.1 m.2).map (fun f => (m.1, f)) = .ok f) ↔ m.2.IsField := by
    intro m
    have hread : (∃ f, readField id m.1 m.2 = .ok f) ↔ m.2.IsField := readField_succeeds_iff
    rw [← hread]
    simp only [except_map_eq_ok]
    exact ⟨fun ⟨_, f, hf, _⟩ => ⟨f, hf⟩, fun ⟨f, hf⟩ => ⟨_, f, hf, rfl⟩⟩
  rw [readFields_eq_mapM, mapM_eq_error_iff]
  simp only [hstep, except_map_eq_error, readField_eq_error_iff, Prod.exists]

/-- `readMember` reads a member when it is a text, and then as that. -/
theorem readMember_eq_ok_iff (m : Json) (name : String) :
    readMember id m = .ok name ↔ m = .str name := by
  cases m <;> simp [readMember, Json.asString?]

/-- `readGroup` reads a group when it is an array of texts, and then as these. -/
theorem readGroup_eq_ok_iff (v : Json) (names : List String) :
    readGroup id v = .ok names ↔ v = .ofStrings names := by
  unfold readGroup
  cases hitems : v.asArray? with
  | none =>
      simp only [reduceCtorEq, false_iff]
      rintro rfl
      cases hitems
  | some items =>
      obtain rfl := Json.asArray?_eq_some_iff.mp hitems
      show items.mapM (readMember id) = .ok names ↔ _
      rw [mapM_eq_ok_iff_eq_map readMember_eq_ok_iff, Json.ofStrings, Json.arr.injEq]

/-- `readGroup` fails for what is no array, or for the first member that is no text. -/
theorem readGroup_eq_error_iff : readGroup id v = .error e ↔
    ((∀ items, v ≠ .arr items) ∧ e = .groupNotAnArray id) ∨
      ∃ (names : List String) (m : Json) (rest : List Json),
        v = .arr (names.map .str ++ m :: rest) ∧ (∀ text, m ≠ .str text) ∧
          e = .memberNotText id := by
  have hmember : ∀ m : Json, readMember id m = .error e ↔
      (∀ text, m ≠ .str text) ∧ e = .memberNotText id := by
    intro m
    cases m <;> simp [readMember, Json.asString?, eq_comm]
  unfold readGroup
  cases hitems : v.asArray? with
  | none =>
      have hother : ∀ items, v ≠ .arr items := by
        rintro items rfl
        cases hitems
      simp [hother, eq_comm]
  | some items =>
      obtain rfl := Json.asArray?_eq_some_iff.mp hitems
      show items.mapM (readMember id) = .error e ↔ _
      simp [mapM_eq_error_iff_append_map readMember_eq_ok_iff, hmember]

/-- `readUnique` reads groups when there are none or all of them are arrays of texts. -/
theorem readUnique_eq_ok_iff {groups : List (List String)} : readUnique id v = .ok groups ↔
    groups = [] ∧ (v.get? "unique" = none ∨ v.get? "unique" = some .null) ∨
      v.get? "unique" = some (.arr (groups.map .ofStrings)) := by
  rw [← Json.getNonNull?_eq_none_iff, readUnique]
  -- An array is not `null`, so it does not matter that this is read as none.
  have hkept : v.get? "unique" = some (.arr (groups.map .ofStrings)) ↔
      v.getNonNull? "unique" = some (.arr (groups.map .ofStrings)) := by
    simp [Json.getNonNull?_eq_some_iff]
  rw [hkept]
  cases v.getNonNull? "unique" with
  | none => simp [eq_comm]
  | some table =>
      cases htable : table.asArray? with
      | none =>
          have hother : table ≠ .arr (groups.map .ofStrings) := by
            rintro rfl
            cases htable
          simp [htable, hother]
      | some items =>
          obtain rfl := Json.asArray?_eq_some_iff.mp htable
          simp [htable, mapM_eq_ok_iff_eq_map readGroup_eq_ok_iff]

/-- `readGroup` fails on an array of groups for the first fault, by which they are
`MalformedGroups`. -/
theorem mapM_readGroup_eq_error_iff {items : List Json} :
    items.mapM (readGroup id) = .error e ↔ MalformedGroups id (.arr items) e := by
  simp only [mapM_eq_error_iff_append_map readGroup_eq_ok_iff, readGroup_eq_error_iff]
  constructor
  · rintro ⟨before, group, after, rfl, ⟨other, rfl⟩ | ⟨names, m, rest, rfl, other, rfl⟩⟩
    · exact .group other
    · exact .member other
  · intro hfault
    generalize hgroups : Json.arr items = groups at hfault
    cases hfault with
    | notAnArray nonNull other => exact absurd hgroups.symm (other items)
    | group other =>
        cases hgroups
        exact ⟨_, _, _, rfl, .inl ⟨other, rfl⟩⟩
    | member other =>
        cases hgroups
        exact ⟨_, _, _, rfl, .inr ⟨_, _, _, rfl, other, rfl⟩⟩

/-- `readUnique` fails with the fault by which the groups are `MalformedGroups`. -/
theorem readUnique_eq_error_iff : readUnique id v = .error e ↔
    ∃ groups, v.get? "unique" = some groups ∧ MalformedGroups id groups e := by
  rw [readUnique]
  cases hunique : v.getNonNull? "unique" with
  -- No groups, or `null` for them, have no fault.
  | none =>
      simp only [reduceCtorEq, false_iff, not_exists, not_and]
      intro groups hgroups hfault
      rcases Json.getNonNull?_eq_none_iff.mp hunique with hnone | hnull
      · rw [hnone] at hgroups
        cases hgroups
      · rw [hnull] at hgroups
        cases hgroups
        cases hfault with
        | notAnArray nonNull other => exact nonNull rfl
  -- Anything else has to be an array, and then its groups decide.
  | some table =>
      obtain ⟨htable, hnonNull⟩ := Json.getNonNull?_eq_some_iff.mp hunique
      simp only [htable, Option.some.injEq, exists_eq_left']
      cases hitems : table.asArray? with
      | none =>
          have hother : ∀ items, table ≠ .arr items := by
            rintro items rfl
            cases hitems
          simp only [Except.error.injEq]
          constructor
          · rintro rfl
            exact .notAnArray hnonNull hother
          · intro hfault
            cases hfault with
            | notAnArray nonNull other => rfl
            | group other => exact absurd rfl (hother _)
            | member other => exact absurd rfl (hother _)
      | some items =>
          obtain rfl := Json.asArray?_eq_some_iff.mp hitems
          exact mapM_readGroup_eq_error_iff

/-- `readLocation?` is where a construct says that it was written, if it says so in
full. -/
theorem readLocation?_eq_some_iff {place : SourceLocation} : readLocation? c = some place ↔
    ∃ p, c.get? "provenance" = some p ∧ p.get? "file" = some (.str place.file) ∧
      p.get? "line" = some (.int place.line) ∧ place.line < 2 ^ 64 := by
  -- A line is an integer that fits into 64 bits without a sign.
  have hline : ∀ (m : Json) (line : Nat),
      m.asUnsigned? = some line ↔ m = .int line ∧ line < 2 ^ 64 := by
    intro m line
    cases m with
    | int n =>
        simp only [Json.asUnsigned?, Option.ite_none_right_eq_some, Option.some.injEq,
          Json.int.injEq]
        omega
    | _ => simp [Json.asUnsigned?]
  obtain ⟨file, line⟩ := place
  simp only [readLocation?, Option.bind_eq_bind, Option.bind_eq_some_iff, Option.pure_def,
    Json.getString?_eq_some_iff, hline, Option.some.injEq, SourceLocation.mk.injEq]
  constructor
  · rintro ⟨p, hp, file, hfile, line, ⟨m, hm, rfl, hlt⟩, rfl, rfl⟩
    exact ⟨p, hp, hfile, hm, hlt⟩
  · rintro ⟨p, hp, hfile, hm, hlt⟩
    exact ⟨p, hp, file, hfile, line, ⟨_, hm, rfl, hlt⟩, rfl, rfl⟩

/-! ### Reading a declaration -/

/-- `ofJson` reads a declaration when its id, its fields and its groups are read. -/
theorem ofJson_eq_ok_iff_read {d : StructDecl} : ofJson c = .ok d ↔
    c.get? "id" = some (.str d.id) ∧
      (∃ members, c.get? "fields" = some (.obj members) ∧
        readFields d.id members = .ok d.fields) ∧
      readUnique d.id c = .ok d.unique ∧
      d.permissions = c.getNonNull? "permissions" ∧ d.effects = c.getNonNull? "effects" ∧
      d.checks = c.getNonNull? "checks" ∧ d.location = readLocation? c := by
  obtain ⟨id, fields, unique, permissions, effects, checks, location⟩ := d
  rw [ofJson, ← Json.getString?_eq_some_iff]
  simp only [← Json.getObject?_eq_some_iff]
  cases c.getString? "id" with
  | none => simp
  | some id' =>
      cases (c.get? "fields").bind Json.asObject? with
      | none => simp
      | some members =>
          simp only [except_bind_eq_ok, except_pure, Except.ok.injEq, mk.injEq, Option.some.injEq,
            exists_eq_left']
          constructor
          · rintro ⟨fields', hfields, unique', hunique, rfl, rfl, rfl, rfl, rfl, rfl, rfl⟩
            exact ⟨rfl, hfields, hunique, rfl, rfl, rfl, rfl⟩
          · rintro ⟨rfl, hfields, hunique, rfl, rfl, rfl, rfl⟩
            exact ⟨fields, hfields, unique, hunique, rfl, rfl, rfl, rfl, rfl, rfl, rfl⟩

/-- `ofJson` reads a declaration when it `IsStructDecl`, and then as what is `KeptFrom`
it. -/
theorem ofJson_eq_ok_iff {d : StructDecl} : ofJson c = .ok d ↔ c.IsStructDecl ∧ d.KeptFrom c := by
  have hlocation : d.location = readLocation? c ↔ ∀ place, d.location = some place ↔
      ∃ p, c.get? "provenance" = some p ∧ p.get? "file" = some (.str place.file) ∧
        p.get? "line" = some (.int place.line) ∧ place.line < 2 ^ 64 := by
    rw [Option.ext_iff]
    simp only [readLocation?_eq_some_iff]
  -- Every reader of a part accepts what has the shape of the part, and keeps it.
  simp only [ofJson_eq_ok_iff_read, readFields_eq_ok_iff, readUnique_eq_ok_iff,
    Json.eq_getNonNull?_iff, hlocation]
  constructor
  · rintro ⟨hid, ⟨members, hmembers, hshapes, hfields⟩, hunique, hpermissions, heffects, hchecks,
      hlocation⟩
    refine ⟨⟨⟨_, hid⟩, ⟨members, hmembers, hshapes⟩, ?_⟩, ⟨hid, ⟨members, hmembers, hfields⟩,
      hunique, hpermissions, heffects, hchecks, hlocation⟩⟩
    rcases hunique with ⟨-, hnone | hnull⟩ | hgroups
    · exact .inl hnone
    · exact .inr (.inl hnull)
    · exact .inr (.inr ⟨_, hgroups⟩)
  · rintro ⟨hshape, hkept⟩
    obtain ⟨members, hmembers, hfields⟩ := hkept.fields
    obtain ⟨members', hmembers', hshapes⟩ := hshape.fields
    obtain rfl : members = members' := by
      rw [hmembers] at hmembers'
      cases hmembers'
      rfl
    exact ⟨hkept.id, ⟨members, hmembers, hshapes, hfields⟩, hkept.unique, hkept.permissions,
      hkept.effects, hkept.checks, hkept.location⟩

/-- `ofJson` refuses a declaration for its id, or else for its fields, or else for its
groups. -/
theorem ofJson_eq_error_iff_read : ofJson c = .error e ↔
    (c.getString? "id" = none ∧ e = .structWithoutId) ∨
      ∃ id, c.getString? "id" = some id ∧
        (((c.get? "fields").bind Json.asObject? = none ∧ e = .structWithoutFields id) ∨
          ∃ members, (c.get? "fields").bind Json.asObject? = some members ∧
            (readFields id members = .error e ∨
              (∃ fields, readFields id members = .ok fields) ∧ readUnique id c = .error e)) := by
  rw [ofJson]
  cases c.getString? "id" with
  | none => simp [eq_comm]
  | some id =>
      cases (c.get? "fields").bind Json.asObject? with
      | none => simp [eq_comm]
      | some members => simp [except_bind_eq_error]

/-- `ofJson` fails with the fault by which the declaration is `Malformed`. -/
theorem ofJson_eq_error_iff : ofJson c = .error e ↔ Malformed c e := by
  -- The parts are refused in the order in which the faults are tried.
  simp only [ofJson_eq_error_iff_read, Json.getString?_eq_none_iff, Json.getString?_eq_some_iff,
    Json.getObject?_eq_none_iff, Json.getObject?_eq_some_iff, readFields_eq_error_iff,
    readUnique_eq_error_iff]
  constructor
  · rintro (⟨missing, rfl⟩ | ⟨id, named, ⟨missing, rfl⟩ | ⟨members, fields,
      ⟨before, name, v, after, rfl, first, fault⟩ | ⟨⟨results, hread⟩, groups, unique, fault⟩⟩⟩)
    · exact .noId missing
    · exact .noFields named missing
    · exact .field named fields first fault
    · exact .unique named fields (readFields_eq_ok_iff.mp hread).1 unique fault
  · intro h
    cases h with
    | noId missing => exact .inl ⟨missing, rfl⟩
    | noFields named missing => exact .inr ⟨_, named, .inl ⟨missing, rfl⟩⟩
    | field named fields first fault =>
        exact .inr ⟨_, named, .inr ⟨_, fields, .inl ⟨_, _, _, _, rfl, first, fault⟩⟩⟩
    | unique named fields shaped unique fault =>
        exact .inr ⟨_, named, .inr ⟨_, fields, .inr ⟨exists_readFields _ shaped, _, unique, fault⟩⟩⟩

/-- `ofJson` reads exactly what `IsStructDecl`. -/
theorem ofJson_succeeds_iff : (∃ d, ofJson c = .ok d) ↔ c.IsStructDecl := by
  constructor
  · rintro ⟨d, hd⟩
    exact (ofJson_eq_ok_iff.mp hd).1
  · intro h
    obtain ⟨id, hid⟩ := h.id
    obtain ⟨members, hmembers, hshapes⟩ := h.fields
    obtain ⟨fields, hfields⟩ := exists_readFields id hshapes
    obtain ⟨groups, hgroups⟩ : ∃ groups, readUnique id c = .ok groups := by
      rcases h.unique with hnone | hnull | ⟨groups, hgroups⟩
      · exact ⟨[], readUnique_eq_ok_iff.mpr (.inl ⟨rfl, .inl hnone⟩)⟩
      · exact ⟨[], readUnique_eq_ok_iff.mpr (.inl ⟨rfl, .inr hnull⟩)⟩
      · exact ⟨groups, readUnique_eq_ok_iff.mpr (.inr hgroups)⟩
    exact ⟨⟨id, fields, groups, _, _, _, _⟩, ofJson_eq_ok_iff_read.mpr
      ⟨hid, ⟨members, hmembers, hfields⟩, hgroups, rfl, rfl, rfl, rfl⟩⟩

end StructDecl

end EntityRules
