import EntityRules.Json.Basic

/-!
# `EntityRules.Proofs.Json.Members`: members by their types

A reader takes a member of an object under its name and asks for a value of one type. What
it gets is told by how a value of that type is written: `getString?` gives `s` exactly when
`get?` gives `.str s`, and nothing when it gives anything else.

* `bind_get?_eq_some_iff`, `bind_get?_eq_none_iff`: this for any type with one written form;
  texts, arrays and objects are instances.
* `getNonNull?_eq_some_iff`, `getNonNull?_eq_none_iff`: the member as it stands, if it is
  not `null`.
* `eq_getString?_iff`, `eq_getNonNull?_iff`: an answer that is compared with a member, value
  by value.
-/

set_option autoImplicit false

namespace EntityRules.Json

variable {v m : Json} {name : String}

/-! ### Values by their types -/

/-- `asString?` accepts JSON strings. -/
theorem asString?_eq_some_iff {s : String} : m.asString? = some s ↔ m = .str s := by
  cases m <;> simp [asString?]

/-- `asArray?` accepts arrays. -/
theorem asArray?_eq_some_iff {items : List Json} : m.asArray? = some items ↔ m = .arr items := by
  cases m <;> simp [asArray?]

/-- `asObject?` accepts objects. -/
theorem asObject?_eq_some_iff {members : List (String × Json)} :
    m.asObject? = some members ↔ m = .obj members := by
  cases m <;> simp [asObject?]

/-- A value is an object when `asObject?` gives its members. -/
theorem isSome_asObject?_iff : m.asObject?.isSome ↔ ∃ members, m = .obj members := by
  simp only [Option.isSome_iff_exists, asObject?_eq_some_iff]

/-- `isNull` accepts `null` only. -/
theorem isNull_iff : m.isNull = true ↔ m = .null := by
  cases m <;> simp [isNull]

/-! ### Members of one type -/

section Typed

variable {α : Type} {as? : Json → Option α} {write : α → Json}

/-- If `as?` accepts what `write` writes, a member is `a` for `as?` when it is written so. -/
theorem bind_get?_eq_some_iff (h : ∀ m a, as? m = some a ↔ m = write a) {a : α} :
    (v.get? name).bind as? = some a ↔ v.get? name = some (write a) := by
  simp only [Option.bind_eq_some_iff, h, exists_eq_right]

/-- If `as?` accepts what `write` writes, it gives nothing for a member that is written
otherwise or missing. -/
theorem bind_get?_eq_none_iff (h : ∀ m a, as? m = some a ↔ m = write a) :
    (v.get? name).bind as? = none ↔ ∀ a, v.get? name ≠ some (write a) := by
  simp only [Option.eq_none_iff_forall_ne_some, ne_eq, bind_get?_eq_some_iff h]

end Typed

theorem getString?_eq_some_iff {s : String} :
    v.getString? name = some s ↔ v.get? name = some (.str s) :=
  bind_get?_eq_some_iff fun _ _ => asString?_eq_some_iff

theorem getString?_eq_none_iff : v.getString? name = none ↔ ∀ s, v.get? name ≠ some (.str s) :=
  bind_get?_eq_none_iff fun _ _ => asString?_eq_some_iff

theorem getArray?_eq_some_iff {items : List Json} :
    v.getArray? name = some items ↔ v.get? name = some (.arr items) :=
  bind_get?_eq_some_iff fun _ _ => asArray?_eq_some_iff

theorem getArray?_eq_none_iff :
    v.getArray? name = none ↔ ∀ items, v.get? name ≠ some (.arr items) :=
  bind_get?_eq_none_iff fun _ _ => asArray?_eq_some_iff

theorem getObject?_eq_some_iff {members : List (String × Json)} :
    (v.get? name).bind asObject? = some members ↔ v.get? name = some (.obj members) :=
  bind_get?_eq_some_iff fun _ _ => asObject?_eq_some_iff

theorem getObject?_eq_none_iff :
    (v.get? name).bind asObject? = none ↔ ∀ members, v.get? name ≠ some (.obj members) :=
  bind_get?_eq_none_iff fun _ _ => asObject?_eq_some_iff

/-- `getArray?` passes over a member with another name. -/
theorem getArray?_cons_of_ne {other : String} (h : name ≠ other) (v : Json)
    (members : List (String × Json)) :
    (obj ((name, v) :: members)).getArray? other = (obj members).getArray? other := by
  rw [getArray?, getArray?, get?, get?, Table.lookup_cons_eq_if, if_neg (Ne.symm h)]

/-! ### Members other than `null` -/

/-- `getNonNull?` gives the member as it stands, unless it is `null`. -/
theorem getNonNull?_eq_some_iff :
    v.getNonNull? name = some m ↔ v.get? name = some m ∧ m ≠ .null := by
  rw [getNonNull?, Option.bind_eq_some_iff]
  constructor
  · rintro ⟨m', hm', hkept⟩
    split at hkept
    · cases hkept
    · next hnull =>
        cases hkept
        exact ⟨hm', fun h => hnull (isNull_iff.mpr h)⟩
  · rintro ⟨hm, hnull⟩
    exact ⟨m, hm, if_neg fun h => hnull (isNull_iff.mp h)⟩

/-- `getNonNull?` gives nothing for a member that is missing or `null`. -/
theorem getNonNull?_eq_none_iff :
    v.getNonNull? name = none ↔ v.get? name = none ∨ v.get? name = some .null := by
  cases hm : v.get? name with
  | none => simp [getNonNull?, hm]
  | some m => simp [getNonNull?, hm, isNull_iff]

/-! ### Answers beside members -/

/-- `answer` is what `getString?` gives when both have the same texts. -/
theorem eq_getString?_iff {answer : Option String} :
    answer = v.getString? name ↔ ∀ s, answer = some s ↔ v.get? name = some (.str s) := by
  rw [Option.ext_iff]
  simp only [getString?_eq_some_iff]

/-- `answer` is what `getNonNull?` gives when both have the same values. -/
theorem eq_getNonNull?_iff {answer : Option Json} :
    answer = v.getNonNull? name ↔ ∀ m, answer = some m ↔ v.get? name = some m ∧ m ≠ .null := by
  rw [Option.ext_iff]
  simp only [getNonNull?_eq_some_iff]

end EntityRules.Json
