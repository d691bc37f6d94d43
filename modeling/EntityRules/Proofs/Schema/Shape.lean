import EntityRules.Proofs.Schema.Arrangement
import EntityRules.Proofs.Schema.Declarations

/-!
# `EntityRules.Proofs.Schema.Shape`: which JSON values are bundles

A bundle is read by a walk over its constructs that stops at the first which is malformed.
The same can be said of the value as it stands: `Json.IsBundle` is the shape that is asked
for, `Bundle.KeptFrom` what is kept of a value of that shape, and `Bundle.Malformed` which
fault a value of another shape has.

* `Bundle.readConstruct_eq_error_iff`, `Bundle.readConstructs_eq_error_iff`: the fault is
  that of the first construct in order which has one.
* `Bundle.ofJson_congr_others`: objects of another kind are passed over, whatever they
  hold. All that they do is to move the constructs behind them on by one place.
* `Bundle.reads_the_shape`: from there the law of the whole bundle.

A fault is told by the place of what has it and by the parts before it, which have none.
So the induction is on the list of constructs, with the place of the first one left open.
-/

set_option autoImplicit false

namespace EntityRules

open Proofs

/-! ### The shape of a bundle -/

namespace Json

/-- `c.IsConstruct`: the construct is an object, and if it is of the kind of structs it
`IsStructDecl`. -/
structure IsConstruct (c : Json) : Prop where
  object : ∃ members, c = .obj members
  declaration : c.get? "kind" = some (.str "Struct") → c.IsStructDecl

/-- `v.IsBundle`: the bundle has an id and an array of constructs. -/
structure IsBundle (v : Json) : Prop where
  id : ∃ id, v.get? "id" = some (.str id)
  constructs : ∃ constructs, v.get? "constructs" = some (.arr constructs) ∧
    ∀ c ∈ constructs, c.IsConstruct

end Json

/-! ### What is kept -/

/-- `b.KeptFrom v`: of the value `v` the bundle keeps the id, the version if there is
one, and the declarations of structs, each once and in their order. -/
structure Bundle.KeptFrom (v : Json) (b : Bundle) : Prop where
  id : v.get? "id" = some (.str b.id)
  version : v.get? "graft" = some (.str b.version) ∨
    b.version = "" ∧ ∀ version, v.get? "graft" ≠ some (.str version)
  structs : ∃ constructs, v.get? "constructs" = some (.arr constructs) ∧
    List.Forall₂ StructDecl.KeptFrom (constructs.filter Json.isStruct) b.structs

/-! ### Faults of shape -/

/-- `MalformedAt index c e`: the construct at this place has the fault `e`, because it
is no object, or because it should declare a struct and does not. -/
inductive Bundle.MalformedAt (index : Nat) (c : Json) : BundleError → Prop
  | notAnObject (other : ∀ members, c ≠ .obj members) : MalformedAt index c (.notAnObject index)
  | declaration {e : BundleError} (kind : c.get? "kind" = some (.str "Struct"))
      (fault : StructDecl.Malformed c e) : MalformedAt index c e

/-- `Malformed v e`: the bundle has the fault `e`, of its id, else of its constructs,
and among them of the first in their order that has one. -/
inductive Bundle.Malformed (v : Json) : BundleError → Prop
  | noId (missing : ∀ id, v.get? "id" ≠ some (.str id)) : Malformed v (.missingMember "id")
  | noConstructs {id : String} (named : v.get? "id" = some (.str id))
      (missing : ∀ constructs, v.get? "constructs" ≠ some (.arr constructs)) :
      Malformed v (.missingMember "constructs")
  | construct {id : String} {before after : List Json} {c : Json} {e : BundleError}
      (named : v.get? "id" = some (.str id))
      (constructs : v.get? "constructs" = some (.arr (before ++ c :: after)))
      (first : ∀ c ∈ before, c.IsConstruct) (fault : MalformedAt before.length c e) :
      Malformed v e

/-! ### Reading the constructs -/

namespace Bundle

variable {index : Nat} {c v : Json} {constructs : List Json} {e : BundleError}

/-- `isStruct` holds of a construct of this kind. -/
theorem isStruct_iff : c.isStruct = true ↔ c.get? "kind" = some (.str "Struct") := by
  rw [Json.isStruct, decide_eq_true_iff, Json.getString?_eq_some_iff]

/-- `isStruct` holds of objects only, as nothing else has a kind. -/
theorem exists_obj_of_isStruct (h : c.isStruct = true) : ∃ members, c = .obj members := by
  rw [isStruct_iff] at h
  cases c with
  | obj members => exact ⟨members, rfl⟩
  | _ => cases h

/-- `readConstruct` passes over an object of another kind, and reads one that declares a
struct as that. -/
theorem readConstruct_obj {members : List (String × Json)} (hobject : c = .obj members) :
    readConstruct index c = if c.isStruct then (StructDecl.ofJson c).map some else .ok none := by
  subst hobject
  rw [readConstruct, Json.asObject?, Json.isStruct]
  simp only [decide_eq_true_iff]

/-- `readConstruct` fails with the fault that the construct has by `MalformedAt`. -/
theorem readConstruct_eq_error_iff : readConstruct index c = .error e ↔ MalformedAt index c e := by
  by_cases hobject : ∃ members, c = .obj members
  · obtain ⟨members, hobject⟩ := hobject
    rw [readConstruct_obj hobject]
    split
    -- A declaration has the fault of its own shape.
    · next hstruct =>
        rw [except_map_eq_error, StructDecl.ofJson_eq_error_iff]
        constructor
        · exact .declaration (isStruct_iff.mp hstruct)
        · intro h
          cases h with
          | notAnObject other => exact absurd hobject (other members)
          | declaration _ fault => exact fault
    -- An object of another kind has no fault.
    · next hother =>
        simp only [reduceCtorEq, false_iff]
        intro h
        cases h with
        | notAnObject other => exact other members hobject
        | declaration kind _ => exact hother (isStruct_iff.mpr kind)
  -- What is no object has this for its fault.
  · have hnone : c.asObject? = none := by
      rw [← Option.not_isSome_iff_eq_none, Json.isSome_asObject?_iff]
      exact hobject
    rw [readConstruct, hnone, Except.error.injEq]
    constructor
    · rintro rfl
      exact .notAnObject fun members h => hobject ⟨members, h⟩
    · intro h
      cases h with
      | notAnObject other => rfl
      | declaration kind _ => exact absurd (exists_obj_of_isStruct (isStruct_iff.mpr kind)) hobject

/-- `readConstruct` reads exactly what `IsConstruct`. -/
theorem readConstruct_succeeds_iff :
    (∃ found, readConstruct index c = .ok found) ↔ c.IsConstruct := by
  -- What is not read has a fault, and the faults are known.
  rw [← not_iff_not, ← except_fails_iff]
  simp only [readConstruct_eq_error_iff]
  constructor
  · rintro ⟨e, he⟩ h
    cases he with
    | notAnObject other =>
        obtain ⟨members, hobject⟩ := h.object
        exact other members hobject
    | declaration kind fault =>
        obtain ⟨d, hd⟩ := StructDecl.ofJson_succeeds_iff.mpr (h.declaration kind)
        rw [StructDecl.ofJson_eq_error_iff.mpr fault] at hd
        cases hd
  · intro hnot
    by_cases hobject : ∃ members, c = .obj members
    · -- An object lacks the shape of a construct only if it should declare a struct.
      have hdecl : ¬ (c.get? "kind" = some (.str "Struct") → c.IsStructDecl) :=
        fun h => hnot ⟨hobject, h⟩
      rw [Classical.not_imp, ← StructDecl.ofJson_succeeds_iff, ← except_fails_iff] at hdecl
      obtain ⟨hkind, e, he⟩ := hdecl
      exact ⟨e, .declaration hkind (StructDecl.ofJson_eq_error_iff.mp he)⟩
    · exact ⟨_, .notAnObject fun members h => hobject ⟨members, h⟩⟩

/-- `readConstructs` fails with the fault of the first construct that has one by
`MalformedAt`, at its place. -/
theorem readConstructs_eq_error_iff : readConstructs index constructs = .error e ↔
    ∃ before c after, constructs = before ++ c :: after ∧ (∀ c ∈ before, c.IsConstruct) ∧
      MalformedAt (index + before.length) c e := by
  induction constructs generalizing index with
  | nil => simp [readConstructs]
  | cons first rest ih =>
      have hfirst : (∃ found, readConstruct index first = .ok found) ↔ first.IsConstruct :=
        readConstruct_succeeds_iff
      -- The first construct has a fault, or it has its shape and one behind it has, whose
      -- place is counted from there.
      have hstep : readConstructs index (first :: rest) = .error e ↔
          MalformedAt index first e ∨
            first.IsConstruct ∧ readConstructs (index + 1) rest = .error e := by
        rw [readConstructs, ← readConstruct_eq_error_iff, ← hfirst]
        simp [except_bind_eq_error]
      rw [hstep, ih]
      constructor
      · rintro (hc | ⟨hshape, before, c, after, rfl, hbefore, hc⟩)
        · exact ⟨[], first, rest, rfl, fun _ hc => absurd hc List.not_mem_nil, hc⟩
        · refine ⟨first :: before, c, after, rfl,
            List.forall_mem_cons.mpr ⟨hshape, hbefore⟩, ?_⟩
          rw [List.length_cons, Nat.add_comm before.length, ← Nat.add_assoc]
          exact hc
      · rintro ⟨before, c, after, hsplit, hbefore, hc⟩
        cases before with
        | nil =>
            obtain ⟨rfl, -⟩ := List.cons.inj hsplit
            exact .inl hc
        | cons b before =>
            obtain ⟨rfl, htail⟩ := List.cons.inj hsplit
            obtain ⟨hshape, hbefore⟩ := List.forall_mem_cons.mp hbefore
            rw [List.length_cons, Nat.add_comm before.length, ← Nat.add_assoc] at hc
            exact .inr ⟨hshape, before, c, after, htail, hbefore, hc⟩

/-- `readConstructs` has a result exactly when each of the values `IsConstruct`. -/
theorem readConstructs_succeeds_iff :
    (∃ decls, readConstructs index constructs = .ok decls) ↔ ∀ c ∈ constructs, c.IsConstruct := by
  have hdecls : (∃ decls, List.Forall₂ (fun c d => StructDecl.ofJson c = .ok d)
      (constructs.filter Json.isStruct) decls) ↔
        ∀ c ∈ constructs, c.isStruct = true → c.IsStructDecl := by
    simp only [← mapM_eq_ok_iff]
    rw [← not_iff_not, ← except_fails_iff, mapM_fails_iff]
    simp only [except_fails_iff, StructDecl.ofJson_succeeds_iff, List.mem_filter]
    push Not
    simp only [and_assoc]
  simp only [readConstructs_eq_ok_iff, exists_and_left, hdecls, Json.isSome_asObject?_iff,
    isStruct_iff]
  constructor
  · rintro ⟨hobjects, hshapes⟩ c hc
    exact ⟨hobjects c hc, hshapes c hc⟩
  · intro h
    exact ⟨fun c hc => (h c hc).object, fun c hc => (h c hc).declaration⟩

/-! ### Reading a bundle -/

/-- `ofJson` refuses a bundle for its id, or else for its constructs. -/
theorem ofJson_eq_error_iff_read : ofJson v = .error e ↔
    (v.getString? "id" = none ∧ e = .missingMember "id") ∨
      ∃ id, v.getString? "id" = some id ∧
        ((v.getArray? "constructs" = none ∧ e = .missingMember "constructs") ∨
          ∃ constructs, v.getArray? "constructs" = some constructs ∧
            readConstructs 0 constructs = .error e) := by
  rw [ofJson]
  cases v.getString? "id" with
  | none => simp [eq_comm]
  | some id =>
      cases v.getArray? "constructs" with
      | none => simp [eq_comm]
      | some constructs => simp [except_bind_eq_error]

/-- `ofJson` fails with the fault by which the bundle is `Malformed`. -/
theorem ofJson_eq_error_iff : ofJson v = .error e ↔ Malformed v e := by
  simp only [ofJson_eq_error_iff_read, Json.getString?_eq_none_iff, Json.getString?_eq_some_iff,
    Json.getArray?_eq_none_iff, Json.getArray?_eq_some_iff, readConstructs_eq_error_iff,
    Nat.zero_add]
  constructor
  · rintro (⟨missing, rfl⟩ | ⟨id, named, ⟨missing, rfl⟩ |
      ⟨_, constructs, before, c, after, rfl, first, fault⟩⟩)
    · exact .noId missing
    · exact .noConstructs named missing
    · exact .construct named constructs first fault
  · intro h
    cases h with
    | noId missing => exact .inl ⟨missing, rfl⟩
    | noConstructs named missing => exact .inr ⟨_, named, .inl ⟨missing, rfl⟩⟩
    | construct named constructs first fault =>
        exact .inr ⟨_, named, .inr ⟨_, constructs, _, _, _, rfl, first, fault⟩⟩

/-- `ofJson` reads a bundle that is `KeptFrom` the value. -/
theorem keptFrom_of_ofJson {b : Bundle} (h : ofJson v = .ok b) : b.KeptFrom v := by
  obtain ⟨hid, hversion, constructs, hconstructs, hread⟩ := ofJson_eq_ok_iff.mp h
  refine ⟨Json.getString?_eq_some_iff.mp hid, ?_, constructs,
    Json.getArray?_eq_some_iff.mp hconstructs, ?_⟩
  · cases hgraft : v.getString? "graft" with
    | none =>
        rw [hgraft] at hversion
        exact .inr ⟨hversion, Json.getString?_eq_none_iff.mp hgraft⟩
    | some version =>
        rw [hgraft] at hversion
        exact .inl (hversion ▸ Json.getString?_eq_some_iff.mp hgraft)
  · obtain ⟨-, hdecls⟩ := readConstructs_eq_ok_iff.mp hread
    exact hdecls.imp fun c d hd => (StructDecl.ofJson_eq_ok_iff.mp hd).2

/-- `ofJson` reads exactly what `IsBundle`. -/
theorem ofJson_succeeds_iff : (∃ b, ofJson v = .ok b) ↔ v.IsBundle := by
  constructor
  · rintro ⟨b, hb⟩
    obtain ⟨hid, -, constructs, hconstructs, hread⟩ := ofJson_eq_ok_iff.mp hb
    exact ⟨⟨b.id, Json.getString?_eq_some_iff.mp hid⟩, constructs,
      Json.getArray?_eq_some_iff.mp hconstructs, readConstructs_succeeds_iff.mp ⟨_, hread⟩⟩
  · intro h
    obtain ⟨id, hid⟩ := h.id
    obtain ⟨constructs, hconstructs, hshapes⟩ := h.constructs
    obtain ⟨structs, hstructs⟩ : ∃ structs, readConstructs 0 constructs = .ok structs :=
      readConstructs_succeeds_iff.mpr hshapes
    exact ⟨⟨id, _, structs⟩, ofJson_eq_ok_iff.mpr ⟨Json.getString?_eq_some_iff.mpr hid, rfl,
      constructs, Json.getArray?_eq_some_iff.mpr hconstructs, hstructs⟩⟩

/-! ### Objects of other kinds -/

end Bundle

/-- `c.isOther`: the construct is an object that declares no struct. -/
def Json.isOther (c : Json) : Bool := c.asObject?.isSome && !c.isStruct

/-- `e.unplaced`: the fault without the place of the construct that is no object. -/
def BundleError.unplaced : BundleError → BundleError
  | notAnObject _ => notAnObject 0
  | fault => fault

/-- `SameButOthers v v'`: the bundles are the same up to objects of other kinds. Without
these, by `isOther`, they have the same constructs in the same order, so any number of
them may be put in or taken out, at any places. -/
structure Bundle.SameButOthers (v v' : Json) : Prop where
  id : v'.get? "id" = v.get? "id"
  version : v'.get? "graft" = v.get? "graft"
  constructs : ∃ constructs constructs', v.get? "constructs" = some (.arr constructs) ∧
    v'.get? "constructs" = some (.arr constructs') ∧
      constructs'.filter (!·.isOther) = constructs.filter (!·.isOther)

namespace Bundle

variable {v v' : Json}

/-- `readConstruct` has the same result at any place, faults taken `unplaced`. -/
theorem mapError_readConstruct (c : Json) (index place : Nat) :
    (readConstruct index c).mapError BundleError.unplaced =
      (readConstruct place c).mapError BundleError.unplaced := by
  rw [readConstruct, readConstruct]
  cases c.asObject? with
  | none => rfl
  | some members => rfl

/-- `readConstructs` has the same result without the constructs that `isOther` tells of,
faults taken `unplaced`. -/
theorem mapError_readConstructs (constructs : List Json) (index place : Nat) :
    (readConstructs index (constructs.filter (!·.isOther))).mapError BundleError.unplaced =
      (readConstructs place constructs).mapError BundleError.unplaced := by
  induction constructs generalizing index place with
  | nil => rfl
  | cons c rest ih =>
      by_cases hother : c.isOther = true
      · -- Nothing is read from the first construct, and the others are one place further.
        have hnone : readConstruct place c = .ok none := by
          rw [Json.isOther, Bool.and_eq_true, Bool.not_eq_true',
            Json.isSome_asObject?_iff] at hother
          obtain ⟨⟨members, hobject⟩, hkind⟩ := hother
          rw [readConstruct_obj hobject, hkind]
          rfl
        have hrest : readConstructs place (c :: rest) = readConstructs (place + 1) rest := by
          rw [readConstructs, hnone, except_bind_ok]
          cases readConstructs (place + 1) rest with
          | error fault => rfl
          | ok others => rfl
        rw [List.filter_cons_of_neg (by simpa using hother), hrest]
        exact ih index (place + 1)
      · rw [List.filter_cons_of_pos (by simpa using hother), readConstructs, readConstructs]
        simp only [except_mapError_bind, mapError_readConstruct c index place,
          ih (index + 1) (place + 1)]

/-- `ofJson` has the same result for bundles that are `SameButOthers`, faults taken
`unplaced`. -/
theorem ofJson_congr_others (h : SameButOthers v v') :
    (ofJson v').mapError BundleError.unplaced = (ofJson v).mapError BundleError.unplaced := by
  obtain ⟨constructs, constructs', hconstructs, hconstructs', hsame⟩ := h.constructs
  have hid : v'.getString? "id" = v.getString? "id" := by
    rw [Json.getString?, Json.getString?, h.id]
  have hversion : v'.getString? "graft" = v.getString? "graft" := by
    rw [Json.getString?, Json.getString?, h.version]
  rw [ofJson, ofJson, hid, hversion, Json.getArray?_eq_some_iff.mpr hconstructs,
    Json.getArray?_eq_some_iff.mpr hconstructs']
  cases v.getString? "id" with
  | none => rfl
  | some id =>
      -- Both arrays are read like what is left of them without the others.
      simp only [except_mapError_bind]
      rw [← mapError_readConstructs constructs 0 0,
        ← mapError_readConstructs constructs' 0 0, hsame]

/-- The whole law of reading a bundle. `ofJson` reads a value exactly when it
`IsBundle`. Then the bundle is `KeptFrom` the value: its constructs of the kind of
structs are the declarations, each once and in their order, with everything that a
declaration keeps. Values that are `SameButOthers`, whatever the objects of other kinds
hold, are read as the same bundle, or have the same fault, with the place of a construct
that is no object counted anew. And a value of another shape has the fault by which it
is `Malformed`, that of its first part that has one, in the order of the array. -/
theorem reads_the_shape (v : Json) :
    ((∃ b, ofJson v = .ok b) ↔ v.IsBundle) ∧
    (∀ b, ofJson v = .ok b → b.KeptFrom v) ∧
    (∀ v', SameButOthers v v' → (∀ b, ofJson v' = .ok b ↔ ofJson v = .ok b) ∧
      (ofJson v').mapError BundleError.unplaced = (ofJson v).mapError BundleError.unplaced) ∧
    ∀ e, ofJson v = .error e ↔ Malformed v e := by
  refine ⟨ofJson_succeeds_iff, fun b => keptFrom_of_ofJson, ?_, fun e => ofJson_eq_error_iff⟩
  intro v' hsame
  have hcongr := ofJson_congr_others hsame
  exact ⟨fun b => eq_ok_iff_of_mapError_eq hcongr, hcongr⟩

/-! ### A bundle with objects of other kinds -/

/-- A construct that declares orders. -/
def orderConstruct : Json := .obj [
  ("fields", .obj [("owner", .obj [("struct", .str "User"), ("type", .str "other")])]),
  ("id", .str "Order"),
  ("kind", .str "Struct"),
  ("unique", .arr [.arr [.str "owner"]])]

/-- A construct of another kind, with members that no struct could have. -/
def widgetConstruct : Json := .obj [("fields", .int 7), ("kind", .str "Widget")]

/-- The bundle with these constructs. -/
def bundleOf (constructs : List Json) : Json :=
  .obj [("constructs", .arr constructs), ("id", .str "shop")]

/-- `orderConstruct` is read with `widgetConstruct` around it as it is without; a
construct that is no object is named by its place among all constructs. -/
theorem reads_the_shape_order : ∃ b,
    ofJson (bundleOf [orderConstruct]) = .ok b ∧ b.KeptFrom (bundleOf [orderConstruct]) ∧
    ofJson (bundleOf [widgetConstruct, orderConstruct, widgetConstruct]) = .ok b ∧
    Malformed (bundleOf [widgetConstruct, orderConstruct, .null, .int 7]) (.notAnObject 2) := by
  have hok : (ofJson (bundleOf [orderConstruct])).isOk = true := by decide +kernel
  cases hread : ofJson (bundleOf [orderConstruct]) with
  | error e =>
      rw [hread] at hok
      cases hok
  | ok b =>
      have hsame : SameButOthers (bundleOf [orderConstruct])
          (bundleOf [widgetConstruct, orderConstruct, widgetConstruct]) :=
        ⟨rfl, rfl, _, _, rfl, rfl, rfl⟩
      refine ⟨b, rfl, (reads_the_shape _).2.1 b hread, ?_, ?_⟩
      · exact (((reads_the_shape _).2.2.1 _ hsame).1 b).mpr hread
      · exact ((reads_the_shape _).2.2.2 _).mp rfl

end Bundle

end EntityRules
