import EntityRules.Proofs.Schema.Rules
import EntityRules.Proofs.Schema.Shape

/-!
# `EntityRules.Proofs.Schema.LoadFaults`: what a schema is refused for

Loading goes over a bundle four times, and each time over all of it: for its shape, for
ids that are declared twice, for declarations that are not understood, and for structs that
break the rules. `RefusedFor` says which fault comes out of that, with its wording. Each
cause asks that nothing was found before, neither on an earlier way through the bundle nor
earlier on the same.

* `StructDecl.repeated?_eq_some_iff`: the repeated declaration that is found is the first.
* `Bundle.understand_eq_error_iff`, `Registry.fault?_eq_some_iff`: the faults before and
  after there is a registry.
* `load_refused_for_first_cause`: loading fails for the first cause and no other, and
  always with an error of the schema, whatever the fault below was a matter of.

Declarations are taken in the order of the bundle and structs in the order of their names,
so the first faulty one of each is told by what stands before it in that order.
-/

set_option autoImplicit false

namespace EntityRules

open Proofs

/-! ### The causes -/

/-- `RefusedFor v config fault text`: the schema is refused for `fault`, and `text` is
the wording of it. -/
inductive Registry.RefusedFor (v : Json) (config : Config) : SchemaFault → String → Prop
  /-- The bundle does not have the shape of one. -/
  | shape {e : BundleError} (fault : Bundle.Malformed v e) :
      RefusedFor v config (.bundle e) e.message
  /-- A declaration has the id of one before it, and no two before it have one id. -/
  | duplicate {b : Bundle} {before after : List StructDecl} {d : StructDecl}
      (shaped : Bundle.ofJson v = .ok b) (split : b.structs = before ++ d :: after)
      (first : (before.map (·.id)).Nodup) (seen : ∃ d' ∈ before, d'.id = d.id) :
      RefusedFor v config (.duplicateStruct d.id d.location)
        ("duplicate struct '" ++ d.id ++ "'" ++ SourceLocation.suffix d.location)
  /-- A declaration is not understood, and all before it are. -/
  | declaration {b : Bundle} {before after : List StructDecl} {d : StructDecl} {e : ReadError}
      (shaped : Bundle.ofJson v = .ok b) (distinct : (b.structs.map (·.id)).Nodup)
      (split : b.structs = before ++ d :: after)
      (first : ∀ d' ∈ before, ∃ s, Struct.ofDecl d' = .ok s) (fault : Struct.ofDecl d = .error e) :
      RefusedFor v config (.declaration d.id d.location e)
        ("struct '" ++ d.id ++ "'" ++ SourceLocation.suffix d.location ++ ": " ++ e.detail)
  /-- A struct breaks a rule, and all before it in name order keep the rules. -/
  | rule {b : Bundle} {structs before after : List Struct} {s : Struct} {e : RuleFault}
      (shaped : Bundle.ofJson v = .ok b) (distinct : (b.structs.map (·.id)).Nodup)
      (understood : List.Forall₂ (fun d s => Struct.ofDecl d = .ok s) b.structs structs)
      (split : (before ++ s :: after).Perm structs)
      (ordered : (before ++ s :: after).Pairwise fun s t => s.name < t.name)
      (first : ∀ t ∈ before, t.WellDeclared (.ofStructs b.id structs config))
      (fault : (s.faults (.ofStructs b.id structs config)).head? = some e) :
      RefusedFor v config (.rule s.name e) ("struct '" ++ s.name ++ "': " ++ e.message)

/-! ### Declarations -/

namespace StructDecl

/-- `repeated?` finds a declaration whose id was `seen`, or is declared before it, when
none before it is repeated. -/
theorem repeated?_eq_some_iff {seen : List String} {decls : List StructDecl} {d : StructDecl} :
    repeated? seen decls = some d ↔ ∃ before after, decls = before ++ d :: after ∧
      repeated? seen before = none ∧ (d.id ∈ seen ∨ ∃ d' ∈ before, d'.id = d.id) := by
  induction decls generalizing seen with
  | nil => simp [repeated?]
  | cons head rest ih =>
      rw [repeated?]
      split
      · next hseen =>
          rw [Option.some.injEq]
          constructor
          · rintro rfl
            exact ⟨[], rest, rfl, rfl, .inl hseen⟩
          · rintro ⟨before, after, hsplit, hnone, -⟩
            cases before with
            | nil => exact (List.cons.inj hsplit).1
            | cons b before =>
                obtain ⟨rfl, -⟩ := List.cons.inj hsplit
                rw [repeated?, if_pos hseen] at hnone
                cases hnone
      · next hnew =>
          -- The first declaration goes from those ahead to the ids that were seen.
          have hmoved : ∀ before : List StructDecl,
              (d.id ∈ head.id :: seen ∨ ∃ d' ∈ before, d'.id = d.id) ↔
                d.id ∈ seen ∨ ∃ d' ∈ head :: before, d'.id = d.id := by grind
          rw [ih]
          constructor
          · rintro ⟨before, after, rfl, hnone, hfound⟩
            refine ⟨head :: before, after, rfl, ?_, (hmoved before).mp hfound⟩
            rw [repeated?, if_neg hnew, hnone]
          · rintro ⟨before, after, hsplit, hnone, hfound⟩
            cases before with
            | nil =>
                obtain ⟨rfl, -⟩ := List.cons.inj hsplit
                simp [hnew] at hfound
            | cons b before =>
                obtain ⟨rfl, htail⟩ := List.cons.inj hsplit
                rw [repeated?, if_neg hnew] at hnone
                exact ⟨before, after, htail, hnone, (hmoved before).mpr hfound⟩

/-- `understand` names a declaration that is not understood, with its place. -/
theorem understand_eq_error_iff {d : StructDecl} {fault : SchemaFault} :
    d.understand = .error fault ↔
      ∃ e, Struct.ofDecl d = .error e ∧ fault = .declaration d.id d.location e := by
  unfold understand
  cases Struct.ofDecl d with
  | error e => simp [eq_comm]
  | ok s => simp

end StructDecl

/-- `understand` fails when a declaration is repeated, or else when one by itself is not
understood; the first is the one that is named. -/
theorem Bundle.understand_eq_error_iff {b : Bundle} {fault : SchemaFault} :
    b.understand = .error fault ↔
      (∃ before d after, b.structs = before ++ d :: after ∧ (before.map (·.id)).Nodup ∧
        (∃ d' ∈ before, d'.id = d.id) ∧ fault = .duplicateStruct d.id d.location) ∨
      ((b.structs.map (·.id)).Nodup ∧ ∃ before d after e, b.structs = before ++ d :: after ∧
        (∀ d' ∈ before, ∃ s, Struct.ofDecl d' = .ok s) ∧ Struct.ofDecl d = .error e ∧
          fault = .declaration d.id d.location e) := by
  have hnone : ∀ decls : List StructDecl,
      StructDecl.repeated? [] decls = none ↔ (decls.map (·.id)).Nodup := by
    simp [StructDecl.repeated?_eq_none_iff]
  have hsome : ∀ d, StructDecl.repeated? [] b.structs = some d ↔ ∃ before after,
      b.structs = before ++ d :: after ∧ (before.map (·.id)).Nodup ∧
        ∃ d' ∈ before, d'.id = d.id := by
    intro d
    simp only [StructDecl.repeated?_eq_some_iff, hnone, List.not_mem_nil, false_or]
  unfold understand
  -- All ids are compared before any declaration is understood, so the two never mix.
  cases hrepeated : StructDecl.repeated? [] b.structs with
  | some d =>
      have hnot : ¬ (b.structs.map (·.id)).Nodup := by simp [← hnone, hrepeated]
      simp only [hnot, false_and, or_false, Except.error.injEq]
      constructor
      · rintro rfl
        obtain ⟨before, after, hsplit, hfirst, hseen⟩ := (hsome d).mp hrepeated
        exact ⟨before, d, after, hsplit, hfirst, hseen, rfl⟩
      · rintro ⟨before, d', after, hsplit, hfirst, hseen, rfl⟩
        have hsame := (hsome d').mpr ⟨before, after, hsplit, hfirst, hseen⟩
        rw [hrepeated, Option.some.injEq] at hsame
        rw [hsame]
  | none =>
      have hdistinct := (hnone _).mp hrepeated
      have hnot : ¬ ∃ before d after, b.structs = before ++ d :: after ∧
          (before.map (·.id)).Nodup ∧ (∃ d' ∈ before, d'.id = d.id) ∧
            fault = .duplicateStruct d.id d.location := by
        rintro ⟨before, d, after, hsplit, hfirst, hseen, -⟩
        rw [(hsome d).mpr ⟨before, after, hsplit, hfirst, hseen⟩] at hrepeated
        cases hrepeated
      simp only [hnot, hdistinct, true_and, false_or, mapM_eq_error_iff,
        StructDecl.understand_eq_ok_iff, StructDecl.understand_eq_error_iff]
      constructor
      · rintro ⟨before, d, after, hsplit, hfirst, e, he, rfl⟩
        exact ⟨before, d, after, e, hsplit, hfirst, he, rfl⟩
      · rintro ⟨before, d, after, e, hsplit, hfirst, he, rfl⟩
        exact ⟨before, d, after, hsplit, hfirst, e, he, rfl⟩

namespace Registry

variable {v : Json} {config : Config} {r : Registry}

/-- `fault?` is the first fault of the first struct, in name order, that is not
`WellDeclared`. -/
theorem fault?_eq_some_iff {fault : SchemaFault} : r.fault? = some fault ↔
    ∃ before s after e, r.structs = before ++ s :: after ∧ (∀ t ∈ before, t.WellDeclared r) ∧
      (s.faults r).head? = some e ∧ fault = .rule s.name e := by
  simp only [fault?, List.findSome?_eq_some_iff, Option.map_eq_some_iff, Option.map_eq_none_iff,
    List.head?_eq_none_iff, Struct.faults_eq_nil_iff, Struct.keepsRules_iff_wellDeclared]
  constructor
  · rintro ⟨before, s, after, hsplit, ⟨e, he, rfl⟩, hfirst⟩
    exact ⟨before, s, after, e, hsplit, hfirst, he, rfl⟩
  · rintro ⟨before, s, after, e, hsplit, hfirst, he, rfl⟩
    exact ⟨before, s, after, hsplit, ⟨e, he, rfl⟩, hfirst⟩

/-- `load` fails where the bundle has a fault of shape, where its declarations are not
understood, or where the registry of them has a `fault?`. -/
theorem load_eq_error_iff {e : EvalError} : load v config = .error e ↔
    ∃ fault, e = .invalidSchema fault ∧
      ((∃ why, Bundle.ofJson v = .error why ∧ fault = .bundle why) ∨
        ∃ b, Bundle.ofJson v = .ok b ∧ (b.understand = .error fault ∨
          ∃ structs, b.understand = .ok structs ∧
            (ofStructs b.id structs config).fault? = some fault)) := by
  have hvalidate : ∀ r : Registry, (r.validate >>= fun _ => pure r) = .error e ↔
      ∃ fault, e = .invalidSchema fault ∧ r.fault? = some fault := by
    intro r
    unfold validate
    cases r.fault? with
    | none => simp
    | some fault => simp [eq_comm]
  unfold load ofBundle
  cases Bundle.ofJson v with
  | error why => simp [eq_comm]
  | ok b =>
      cases hstructs : b.understand with
      | error fault => simp [eq_comm, hstructs]
      | ok structs => simpa [hstructs] using hvalidate (ofStructs b.id structs config)

/-- `ofDecl` makes structs with distinct names of declarations with distinct ids. -/
theorem nodup_names_of_understood {decls : List StructDecl} {structs : List Struct}
    (h : (decls.map (·.id)).Nodup)
    (hunderstood : List.Forall₂ (fun d s => Struct.ofDecl d = .ok s) decls structs) :
    (structs.map (·.name)).Nodup := by
  have hnames : decls.map (·.id) = structs.map (·.name) :=
    map_eq_map_of_forall₂ hunderstood fun _ _ hs => (Struct.name_of_ofDecl hs).symm
  exact hnames ▸ h

/-- `ofStructs` makes a registry whose `structs` are the given ones in name order. -/
theorem structs_ofStructs_eq_iff {id : String} {structs l : List Struct}
    (h : (structs.map (·.name)).Nodup) : (ofStructs id structs config).structs = l ↔
      l.Perm structs ∧ l.Pairwise fun s t => s.name < t.name := by
  have hperm : (ofStructs id structs config).structs.Perm structs := perm_structs_ofStructs h
  have hordered := (ofStructs id structs config).pairwise_structs
  constructor
  · rintro rfl
    exact ⟨hperm, hordered⟩
  · rintro ⟨hsame, hsorted⟩
    refine (hperm.trans hsame.symm).eq_of_pairwise (fun s t _ _ hst hts => ?_) hordered hsorted
    exact absurd (Std.lt_trans hst hts) Std.lt_irrefl

/-- `RefusedFor` gives a fault the wording of its `message`. -/
theorem RefusedFor.message_eq {fault : SchemaFault} {text : String}
    (h : RefusedFor v config fault text) : fault.message = text := by
  cases h with
  | shape fault => rfl
  | duplicate shaped split first seen => rfl
  | declaration shaped distinct split first fault => rfl
  | rule shaped distinct understood split ordered first fault => rfl

/-- `RefusedFor` names what `load` fails for. -/
theorem RefusedFor.load_eq {fault : SchemaFault} {text : String}
    (h : RefusedFor v config fault text) : load v config = .error (.invalidSchema fault) := by
  refine load_eq_error_iff.mpr ⟨_, rfl, ?_⟩
  cases h with
  | shape fault => exact .inl ⟨_, Bundle.ofJson_eq_error_iff.mpr fault, rfl⟩
  | duplicate shaped split first seen =>
      have hfails := Bundle.understand_eq_error_iff.mpr (.inl ⟨_, _, _, split, first, seen, rfl⟩)
      exact .inr ⟨_, shaped, .inl hfails⟩
  | declaration shaped distinct split first fault =>
      have hfails := Bundle.understand_eq_error_iff.mpr
        (.inr ⟨distinct, _, _, _, _, split, first, fault, rfl⟩)
      exact .inr ⟨_, shaped, .inl hfails⟩
  -- A broken rule is found in the registry of all declarations, which have to be
  -- understood.
  | @rule b structs before after s _ shaped distinct understood split ordered first fault =>
      have hnames := nodup_names_of_understood distinct understood
      have hstructs : (ofStructs b.id structs config).structs = before ++ s :: after :=
        (structs_ofStructs_eq_iff hnames).mpr ⟨split, ordered⟩
      exact .inr ⟨_, shaped, .inr ⟨_, Bundle.understand_eq_ok_iff.mpr ⟨distinct, understood⟩,
        fault?_eq_some_iff.mpr ⟨_, _, _, _, hstructs, first, fault, rfl⟩⟩⟩

/-- `load` fails for nothing but what `RefusedFor` names. -/
theorem exists_refusedFor_of_load_eq {e : EvalError} (h : load v config = .error e) :
    ∃ fault text, RefusedFor v config fault text ∧ e = .invalidSchema fault := by
  obtain ⟨fault, rfl, ⟨why, hwhy, rfl⟩ | ⟨b, hb, hunderstand | ⟨structs, hstructs, hfault⟩⟩⟩ :=
    load_eq_error_iff.mp h
  · exact ⟨_, _, .shape (Bundle.ofJson_eq_error_iff.mp hwhy), rfl⟩
  · rcases Bundle.understand_eq_error_iff.mp hunderstand with
      ⟨before, d, after, hsplit, hfirst, hseen, rfl⟩ |
        ⟨hdistinct, before, d, after, why, hsplit, hfirst, hwhy, rfl⟩
    · exact ⟨_, _, .duplicate hb hsplit hfirst hseen, rfl⟩
    · exact ⟨_, _, .declaration hb hdistinct hsplit hfirst hwhy, rfl⟩
  · obtain ⟨hdistinct, hunderstood⟩ := Bundle.understand_eq_ok_iff.mp hstructs
    obtain ⟨before, s, after, why, hsplit, hfirst, hwhy, rfl⟩ := fault?_eq_some_iff.mp hfault
    have hnames := nodup_names_of_understood hdistinct hunderstood
    obtain ⟨hperm, hordered⟩ := (structs_ofStructs_eq_iff hnames).mp hsplit
    exact ⟨_, _, .rule hb hdistinct hunderstood hperm hordered hfirst hwhy, rfl⟩

/-- `load` refuses a schema for the first cause, by `RefusedFor`, whatever else is wrong
with it: the shape of its bundle comes first, then the first declaration with an id that
was declared before it, then the first declaration that is not understood, then the
first struct in name order that breaks a rule. The error is always `invalidSchema`. So a
broken rule is reported only where all declarations are understood, by `Struct.ofDecl`.
-/
theorem load_refused_for_first_cause (v : Json) (config : Config) :
    (∀ e, load v config = .error e ↔ ∃ fault text, RefusedFor v config fault text ∧
      e = .invalidSchema fault ∧ e.message = "invalid schema: " ++ text) ∧
    ∀ name why, load v config = .error (.invalidSchema (.rule name why)) →
      ∃ b, Bundle.ofJson v = .ok b ∧ ∀ d ∈ b.structs, ∃ s, Struct.ofDecl d = .ok s := by
  constructor
  · intro e
    constructor
    · intro h
      obtain ⟨fault, text, hcause, rfl⟩ := exists_refusedFor_of_load_eq h
      refine ⟨fault, text, hcause, rfl, ?_⟩
      show "invalid schema: " ++ fault.message = _
      rw [hcause.message_eq]
    · rintro ⟨fault, text, hcause, rfl, -⟩
      exact hcause.load_eq
  · intro name why h
    obtain ⟨fault, text, hcause, hfault⟩ := exists_refusedFor_of_load_eq h
    cases hfault
    cases hcause with
    | @rule b structs _ _ _ _ shaped distinct understood split ordered first fault =>
        -- Only a bundle that is understood as a whole has a registry to check.
        refine ⟨b, shaped, fun d hd => ?_⟩
        obtain ⟨s, -, hs⟩ := exists_of_mem_of_forall₂ understood.flip d hd
        exact ⟨s, hs⟩

/-! ### A shop with several faults -/

/-- A declaration that is understood, of a reference to a struct that is not there. -/
def cartConstruct : Json := .obj [
  ("fields", .obj [("owner", .obj [("struct", .str "Ghost"), ("type", .str "other")])]),
  ("id", .str "Cart"),
  ("kind", .str "Struct")]

/-- A declaration whose default is one more than the greatest number. -/
def heapConstruct : Json := .obj [
  ("fields", .obj [("size", .obj [
    ("default", .str "9223372036854775808"), ("type", .str "number")])]),
  ("id", .str "Heap"),
  ("kind", .str "Struct"),
  ("provenance", .obj [("file", .str "shop.graft"), ("line", .int 7)])]

/-- `cartConstruct` comes before `heapConstruct` in the bundle and in name order, and
still the heap is reported: that its default is not understood, which by itself would be
a matter of arithmetic. Without it the broken rule of carts is. -/
theorem load_refused_for_first_cause_shop :
    (∃ fault, RefusedFor (Bundle.bundleOf [cartConstruct, heapConstruct]) {} fault
        ("struct 'Heap' (shop.graft:7): " ++
          "arithmetic error: 9223372036854775808 does not fit in a Number") ∧
      load (Bundle.bundleOf [cartConstruct, heapConstruct]) {} = .error (.invalidSchema fault)) ∧
    load (Bundle.bundleOf [cartConstruct]) {} =
      .error (.invalidSchema (.rule "Cart" (.unknownTarget "owner" "Ghost"))) ∧
    ∃ b, Bundle.ofJson (Bundle.bundleOf [cartConstruct]) = .ok b ∧
      ∀ d ∈ b.structs, ∃ s, Struct.ofDecl d = .ok s := by
  have hrule : load (Bundle.bundleOf [cartConstruct]) {} =
      .error (.invalidSchema (.rule "Cart" (.unknownTarget "owner" "Ghost"))) := rfl
  have hheap : load (Bundle.bundleOf [cartConstruct, heapConstruct]) {} =
      .error (.invalidSchema (.declaration "Heap" (some ⟨"shop.graft", 7⟩)
        (.outOfRange ⟨false, 9223372036854775808, 0, by decide, by decide⟩))) := rfl
  refine ⟨?_, hrule, (load_refused_for_first_cause _ {}).2 _ _ hrule⟩
  obtain ⟨fault, text, hcause, hfault, -⟩ :=
    ((load_refused_for_first_cause
      (Bundle.bundleOf [cartConstruct, heapConstruct]) {}).1 _).mp hheap
  cases hfault
  have htext : text = "struct 'Heap' (shop.graft:7): " ++
      "arithmetic error: 9223372036854775808 does not fit in a Number" :=
    hcause.message_eq.symm.trans (by decide +kernel)
  exact ⟨_, htext ▸ hcause, hheap⟩

end Registry

end EntityRules
