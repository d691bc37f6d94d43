import EntityRules.Proofs.Lists
import EntityRules.Proofs.Schema.Validity
import EntityRules.Proofs.Tables

/-!
# `EntityRules.Proofs.Schema.Arrangement`: what a registry depends on

A bundle lists its constructs in some order, between constructs of other kinds, and
says where each was written. None of that reaches the registry: it depends on the
id of the bundle and on the structs that the constructs declare.

* `load_eq_ok_iff_declares`: a registry is loaded from a bundle exactly when the
  constructs declare its structs, in whatever order, and these keep the rules.
* `Bundle.Rearranged.declares_iff`: constructs that were reordered, put in or taken
  out, if they are no structs, or written elsewhere declare the same structs.
* `load_rearranged`: such bundles give the same registry, or none. Every declaration
  of a struct is one struct of the registry, and an id that is declared twice fails.

The registry is a table by name and could lose a struct to a later one of its name.
It does not, because loading fails at a repeated id before there is a table
(`Bundle.understand_eq_ok_iff`).
-/

set_option autoImplicit false

namespace EntityRules

open Proofs

/-! ### Constructs and what they declare -/

/-- `c.isStruct`: the construct is the declaration of a struct. -/
def Json.isStruct (c : Json) : Bool := c.getString? "kind" = some "Struct"

/-- `c.Declares s`: the construct declares the struct `s`, as which its shape is
understood. -/
def Json.Declares (c : Json) (s : Struct) : Prop :=
  ∃ d, StructDecl.ofJson c = .ok d ∧ Struct.ofDecl d = .ok s

/-- `Declares constructs structs`: all constructs are objects, and the declarations
among them are those of the structs, one by one but in any order. -/
structure Bundle.Declares (constructs : List Json) (structs : List Struct) : Prop where
  objects : ∀ c ∈ constructs, c.asObject?.isSome
  declared : ∃ inOrder, List.Forall₂ Json.Declares (constructs.filter Json.isStruct) inOrder ∧
    inOrder.Perm structs

/-- `ofJson` reads a shape that has the id of the construct. -/
theorem StructDecl.getString?_id {c : Json} {d : StructDecl} (h : ofJson c = .ok d) :
    c.getString? "id" = some d.id := by
  unfold ofJson at h
  split at h
  · cases h
  · next id hid =>
      split at h
      · cases h
      · simp only [except_bind_eq_ok, except_pure, Except.ok.injEq] at h
        obtain ⟨fields, -, unique, -, rfl⟩ := h
        exact hid

/-- `ofDecl` makes a struct with the id of its declaration for a name. -/
theorem Struct.name_of_ofDecl {d : StructDecl} {s : Struct} (h : ofDecl d = .ok s) :
    s.name = d.id := by
  simp only [ofDecl, except_bind_eq_ok, except_pure, Except.ok.injEq] at h
  obtain ⟨fields, -, permissions, -, effects, -, checks, -, rfl⟩ := h
  rfl

/-- A construct `Declares` a struct under its own id. -/
theorem Json.Declares.id_eq {c : Json} {s : Struct} (h : c.Declares s) :
    c.getString? "id" = some s.name := by
  obtain ⟨d, hd, hs⟩ := h
  rw [StructDecl.getString?_id hd, Struct.name_of_ofDecl hs]

/-! ### The steps of loading -/

namespace Bundle

/-- `readConstructs` reads shapes when all constructs are objects and every declaration
of a struct among them has a shape. -/
theorem readConstructs_eq_ok_iff {index : Nat} {constructs : List Json} {decls : List StructDecl} :
    readConstructs index constructs = .ok decls ↔ (∀ c ∈ constructs, c.asObject?.isSome) ∧
      List.Forall₂ (fun c d => StructDecl.ofJson c = .ok d) (constructs.filter Json.isStruct)
        decls := by
  induction constructs generalizing index decls with
  | nil =>
      rw [readConstructs, List.filter_nil, List.forall₂_nil_left_iff, Except.ok.injEq, eq_comm]
      simp
  | cons c rest ih =>
      simp only [readConstructs, except_bind_eq_ok, except_pure, Except.ok.injEq, ih,
        List.forall_mem_cons]
      cases hobject : c.asObject? with
      | none => simp [readConstruct, hobject]
      | some members =>
          by_cases hkind : c.getString? "kind" = some "Struct"
          · -- The shape of the first construct is in front of the others.
            have hstruct : c.isStruct = true := decide_eq_true hkind
            simp only [readConstruct, hobject, if_pos hkind, except_map_eq_ok, Option.isSome_some,
              true_and, List.filter_cons_of_pos hstruct, List.forall₂_cons_left_iff]
            constructor
            · rintro ⟨-, ⟨d, hd, rfl⟩, ds, ⟨hobjects, hds⟩, rfl⟩
              exact ⟨hobjects, d, ds, hd, hds, rfl⟩
            · rintro ⟨hobjects, d, ds, hd, hds, rfl⟩
              exact ⟨some d, ⟨d, hd, rfl⟩, ds, ⟨hobjects, hds⟩, rfl⟩
          · have hother : ¬ c.isStruct = true := fun h => hkind (of_decide_eq_true h)
            simp [readConstruct, hobject, hkind, List.filter_cons_of_neg hother]

/-- `ofJson` reads a bundle when it has an id and its constructs have shapes. -/
theorem ofJson_eq_ok_iff {v : Json} {b : Bundle} :
    ofJson v = .ok b ↔ v.getString? "id" = some b.id ∧ b.version = (v.getString? "graft").getD "" ∧
      ∃ constructs, v.getArray? "constructs" = some constructs ∧
        readConstructs 0 constructs = .ok b.structs := by
  obtain ⟨id, version, structs⟩ := b
  unfold ofJson
  cases v.getString? "id" with
  | none => simp
  | some id' =>
      cases v.getArray? "constructs" with
      | none => simp
      | some constructs =>
          simp only [except_bind_eq_ok, except_pure, Except.ok.injEq, mk.injEq, Option.some.injEq,
            exists_eq_left']
          constructor
          · rintro ⟨structs', hstructs, rfl, rfl, rfl⟩
            exact ⟨rfl, rfl, hstructs⟩
          · rintro ⟨rfl, rfl, hstructs⟩
            exact ⟨structs, hstructs, rfl, rfl, rfl⟩

end Bundle

/-- `repeated?` finds no declaration exactly where the ids are distinct and none of them
was `seen` before. -/
theorem StructDecl.repeated?_eq_none_iff {seen : List String} {decls : List StructDecl} :
    repeated? seen decls = none ↔ (∀ d ∈ decls, d.id ∉ seen) ∧ (decls.map (·.id)).Nodup := by
  induction decls generalizing seen with
  | nil => simp [repeated?]
  | cons d rest ih =>
      rw [repeated?]
      split
      · next hseen => simp [hseen]
      · next hseen =>
          -- The id of the first declaration counts as seen for the others.
          rw [ih, List.map_cons, List.nodup_cons, List.forall_mem_cons]
          simp only [List.mem_cons, not_or, List.mem_map, not_exists, not_and]
          constructor
          · rintro ⟨hrest, hnodup⟩
            exact ⟨⟨hseen, fun e he => (hrest e he).2⟩, fun e he => (hrest e he).1, hnodup⟩
          · rintro ⟨⟨-, hnew⟩, hdistinct, hnodup⟩
            exact ⟨fun e he => ⟨hdistinct e he, hnew e he⟩, hnodup⟩

/-- `understand` makes the struct that `ofDecl` makes. -/
theorem StructDecl.understand_eq_ok_iff {d : StructDecl} {s : Struct} :
    d.understand = .ok s ↔ Struct.ofDecl d = .ok s := by
  unfold understand
  cases Struct.ofDecl d with
  | error fault => simp
  | ok s' => simp

/-- `understand` makes structs when no id is repeated and each declaration is understood
by itself. -/
theorem Bundle.understand_eq_ok_iff {b : Bundle} {structs : List Struct} :
    b.understand = .ok structs ↔ (b.structs.map (·.id)).Nodup ∧
      List.Forall₂ (fun d s => Struct.ofDecl d = .ok s) b.structs structs := by
  have hnone : StructDecl.repeated? [] b.structs = none ↔ (b.structs.map (·.id)).Nodup := by
    simp [StructDecl.repeated?_eq_none_iff]
  unfold understand
  cases hrepeated : StructDecl.repeated? [] b.structs with
  | some d =>
      have hnot : ¬ (b.structs.map (·.id)).Nodup := by simp [← hnone, hrepeated]
      simp [hnot]
  | none => simp [hnone.mp hrepeated, mapM_eq_ok_iff, StructDecl.understand_eq_ok_iff]

/-! ### The registry of what is declared -/

namespace Registry

variable {v v' : Json} {config : Config} {r : Registry}

/-- The names of structs that are the `structs` of a registry are distinct. -/
theorem nodup_names_of_perm {structs : List Struct} (h : structs.Perm r.structs) :
    (structs.map (·.name)).Nodup :=
  (h.map _).nodup_iff.mpr (nodup_map_of_pairwise_lt r.pairwise_structs)

/-- `ofStructs` keeps all structs, if their names are distinct. -/
theorem perm_structs_ofStructs {id : String} {structs : List Struct}
    (h : (structs.map (·.name)).Nodup) : (ofStructs id structs config).structs.Perm structs := by
  have hkeys : ((structs.map fun s => (s.name, s)).map (·.1)).Nodup := by
    rw [List.map_map]
    exact h
  have hperm := (Table.perm_entries_ofList hkeys).map (·.2)
  rw [List.map_map] at hperm
  exact hperm.trans (.of_eq (List.map_id _))

/-- A registry is told by its id, its settings and which `structs` it has, as a table
has its entries in one order only. -/
theorem eq_of_perm_structs {r' : Registry} (hid : r.id = r'.id) (hconfig : r.config = r'.config)
    (h : r.structs.Perm r'.structs) : r = r' := by
  have hperm : r.table.entries.Perm r'.table.entries := by
    rw [← map_structs_eq_entries, ← map_structs_eq_entries]
    exact h.map _
  have hentries : r.table.entries = r'.table.entries :=
    hperm.eq_of_pairwise' r.table.sorted r'.table.sorted
  obtain ⟨id, config, ⟨entries, sorted⟩, named⟩ := r
  obtain ⟨id', config', ⟨entries', sorted'⟩, named'⟩ := r'
  obtain rfl : id = id' := hid
  obtain rfl : config = config' := hconfig
  obtain rfl : entries = entries' := hentries
  rfl

/-- `ofStructs` makes a registry again from its `structs`, in whatever order they are
put in. -/
theorem ofStructs_eq_self {structs : List Struct} (h : structs.Perm r.structs) :
    ofStructs r.id structs r.config = r :=
  eq_of_perm_structs rfl rfl ((perm_structs_ofStructs (nodup_names_of_perm h)).trans h)

/-- `ofBundle` makes the registry of the structs which the constructs declare by
`Bundle.Declares`, and no two of these have the same name. -/
theorem ofBundle_eq_ok_iff : ofBundle v config = .ok r ↔
    v.getString? "id" = some r.id ∧ r.config = config ∧
      ∃ constructs, v.getArray? "constructs" = some constructs ∧
        Bundle.Declares constructs r.structs := by
  have hsteps : ofBundle v config = .ok r ↔ ∃ b, Bundle.ofJson v = .ok b ∧
      ∃ structs, b.understand = .ok structs ∧ ofStructs b.id structs config = r := by
    unfold ofBundle
    cases Bundle.ofJson v with
    | error fault => simp
    | ok b => simp [except_bind_eq_ok]
  simp only [hsteps, Bundle.ofJson_eq_ok_iff, Bundle.understand_eq_ok_iff,
    Bundle.readConstructs_eq_ok_iff]
  -- The shapes are what stands between the constructs and the structs.
  have hnames : ∀ {decls structs}, List.Forall₂ (fun d s => Struct.ofDecl d = .ok s) decls structs →
      decls.map (·.id) = structs.map (·.name) := fun hunderstood =>
    map_eq_map_of_forall₂ hunderstood fun _ _ hs => (Struct.name_of_ofDecl hs).symm
  constructor
  · rintro ⟨b, ⟨hid, -, constructs, hconstructs, hobjects, hshapes⟩, structs, ⟨hnodup, hunderstood⟩,
      rfl⟩
    rw [hnames hunderstood] at hnodup
    have hdeclares : List.Forall₂ Json.Declares (constructs.filter Json.isStruct) structs :=
      forall₂_comp_iff.mpr ⟨b.structs, hshapes, hunderstood⟩
    exact ⟨hid, rfl, constructs, hconstructs, hobjects, structs, hdeclares,
      (perm_structs_ofStructs hnodup).symm⟩
  · rintro ⟨hid, rfl, constructs, hconstructs, hobjects, structs, hdeclares, hperm⟩
    obtain ⟨decls, hshapes, hunderstood⟩ := forall₂_comp_iff.mp hdeclares
    have hnodup : (decls.map (·.id)).Nodup := by
      rw [hnames hunderstood]
      exact nodup_names_of_perm hperm
    exact ⟨⟨r.id, _, decls⟩, ⟨hid, rfl, constructs, hconstructs, hobjects, hshapes⟩, structs,
      ⟨hnodup, hunderstood⟩, ofStructs_eq_self hperm⟩

/-- `load` makes a registry exactly when the constructs declare its structs, by
`Bundle.Declares`, and these keep the rules. -/
theorem load_eq_ok_iff_declares : load v config = .ok r ↔
    v.getString? "id" = some r.id ∧ r.config = config ∧
      (∃ constructs, v.getArray? "constructs" = some constructs ∧
        Bundle.Declares constructs r.structs) ∧
      ∀ s ∈ r.structs, s.KeepsRules r := by
  rw [load_eq_ok_iff, ofBundle_eq_ok_iff, and_assoc, and_assoc]

end Registry

/-! ### Bundles that say the same about structs -/

/-- `c.SameButProvenance c'`: the constructs are the same but for where they say that
they were written. -/
structure Json.SameButProvenance (c c' : Json) : Prop where
  object : c.asObject?.isSome
  object' : c'.asObject?.isSome
  members : ∀ name, name ≠ "provenance" → c'.get? name = c.get? name

/-- `Rearranged constructs constructs'`: the arrays are the same up to their order, to
objects that are no structs, put in or taken out, and to changes of provenance. -/
inductive Bundle.Rearranged : List Json → List Json → Prop
  | reordered {constructs constructs' : List Json} (perm : constructs.Perm constructs') :
      Rearranged constructs constructs'
  | putIn {before after : List Json} {c : Json} (object : c.asObject?.isSome)
      (other : c.getString? "kind" ≠ some "Struct") :
      Rearranged (before ++ after) (before ++ c :: after)
  | takenOut {before after : List Json} {c : Json} (object : c.asObject?.isSome)
      (other : c.getString? "kind" ≠ some "Struct") :
      Rearranged (before ++ c :: after) (before ++ after)
  | rewritten {constructs constructs' : List Json}
      (same : List.Forall₂ Json.SameButProvenance constructs constructs') :
      Rearranged constructs constructs'
  | trans {constructs constructs' constructs'' : List Json}
      (first : Rearranged constructs constructs') (second : Rearranged constructs' constructs'') :
      Rearranged constructs constructs''

/-- `Alike v v'`: the bundles have the same id, and their constructs are `Rearranged`.
-/
structure Bundle.Alike (v v' : Json) : Prop where
  id : v'.getString? "id" = v.getString? "id"
  constructs : ∃ constructs constructs', v.getArray? "constructs" = some constructs ∧
    v'.getArray? "constructs" = some constructs' ∧ Rearranged constructs constructs'

namespace Json.SameButProvenance

variable {c c' : Json}

/-- `isStruct` does not look at the provenance. -/
theorem isStruct_eq (h : c.SameButProvenance c') : c'.isStruct = c.isStruct := by
  rw [isStruct, isStruct, getString?, getString?, h.members "kind" (by decide)]

/-- `SameButProvenance` goes both ways. -/
theorem symm (h : c.SameButProvenance c') : c'.SameButProvenance c :=
  ⟨h.object', h.object, fun name hname => (h.members name hname).symm⟩

/-- `ofJson` reads the same shape from constructs that are `SameButProvenance`, but for
the place. -/
theorem ofJson_eq (h : c.SameButProvenance c') :
    StructDecl.ofJson c' =
      (StructDecl.ofJson c).map fun d => { d with location := StructDecl.readLocation? c' } := by
  have hid : c'.getString? "id" = c.getString? "id" := by
    rw [getString?, getString?, h.members "id" (by decide)]
  have hunique : ∀ id, StructDecl.readUnique id c' = StructDecl.readUnique id c := by
    intro id
    rw [StructDecl.readUnique, StructDecl.readUnique, getNonNull?, getNonNull?,
      h.members "unique" (by decide)]
  simp only [StructDecl.ofJson, hid, h.members "fields" (by decide), hunique, getNonNull?,
    h.members "permissions" (by decide), h.members "effects" (by decide),
    h.members "checks" (by decide)]
  cases c.getString? "id" with
  | none => rfl
  | some id =>
      cases (c.get? "fields").bind asObject? with
      | none => rfl
      | some members =>
          simp only
          cases StructDecl.readFields id members with
          | error fault => rfl
          | ok fields =>
              cases StructDecl.readUnique id c with
              | error fault => rfl
              | ok unique => rfl

/-- `Declares` does not look at the provenance, of which no struct is made. -/
theorem declares (h : c.SameButProvenance c') {s : Struct} (hs : c.Declares s) : c'.Declares s := by
  obtain ⟨d, hd, hs⟩ := hs
  refine ⟨{ d with location := StructDecl.readLocation? c' }, ?_, hs⟩
  rw [h.ofJson_eq, hd]
  rfl

end Json.SameButProvenance

/-- `c.withProvenance file line`: the construct as it is written at this place. -/
def Json.withProvenance (file : String) (line : Nat) : Json → Json
  | obj members => obj (("provenance", obj [("file", str file), ("line", int line)]) :: members)
  | c => c

/-- `withProvenance` changes nothing but the provenance. -/
theorem Json.sameButProvenance_withProvenance {c : Json} {file : String} {line : Nat}
    (h : c.asObject?.isSome) : c.SameButProvenance (c.withProvenance file line) := by
  cases c with
  | obj members =>
      refine ⟨rfl, rfl, fun name hname => ?_⟩
      rw [withProvenance, get?, get?, Table.lookup_cons_eq_if, if_neg hname]
  | _ => cases h

namespace Bundle

variable {constructs constructs' : List Json} {structs : List Struct}

/-- `Declares` does not depend on the order of the constructs. -/
theorem Declares.of_perm (hperm : constructs.Perm constructs') (h : Declares constructs structs) :
    Declares constructs' structs := by
  obtain ⟨hobjects, inOrder, hdeclares, hstructs⟩ := h
  obtain ⟨inOrder', hdeclares', hinOrder⟩ :=
    List.perm_comp_forall₂ (hperm.filter Json.isStruct).symm hdeclares
  have hobjects' : ∀ c ∈ constructs', c.asObject?.isSome := fun c hc =>
    hobjects c (hperm.mem_iff.mpr hc)
  exact ⟨hobjects', inOrder', hdeclares', hinOrder.trans hstructs⟩

/-- `Declares` passes over an object that is no struct. -/
theorem declares_append_cons_iff {before after : List Json} {c : Json}
    (hobject : c.asObject?.isSome) (hother : c.getString? "kind" ≠ some "Struct") :
    Declares (before ++ c :: after) structs ↔ Declares (before ++ after) structs := by
  have hnot : ¬ c.isStruct = true := fun h => hother (of_decide_eq_true h)
  have hobjects : (∀ d ∈ before ++ c :: after, d.asObject?.isSome) ↔
      ∀ d ∈ before ++ after, d.asObject?.isSome := by
    rw [List.forall_mem_append, List.forall_mem_cons, List.forall_mem_append]
    simp only [hobject, true_and]
  have hstructs : (before ++ c :: after).filter Json.isStruct =
      (before ++ after).filter Json.isStruct := by
    rw [List.filter_append, List.filter_cons_of_neg hnot, List.filter_append]
  constructor
  · rintro ⟨hall, hdeclared⟩
    exact ⟨hobjects.mp hall, hstructs ▸ hdeclared⟩
  · rintro ⟨hall, hdeclared⟩
    exact ⟨hobjects.mpr hall, hstructs ▸ hdeclared⟩

/-- `Declares` holds of constructs that are `SameButProvenance`, one by one. -/
theorem Declares.of_same (hsame : List.Forall₂ Json.SameButProvenance constructs constructs')
    (h : Declares constructs structs) : Declares constructs' structs := by
  obtain ⟨-, inOrder, hdeclares, hstructs⟩ := h
  have hback : List.Forall₂ (fun c' c => c'.asObject?.isSome ∧ c.SameButProvenance c') constructs'
      constructs := (hsame.imp fun _ _ h => ⟨h.object', h⟩).flip
  have hfilter : List.Forall₂ Json.SameButProvenance (constructs.filter Json.isStruct)
      (constructs'.filter Json.isStruct) :=
    List.rel_filter (fun _ _ h => Bool.eq_iff_iff.mp h.isStruct_eq.symm) hsame
  -- A struct is declared by a construct from which its own one differs in provenance.
  have hthrough := forall₂_comp_iff.mpr ⟨_, hfilter.flip, hdeclares⟩
  exact ⟨((List.forall₂_and_left _ _).mp hback).1, inOrder,
    hthrough.imp fun _ _ ⟨_, hsame, hs⟩ => hsame.declares hs, hstructs⟩

/-- `Declares` holds of `Rearranged` constructs alike. -/
theorem Rearranged.declares_iff (h : Rearranged constructs constructs') :
    Declares constructs' structs ↔ Declares constructs structs := by
  induction h with
  | reordered perm => exact ⟨.of_perm perm.symm, .of_perm perm⟩
  | putIn object other => exact declares_append_cons_iff object other
  | takenOut object other => exact (declares_append_cons_iff object other).symm
  | rewritten same =>
      have hback := (List.Forall₂.imp (fun _ _ => Json.SameButProvenance.symm) same).flip
      exact ⟨.of_same hback, .of_same same⟩
  | trans _ _ hfirst hsecond => exact hsecond.trans hfirst

end Bundle

namespace Registry

variable {v v' : Json} {config : Config} {r : Registry}

/-- `load` makes the same registry of bundles that are `Alike`. -/
theorem load_eq_ok_iff_of_alike (h : Bundle.Alike v v') :
    load v' config = .ok r ↔ load v config = .ok r := by
  obtain ⟨hid, constructs, constructs', hconstructs, hconstructs', hrearranged⟩ := h
  simp only [load_eq_ok_iff_declares, hid, hconstructs, hconstructs', Option.some.injEq,
    exists_eq_left', hrearranged.declares_iff]

/-- `load` accepts no bundle in which an id is declared twice. -/
theorem nodup_ids_of_load {constructs : List Json} (h : load v config = .ok r)
    (hconstructs : v.getArray? "constructs" = some constructs) :
    ((constructs.filter Json.isStruct).map (·.getString? "id")).Nodup := by
  obtain ⟨-, -, ⟨constructs', hsame, -, structs, hdeclares, hperm⟩, -⟩ :=
    load_eq_ok_iff_declares.mp h
  obtain rfl : constructs = constructs' := Option.some.inj (hconstructs.symm.trans hsame)
  have hids : (constructs.filter Json.isStruct).map (·.getString? "id") =
      (structs.map (·.name)).map some := by
    rw [List.map_map]
    exact map_eq_map_of_forall₂ hdeclares fun _ _ hs => hs.id_eq
  rw [hids]
  have hnames := nodup_names_of_perm hperm
  exact List.pairwise_map.mpr (hnames.imp fun hne hsome => hne (Option.some.inj hsome))

/-- `load` does not depend on the order of the constructs, on objects among them that
are no structs or on where anything was written: bundles that are `Bundle.Alike` give
the same registry, with the same structs and the same fingerprint, or both fail. The
registry that a bundle gives has one struct for each of its declarations, which
`Declares` it, under the id of that. A bundle with an id that is declared twice gives
none. -/
theorem load_rearranged (v : Json) (config : Config) :
    (∀ v', Bundle.Alike v v' →
      (∃ r, load v config = .ok r ∧ load v' config = .ok r) ∨
        ∃ e e', load v config = .error e ∧ load v' config = .error e') ∧
    (∀ r, load v config = .ok r → ∃ constructs, v.getArray? "constructs" = some constructs ∧
      ∃ structs, structs.Perm r.structs ∧
        List.Forall₂ (fun c s => c.Declares s ∧ c.getString? "id" = some s.name)
          (constructs.filter Json.isStruct) structs ∧
        ∀ s ∈ structs, r.find? s.name = some s) ∧
    ∀ constructs c c', v.getArray? "constructs" = some constructs → [c, c'].Sublist constructs →
      c.isStruct → c'.isStruct → c.getString? "id" = c'.getString? "id" →
        ∃ e, load v config = .error e := by
  refine ⟨?alike, ?kept, ?repeated⟩
  case alike =>
    intro v' halike
    cases hload : load v config with
    | ok r => exact .inl ⟨r, rfl, (load_eq_ok_iff_of_alike halike).mpr hload⟩
    | error e =>
        cases hload' : load v' config with
        | error e' => exact .inr ⟨e, e', rfl, rfl⟩
        | ok r =>
            rw [(load_eq_ok_iff_of_alike halike).mp hload'] at hload
            cases hload
  case kept =>
    intro r hr
    obtain ⟨-, -, ⟨constructs, hconstructs, -, structs, hdeclares, hperm⟩, -⟩ :=
      load_eq_ok_iff_declares.mp hr
    exact ⟨constructs, hconstructs, structs, hperm, hdeclares.imp fun _ _ hs => ⟨hs, hs.id_eq⟩,
      fun s hs => (r.mem_structs_iff s).mp (hperm.mem_iff.mp hs)⟩
  case repeated =>
    intro constructs c c' hconstructs htwo hc hc' hid
    rw [except_fails_iff]
    rintro ⟨r, hr⟩
    have hdistinct := nodup_ids_of_load hr hconstructs
    -- Both constructs stay when the others are dropped, and so their ids repeat.
    have hids := (htwo.filter Json.isStruct).map (·.getString? "id")
    rw [List.filter_cons_of_pos hc, List.filter_cons_of_pos hc', List.filter_nil] at hids
    have htwoIds := hdistinct.sublist hids
    simp [hid] at htwoIds

/-! ### The shop, rearranged -/

/-- The constructs of `shopBundle`. -/
def shopConstructs : List Json := (shopBundle.getArray? "constructs").getD []

/-- `shopBundle` with its declarations in the other order and placed in a file, behind a
construct of another kind that has the id of one of them. -/
def rearrangedShop : Json := .obj [
  ("constructs", .arr (.obj [("id", .str "Order"), ("kind", .str "Widget")] ::
    shopConstructs.reverse.map (Json.withProvenance "shop.graft" 7))),
  ("graft", .str "2"),
  ("id", .str "shop")]

/-- `shopBundle` with every declaration twice. -/
def repeatedShop : Json := .obj [
  ("constructs", .arr (shopConstructs ++ shopConstructs)),
  ("id", .str "shop")]

/-- `shopBundle` and `rearrangedShop` are `Alike`. -/
theorem alike_rearrangedShop : Bundle.Alike shopBundle rearrangedShop := by
  have hobjects : ∀ c ∈ shopConstructs.reverse, c.asObject?.isSome := by decide +kernel
  have hplaced : List.Forall₂ Json.SameButProvenance shopConstructs.reverse
      (shopConstructs.reverse.map (Json.withProvenance "shop.graft" 7)) := by
    rw [List.forall₂_map_right_iff, List.forall₂_same]
    exact fun c hc => Json.sameButProvenance_withProvenance (hobjects c hc)
  have hreversed : Bundle.Rearranged shopConstructs shopConstructs.reverse :=
    .reordered (List.reverse_perm _).symm
  refine ⟨rfl, shopConstructs, _, rfl, rfl, hreversed.trans (.trans (.rewritten hplaced) ?_)⟩
  exact @Bundle.Rearranged.putIn [] _ _ rfl (by decide +kernel)

/-- `rearrangedShop` is loaded as the shop, which has the structs that it declares, and
`repeatedShop`, which declares them twice, fails. -/
theorem load_rearranged_shop : Bundle.Alike shopBundle rearrangedShop ∧
    load rearrangedShop {} = .ok shop ∧
    (∃ structs, structs.Perm shop.structs ∧
      List.Forall₂ (fun c s => c.Declares s ∧ c.getString? "id" = some s.name)
        (shopConstructs.filter Json.isStruct) structs ∧
      ∀ s ∈ structs, shop.find? s.name = some s) ∧
    ∃ e, load repeatedShop {} = .error e := by
  refine ⟨alike_rearrangedShop, ?_, ?_, ?_⟩
  · obtain ⟨r, hr, hr'⟩ | ⟨e, -, he, -⟩ := (load_rearranged shopBundle {}).1 _ alike_rearrangedShop
    · rw [load_shopBundle] at hr
      rw [hr', hr]
    · rw [load_shopBundle] at he
      cases he
  · obtain ⟨constructs, hconstructs, hkept⟩ := (load_rearranged shopBundle {}).2.1 _ load_shopBundle
    have hsame : shopConstructs = constructs := by
      rw [shopConstructs, hconstructs, Option.getD_some]
    exact hsame ▸ hkept
  · obtain ⟨c, hc, hstruct⟩ : ∃ c ∈ shopConstructs, c.isStruct := by decide +kernel
    have htwice : [c, c].Sublist (shopConstructs ++ shopConstructs) :=
      (List.singleton_sublist.mpr hc).append (List.singleton_sublist.mpr hc)
    exact (load_rearranged repeatedShop {}).2.2 _ c c rfl htwice hstruct hstruct rfl

end Registry

end EntityRules
