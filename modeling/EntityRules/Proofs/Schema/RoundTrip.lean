import EntityRules.Proofs.Schema.Leaves
import EntityRules.Proofs.Schema.Readable
import EntityRules.Schema.Form

/-!
# `EntityRules.Proofs.Schema.RoundTrip`: structs read back from their declarations

A declaration is read in two steps, first its shape (`StructDecl`) and then its
tables. `toDecl` is the shape that a struct is written in, and each part of a
readable struct is read back from its JSON with its leaves made canonical.

* `StructDecl.ofJson_toJson`: the declaration of a struct has the shape of the
  struct.
* `Struct.ofDecl_toDecl`: a readable struct is understood from its shape.
-/

set_option autoImplicit false

namespace EntityRules

open Proofs

/-! ### Shapes -/

/-- `d.toDecl`: the shape in which the field is declared. -/
def Field.toDecl (d : Field) : FieldDecl := ⟨d.type.name, d.target?, d.default.map Leaf.toJson⟩

/-- `s.toDecl`: the shape in which the struct is declared. -/
def Struct.toDecl (s : Struct) : StructDecl where
  id := s.name
  fields := s.fields.entries.map fun e => (e.1, e.2.toDecl)
  unique := s.unique
  permissions := some s.permissions.toJson
  effects := some (.ofMembers (s.effects.map fun e => (e.name, e.toJson)))
  checks := some (.ofMembers (s.checks.map fun c => (c.name, c.toJson)))
  location := none

/-- `kind.name` is not the type of a reference. -/
theorem LeafKind.name_ne_other (kind : LeafKind) : kind.name ≠ "other" := by
  cases kind <;> decide

/-- `readField` reads the `toJson` of a field as its `toDecl`. -/
theorem StructDecl.readField_toJson (id name : String) (d : Field) :
    readField id name d.toJson = .ok d.toDecl := by
  -- A default that is `null` would count as left out.
  have hnull : ∀ leaf : Leaf, (if leaf.toJson.isNull then none else some leaf.toJson) =
      some leaf.toJson := fun leaf => by simp
  obtain ⟨type, default⟩ := d
  cases type with
  | reference target =>
      cases default with
      | none => rfl
      | some leaf =>
          show Except.ok (FieldDecl.mk "other" (some target) _) = _
          exact congrArg (fun v => Except.ok (FieldDecl.mk "other" (some target) v)) (hnull leaf)
  | primitive kind =>
      have hother : ¬ (kind.name = "other" ∧ (none : Option String).isNone) := fun h =>
        kind.name_ne_other h.1
      cases default with
      | none => exact if_neg hother
      | some leaf =>
          refine (if_neg hother).trans ?_
          exact congrArg (fun v => Except.ok (FieldDecl.mk kind.name none v)) (hnull leaf)

/-- `readFields` reads the `toJson` of each field as its `toDecl`. -/
theorem StructDecl.readFields_toJson (id : String) (fields : List (String × Field)) :
    readFields id (fields.map fun e => (e.1, e.2.toJson)) =
      .ok (fields.map fun e => (e.1, e.2.toDecl)) := by
  induction fields with
  | nil => rfl
  | cons e rest ih =>
      rw [List.map_cons, readFields, readField_toJson, ih]
      rfl

/-- `readGroup` reads the uniqueness groups as they are. -/
theorem StructDecl.mapM_readGroup (id : String) (groups : List (List String)) :
    (groups.map Json.ofStrings).mapM (readGroup id) = .ok groups := by
  have hgroups : groups.map (fun group => group) = groups := List.map_id' groups
  refine (mapM_map_eq_ok fun group _ => ?_).trans (congrArg Except.ok hgroups)
  have hnames : group.map (fun name => name) = group := List.map_id' group
  rw [Json.ofStrings, readGroup]
  dsimp only [Json.asArray?]
  refine (mapM_map_eq_ok fun name _ => ?_).trans (congrArg Except.ok hnames)
  rfl

/-- `ofJson` reads the `toJson` of a struct as its `toDecl`. -/
theorem StructDecl.ofJson_toJson (s : Struct) : ofJson s.toJson = .ok s.toDecl := by
  have hunique : readUnique s.name s.toJson = .ok s.unique := mapM_readGroup s.name s.unique
  have hid : s.toJson.getString? "id" = some s.name := rfl
  have hfields : (s.toJson.get? "fields").bind Json.asObject? =
      some (s.fields.entries.map fun e => (e.1, e.2.toJson)) := rfl
  rw [ofJson, hid]
  dsimp only
  rw [hfields]
  dsimp only
  rw [readFields_toJson, hunique]
  rfl

/-! ### Tables -/

/-- `readTable` reads a table back if `readEntry` reads every entry back. -/
theorem readTable_obj {α β : Type} {table : String} {readEntry : String → Json → Except ReadError β}
    {l : List α} {key : α → String} {write : α → Json} {result : α → β}
    (h : ∀ a ∈ l, readEntry (key a) (write a) = .ok (result a)) :
    readTable table (.obj (l.map fun a => (key a, write a))) readEntry =
      .ok (l.map fun a => (key a, result a)) := by
  rw [readTable]
  dsimp only [Json.asObject?]
  refine mapM_map_eq_ok fun a ha => ?_
  dsimp only
  rw [h a ha]
  rfl

/-- `readPermissions` reads a table back if `readEntry` reads its values back. -/
theorem readPermissions_ofTable {α β : Type} {d : StructDecl} {table : String}
    {readEntry : String → Json → Except ReadError β} {t : Table String α} {write : α → Json}
    {result : α → β} (hd : d.permission? table = some (.ofTable t write))
    (h : ∀ e ∈ t.entries, readEntry e.1 (write e.2) = .ok (result e.2)) :
    readPermissions d table readEntry = .ok (t.map result) := by
  rw [readPermissions, hd]
  dsimp only
  rw [Json.ofTable, readTable_obj h]
  exact congrArg Except.ok (t.map result).ofList_entries

/-- `readRules` reads a table of rules in name order back if `readEntry` reads the rules
back. -/
theorem readRules_ofMembers {α : Type} {table : String}
    {readEntry : String → Json → Except ReadError α} {rules : List α} {name : α → String}
    {write : α → Json} {result : α → α} (hsorted : rules.Pairwise fun a b => name a < name b)
    (h : ∀ a ∈ rules, readEntry (name a) (write a) = .ok (result a)) :
    readRules table (some (.ofMembers (rules.map fun a => (name a, write a)))) readEntry =
      .ok (rules.map result) := by
  -- The names are in order before and after, so both tables keep their entries.
  have hentries {γ : Type} (g : α → γ) :
      (Table.ofList (rules.map fun a => (name a, g a))).entries =
        rules.map fun a => (name a, g a) :=
    Table.entries_ofList (List.pairwise_map.mpr hsorted)
  rw [readRules.eq_def]
  dsimp only
  rw [Json.ofMembers, hentries, readTable_obj h]
  show Except.ok (Table.ofList (rules.map fun a => (name a, result a))).values = _
  rw [Table.values, hentries, List.map_map]
  rfl

/-- `readPaths` reads `Readable` paths back from their `listToJson`. -/
theorem readPaths_listToJson {list : String} {paths : List Path} (h : ∀ p ∈ paths, p.Readable) :
    readPaths list (some (Path.listToJson paths)) = .ok paths :=
  Path.parseList_listToJson h

/-! ### Parts of a struct -/

/-- `ofDecl` reads a `Readable` field back from its `toDecl`. -/
theorem Field.ofDecl_toDecl {name : String} {d : Field} (hd : d.Readable) :
    ofDecl name d.toDecl = .ok (d.mapLeaves Leaf.canonical) := by
  obtain ⟨type, default⟩ := d
  have htype : FieldType.ofDecl name (toDecl ⟨type, default⟩) = .ok type := by
    cases type with
    | reference target => rfl
    | primitive kind =>
        have hname : (toDecl ⟨.primitive kind, default⟩).type = kind.name := rfl
        rw [FieldType.ofDecl, hname, if_neg kind.name_ne_other, LeafKind.ofName?_name]
  rw [ofDecl, htype, except_bind_ok]
  cases default with
  | none => rfl
  | some leaf =>
      -- A field with a default is no reference, and the kinds agree.
      obtain rfl : type = .primitive leaf.kind := hd leaf rfl
      show ((Leaf.ofJson leaf.kind leaf.toJson).map some >>= fun value => _) = _
      rw [leaf.ofJson_toJson]
      rfl

/-- `ofJson` reads an ownership rule back from its `toJson`, also if its guard was left
out in the reading before. -/
theorem OwnershipRule.ofJson_toJson {rule : OwnershipRule} (h : rule.guard.Readable) :
    ofJson rule.toJson = .ok (rule.mapLeaves Leaf.canonical) := by
  have hfield : rule.toJson.getString? "field" = some rule.field := rfl
  have hguard : rule.toJson.getNonNull? "guard" = some rule.guard.toJson := by
    show (if rule.guard.toJson.isNull then none else some rule.guard.toJson) = _
    rw [Expr.isNull_toJson]
    rfl
  rw [ofJson, hfield]
  dsimp only
  rw [hguard]
  dsimp only
  rw [Expr.ofJson_toJson h]
  rfl

/-- `ofJson` reads a `Readable` borrow rule back from its `toJson`. -/
theorem BorrowRule.ofJson_toJson {field : String} {rule : BorrowRule} (h : rule.Readable) :
    ofJson field rule.toJson = .ok (rule.mapLeaves Leaf.canonical) := by
  have hname : rule.toJson.getString? "name" = some rule.name := rfl
  have hprove : rule.toJson.get? "prove" = some rule.prove.toJson := rfl
  have hpaths : rule.toJson.get? "ownership" = some (Path.listToJson rule.ownership) := rfl
  rw [ofJson, hname, hprove]
  dsimp only
  rw [Expr.ofJson_toJson h.prove, except_bind_ok, hpaths]
  dsimp only
  rw [Path.parseList_listToJson h.paths]
  rfl

/-- `ofJson` reads a `Readable` grant back from its `toJson`. -/
theorem Grant.ofJson_toJson {field : String} {grant : Grant} (h : grant.Readable) :
    ofJson field grant.toJson = .ok grant := by
  have hread : grant.toJson.get? "read" = some (Path.listToJson grant.read) := rfl
  have hwrite : grant.toJson.get? "write" = some (Path.listToJson grant.write) := rfl
  rw [ofJson, hread, hwrite, readPaths_listToJson h.read, readPaths_listToJson h.write]
  rfl

/-- `ofDecl` reads `Readable` permissions back from the `toDecl` of their struct. -/
theorem Permissions.ofDecl_toDecl {s : Struct} (h : s.permissions.Readable) :
    ofDecl s.toDecl = .ok (s.permissions.mapLeaves Leaf.canonical) := by
  have hownership : OwnershipRule.listOfJson (s.toDecl.permission? "ownership") =
      .ok (s.permissions.ownership.map (OwnershipRule.mapLeaves Leaf.canonical)) :=
    mapM_map_eq_ok fun rule hrule => OwnershipRule.ofJson_toJson (h.ownership rule hrule)
  have hborrow : readPermissions s.toDecl "borrow" BorrowRule.ofJson =
      .ok (s.permissions.borrow.map (BorrowRule.mapLeaves Leaf.canonical)) :=
    readPermissions_ofTable rfl fun e he => BorrowRule.ofJson_toJson (h.borrow e he)
  have hgrants : readPermissions s.toDecl "private" Grant.ofJson =
      .ok (s.permissions.grants.map fun grant => grant) :=
    readPermissions_ofTable rfl fun e he => Grant.ofJson_toJson (h.grants e he)
  have hsame : (s.permissions.grants.map fun grant => grant) = s.permissions.grants :=
    Table.map_eq_self_iff.mpr fun _ _ => rfl
  have hpublic : readPaths "'public'" (s.toDecl.permission? "public") =
      .ok s.permissions.publicPaths := readPaths_listToJson h.publicPaths
  rw [ofDecl, hownership, hborrow, hgrants, hsame, hpublic]
  rfl

/-- `ofJson` reads a `Readable` statement back from its `toJson`. -/
theorem Statement.ofJson_toJson {effect : String} {statement : Statement}
    (h : statement.Readable) :
    ofJson effect statement.toJson = .ok (statement.mapLeaves Leaf.canonical) := by
  have htarget : statement.toJson.getString? "target" = some statement.target.text := rfl
  have hexpr : statement.toJson.get? "expr" = some statement.expr.toJson := rfl
  rw [ofJson, htarget, hexpr]
  dsimp only
  rw [Path.parse_text h.target, Expr.ofJson_toJson h.expr]
  rfl

/-- `ofJson` reads a `Readable` effect back from its `toJson`, under its name. -/
theorem Effect.ofJson_toJson {effect : Effect} (h : effect.Readable) :
    ofJson effect.name effect.toJson = .ok (effect.mapLeaves Leaf.canonical) := by
  have hdependencies : effect.toJson.get? "dependencies" =
      some (Path.listToJson effect.dependencies) := rfl
  have hmutate : effect.toJson.getArray? "mutate" =
      some (effect.statements.map Statement.toJson) := rfl
  have hstatements : (effect.statements.map Statement.toJson).mapM (Statement.ofJson effect.name) =
      .ok (effect.statements.map (Statement.mapLeaves Leaf.canonical)) :=
    mapM_map_eq_ok fun statement hmem => Statement.ofJson_toJson (h.statements statement hmem)
  rw [ofJson, hdependencies, readPaths_listToJson h.dependencies, except_bind_ok, hmutate]
  dsimp only
  rw [hstatements]
  rfl

/-- `ofJson` reads a check with a `Readable` expression back from its `toJson`, under
its name. -/
theorem Check.ofJson_toJson {check : Check} (h : check.expr.Readable) :
    ofJson check.name check.toJson = .ok (check.mapLeaves Leaf.canonical) := by
  have hexpr : check.toJson.get? "expr" = some check.expr.toJson := rfl
  have herror : check.toJson.getString? "error" = some check.errorCode := rfl
  rw [ofJson, hexpr, herror]
  dsimp only
  rw [Expr.ofJson_toJson h]
  rfl

/-! ### Structs -/

/-- `ofDecl` reads a `Readable` struct back from its `toDecl`. -/
theorem Struct.ofDecl_toDecl {s : Struct} (h : s.Readable) :
    ofDecl s.toDecl = .ok (s.mapLeaves Leaf.canonical) := by
  have hfields : (s.toDecl.fields.mapM fun f => do
        let field ← Field.ofDecl f.1 f.2
        return (f.1, field)) =
      .ok (s.fields.map (Field.mapLeaves Leaf.canonical)).entries := by
    refine mapM_map_eq_ok fun e he => ?_
    dsimp only
    rw [Field.ofDecl_toDecl (h.fields e he)]
    rfl
  have heffects : readRules "effects" s.toDecl.effects Effect.ofJson =
      .ok (s.effects.map (Effect.mapLeaves Leaf.canonical)) :=
    readRules_ofMembers h.effectNames fun effect heffect =>
      Effect.ofJson_toJson (h.effects effect heffect)
  have hchecks : readRules "checks" s.toDecl.checks Check.ofJson =
      .ok (s.checks.map (Check.mapLeaves Leaf.canonical)) :=
    readRules_ofMembers h.checkNames fun check hcheck => Check.ofJson_toJson (h.checks check hcheck)
  rw [ofDecl, hfields, except_bind_ok, Permissions.ofDecl_toDecl h.permissions, except_bind_ok,
    heffects, except_bind_ok, hchecks, except_bind_ok, Table.ofList_entries]
  rfl

end EntityRules
