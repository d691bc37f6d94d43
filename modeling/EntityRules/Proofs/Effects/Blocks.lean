import EntityRules.Effects
import EntityRules.Proofs.Schema.Reload

/-!
# `EntityRules.Proofs.Effects.Blocks`: the report of the effects is made of blocks

Every effect of a struct comes to something by itself: to the mutations of its
block, or to a fault, or, where it does not fire, to nothing. `Effect.Yields`
says to what, statement by statement, and without the loop that runs the effects.

* `Effect.yields_iff`: what an effect comes to is what the program computes for
  it, and nothing else.
* `Effect.mutations_foldl_run`, `Effect.find?_failures_foldl_run`: a run over a
  list of effects puts their blocks one behind the other and keeps the fault of
  each under its name.
* `Registry.effectsReport_blocks`: the report of a struct is exactly this, and
  the block of an effect is the same whatever the other effects of the struct
  are.

The names of the effects have to be distinct, because a fault is kept under the
name of its effect. A loaded struct has its effects in name order
(`Registry.nodup_effectNames_of_load`).
-/

set_option autoImplicit false

namespace EntityRules

open Proofs

/-! ### Statements -/

namespace Statement

variable {resolver : Resolver} {s : Statement}

/-- `s.Gives resolver value reads`: in an environment that is built for it alone, the
statement gives `value`, and `reads` are the paths that were read for it. -/
def Gives (resolver : Resolver) (s : Statement) (value : Leaf) (reads : List Path) : Prop :=
  ∃ env, resolver.environmentFor s.expr = .ok env ∧
    (s.expr.eval env).result = .ok value ∧ (s.expr.eval env).recorded = reads

/-- `s.Fails resolver fault`: the environment of the statement cannot be built, or its
expression fails there. -/
def Fails (resolver : Resolver) (s : Statement) (fault : EvalError) : Prop :=
  resolver.environmentFor s.expr = .error fault ∨
    ∃ env, resolver.environmentFor s.expr = .ok env ∧ (s.expr.eval env).result = .error fault

/-- `mutation` succeeds when the statement `Gives` the value; it has the name of the
effect and the target of the statement. -/
theorem mutation_eq_ok_iff {effect : String} {m : Mutation} :
    s.mutation resolver effect = .ok m ↔
      m.effect = effect ∧ m.target = s.target ∧ s.Gives resolver m.value m.reads := by
  simp only [mutation, Resolver.evaluate, Gives, except_map_eq_ok]
  cases resolver.environmentFor s.expr with
  | error fault => simp
  | ok env =>
      constructor
      · rintro ⟨value, hvalue, rfl⟩
        exact ⟨rfl, rfl, env, rfl, hvalue, rfl⟩
      · rintro ⟨heffect, htarget, env', henv, hvalue, hreads⟩
        cases henv
        refine ⟨m.value, hvalue, ?_⟩
        rw [← heffect, ← htarget]
        exact congrArg (Mutation.mk m.effect m.target m.value) hreads

/-- `mutation` fails when the statement `Fails`. -/
theorem mutation_eq_error_iff {effect : String} {fault : EvalError} :
    s.mutation resolver effect = .error fault ↔ s.Fails resolver fault := by
  have hmap : ∀ (x : Except EvalError Leaf) (f : Leaf → Mutation),
      x.map f = .error fault ↔ x = .error fault := by
    intro x f
    cases x with
    | error e => simp [Except.map]
    | ok value => simp [Except.map]
  simp only [mutation, Resolver.evaluate, Fails, hmap]
  cases resolver.environmentFor s.expr with
  | error e => simp
  | ok env => simp

/-- `mutation` succeeds exactly when the statement `Gives` something. -/
theorem exists_mutation_iff {effect : String} :
    (∃ m, s.mutation resolver effect = .ok m) ↔ ∃ value reads, s.Gives resolver value reads := by
  simp only [mutation_eq_ok_iff]
  constructor
  · rintro ⟨m, -, -, hgives⟩
    exact ⟨m.value, m.reads, hgives⟩
  · rintro ⟨value, reads, hgives⟩
    exact ⟨⟨effect, s.target, value, reads⟩, rfl, rfl, hgives⟩

end Statement

/-! ### Effects -/

namespace Effect

variable {resolver : Resolver} {event : Event} {changed : Option PathSet} {e : Effect}

/-- `e.Yields resolver event changed block fault`: the effect comes to the mutations of
`block` and to `fault`, if to any, statement by statement. -/
inductive Yields (resolver : Resolver) (event : Event) (changed : Option PathSet) (e : Effect) :
    List Mutation → Option EvalError → Prop
  /-- An effect that does not fire comes to nothing. -/
  | idle : e.fires event changed = false → Yields resolver event changed e [] none
  /-- If every running statement gives a value, each makes one mutation, in the
  order of the statements. -/
  | applied {block : List Mutation} : e.fires event changed = true →
      List.Forall₂
        (fun s m => m.effect = e.name ∧ m.target = s.target ∧ s.Gives resolver m.value m.reads)
        (e.running event) block →
      Yields resolver event changed e block none
  /-- If a running statement fails, what came before it is dropped, and its fault
  is that of the effect. -/
  | dropped {before after : List Statement} {s : Statement} {fault : EvalError} :
      e.fires event changed = true → e.running event = before ++ s :: after →
      (∀ b ∈ before, ∃ value reads, b.Gives resolver value reads) → s.Fails resolver fault →
      Yields resolver event changed e [] (some fault)

/-- `block` succeeds when every running statement `Gives` a value. -/
theorem block_eq_ok_iff {block : List Mutation} :
    e.block resolver event = .ok block ↔
      List.Forall₂
        (fun s m => m.effect = e.name ∧ m.target = s.target ∧ s.Gives resolver m.value m.reads)
        (e.running event) block := by
  simp only [Effect.block, mapM_eq_ok_iff, Statement.mutation_eq_ok_iff]

/-- `block` has the fault of the first running statement that `Fails`. -/
theorem block_eq_error_iff {fault : EvalError} :
    e.block resolver event = .error fault ↔
      ∃ before s after, e.running event = before ++ s :: after ∧
        (∀ b ∈ before, ∃ value reads, b.Gives resolver value reads) ∧ s.Fails resolver fault := by
  simp only [Effect.block, mapM_eq_error_iff, Statement.exists_mutation_iff,
    Statement.mutation_eq_error_iff]

/-- `e.outcome`: what the program finds for one effect. -/
def outcome (resolver : Resolver) (event : Event) (changed : Option PathSet) (e : Effect) :
    Except EvalError (List Mutation) :=
  if e.fires event changed then e.block resolver event else .ok []

/-- `e.written`: the mutations that are found for one effect. -/
def written (resolver : Resolver) (event : Event) (changed : Option PathSet) (e : Effect) :
    List Mutation :=
  match e.outcome resolver event changed with
  | .ok block => block
  | .error _ => []

/-- `e.fault?`: the fault that is found for one effect, if it has one. -/
def fault? (resolver : Resolver) (event : Event) (changed : Option PathSet) (e : Effect) :
    Option EvalError :=
  match e.outcome resolver event changed with
  | .ok _ => none
  | .error fault => some fault

/-- `Yields` holds of what is found for an effect, `written` and `fault?`, and of
nothing else. -/
theorem yields_iff {block : List Mutation} {fault : Option EvalError} :
    e.Yields resolver event changed block fault ↔
      e.written resolver event changed = block ∧ e.fault? resolver event changed = fault := by
  constructor
  · intro h
    cases h with
    | idle hfires => simp [written, fault?, outcome, hfires]
    | applied hfires hblock => simp [written, fault?, outcome, hfires, block_eq_ok_iff.mpr hblock]
    | dropped hfires hsplit hbefore hfails =>
        have hfault := block_eq_error_iff.mpr ⟨_, _, _, hsplit, hbefore, hfails⟩
        simp [written, fault?, outcome, hfires, hfault]
  · rintro ⟨rfl, rfl⟩
    rw [written, fault?, outcome]
    -- An effect that fires writes its whole block, or stops at the first failure.
    cases hfires : e.fires event changed with
    | false => exact .idle hfires
    | true =>
        rw [if_pos rfl]
        cases hblock : e.block resolver event with
        | ok block => exact .applied hfires (block_eq_ok_iff.mp hblock)
        | error fault =>
            obtain ⟨before, s, after, hsplit, hbefore, hfails⟩ := block_eq_error_iff.mp hblock
            exact .dropped hfires hsplit hbefore hfails

/-- What is found for an effect is what it `Yields`. -/
theorem yields (e : Effect) : e.Yields resolver event changed
    (e.written resolver event changed) (e.fault? resolver event changed) :=
  yields_iff.mpr ⟨rfl, rfl⟩

/-- `Yields` gives mutations under the name of the effect only. -/
theorem Yields.effect_eq {block : List Mutation} {fault : Option EvalError}
    (h : e.Yields resolver event changed block fault) {m : Mutation} (hm : m ∈ block) :
    m.effect = e.name := by
  cases h with
  | idle hfires => cases hm
  | applied hfires hblock =>
      have hname : ∀ s m, Statement.mutation resolver e.name s = .ok m → m.effect = e.name :=
        fun s m hmutation => (Statement.mutation_eq_ok_iff.mp hmutation).1
      exact forall_mem_of_mapM_eq_ok (block_eq_ok_iff.mpr hblock) hname m hm
  | dropped hfires hsplit hbefore hfails => cases hm

/-- `Yields` gives no mutations beside a fault. -/
theorem Yields.eq_nil_of_fault {block : List Mutation} {fault : EvalError}
    (h : e.Yields resolver event changed block (some fault)) : block = [] := by
  cases h with
  | dropped hfires hsplit hbefore hfails => rfl

/-! ### One effect after another -/

/-- `run` takes the `outcome` of the effect into the report; that is nothing for an
effect that does not fire. -/
theorem run_eq_absorb (report : EffectsReport) :
    run resolver event changed report e =
      report.absorb e.name (e.outcome resolver event changed) := by
  rw [run, outcome]
  cases e.fires event changed with
  | false => simp [EffectsReport.absorb]
  | true => rfl

/-- `run` adds the mutations that are `written`. -/
theorem mutations_run (report : EffectsReport) :
    (run resolver event changed report e).mutations =
      report.mutations ++ e.written resolver event changed := by
  rw [run_eq_absorb, written]
  cases e.outcome resolver event changed with
  | ok block => rfl
  | error fault => simp [EffectsReport.absorb]

/-- `run` changes what is known under the name of the effect only. -/
theorem find?_failures_run (report : EffectsReport) (name : String) :
    (run resolver event changed report e).failures.find? name =
      ((if name = e.name then e.fault? resolver event changed else none) <|>
        report.failures.find? name) := by
  rw [run_eq_absorb, fault?]
  cases e.outcome resolver event changed with
  | ok block => simp [EffectsReport.absorb]
  | error fault =>
      simp only [EffectsReport.absorb, Table.find?_insert]
      split
      · rfl
      · rfl

/-- `run` over a list of effects puts what they have `written` one behind the other. -/
theorem mutations_foldl_run (effects : List Effect) (report : EffectsReport) :
    (effects.foldl (run resolver event changed) report).mutations =
      report.mutations ++ effects.flatMap (written resolver event changed) := by
  induction effects generalizing report with
  | nil => simp
  | cons e rest ih =>
      rw [List.foldl_cons, ih, mutations_run, List.flatMap_cons, List.append_assoc]

/-- `run` over a list of effects keeps what is known under a name that none of them has.
-/
theorem find?_failures_foldl_run_of_not_mem {effects : List Effect} {name : String}
    (h : name ∉ effects.map (·.name)) (report : EffectsReport) :
    (effects.foldl (run resolver event changed) report).failures.find? name =
      report.failures.find? name := by
  induction effects generalizing report with
  | nil => rfl
  | cons e rest ih =>
      rw [List.map_cons, List.mem_cons, not_or] at h
      rw [List.foldl_cons, ih h.2, find?_failures_run, if_neg h.1]
      rfl

/-- `run` over effects with distinct names keeps the `fault?` of each. -/
theorem find?_failures_foldl_run {effects : List Effect} (hnames : (effects.map (·.name)).Nodup)
    (he : e ∈ effects) (report : EffectsReport) :
    (effects.foldl (run resolver event changed) report).failures.find? e.name =
      (e.fault? resolver event changed <|> report.failures.find? e.name) := by
  induction effects generalizing report with
  | nil => cases he
  | cons first rest ih =>
      rw [List.map_cons, List.nodup_cons] at hnames
      rw [List.foldl_cons]
      rcases List.mem_cons.mp he with rfl | he
      · rw [find?_failures_foldl_run_of_not_mem hnames.1, find?_failures_run, if_pos rfl]
      · have hother : e.name ≠ first.name := by
          intro hname
          exact hnames.1 (hname ▸ List.mem_map_of_mem he)
        rw [ih hnames.2 he, find?_failures_run, if_neg hother]
        rfl

/-- Where names are distinct, the mutations under the name of `e` are those that `e` has
`written`. -/
theorem filter_flatMap_written {effects : List Effect} (hnames : (effects.map (·.name)).Nodup)
    (he : e ∈ effects) :
    (effects.flatMap (written resolver event changed)).filter (fun m => m.effect = e.name) =
      e.written resolver event changed := by
  have hsame : (e.written resolver event changed).filter (fun m => m.effect = e.name) =
      e.written resolver event changed := by
    rw [List.filter_eq_self]
    intro m hm
    simpa using e.yields.effect_eq hm
  have hother : ∀ e' : Effect, e'.name ≠ e.name →
      (e'.written resolver event changed).filter (fun m => m.effect = e.name) = [] := by
    intro e' hne
    rw [List.filter_eq_nil_iff]
    intro m hm
    rw [e'.yields.effect_eq hm]
    simpa using hne
  induction effects with
  | nil => cases he
  | cons first rest ih =>
      rw [List.map_cons, List.nodup_cons] at hnames
      rw [List.flatMap_cons, List.filter_append]
      rcases List.mem_cons.mp he with rfl | he
      -- The effect is the first one: the others have other names.
      · have hrest : (rest.flatMap (written resolver event changed)).filter
            (fun m => m.effect = e.name) = [] := by
          rw [List.filter_flatMap, List.flatMap_eq_nil_iff]
          intro e' he'
          exact hother e' fun hname => hnames.1 (hname ▸ List.mem_map_of_mem he')
        rw [hsame, hrest, List.append_nil]
      -- It is one of the rest: the first one has another name.
      · have hfirst : first.name ≠ e.name := by
          intro hname
          exact hnames.1 (hname ▸ List.mem_map_of_mem he)
        rw [hother first hfirst, ih hnames.2 he, List.nil_append]

end Effect

/-! ### Answers -/

namespace Registry

variable {r r' : Registry} {s s' : Struct}

/-- `r.FieldsAgree r'`: the registries have structs of the same names, and structs of
the same name have the same fields. -/
def FieldsAgree (r r' : Registry) : Prop :=
  ∀ name, (r'.find? name).map Struct.fields = (r.find? name).map Struct.fields

/-- `findField?` finds the same fields in registries that agree on them. -/
theorem FieldsAgree.findField?_eq (hr : r.FieldsAgree r') (hs : s'.fields = s.fields)
    (segments : List String) : r'.findField? s' segments = r.findField? s segments := by
  have hfield : ∀ {t t' : Struct}, t'.fields = t.fields → t'.field? = t.field? := by
    intro t t' h
    funext name
    rw [Struct.field?, Struct.field?, h]
  induction segments generalizing s s' with
  | nil => rfl
  | cons segment rest ih =>
      cases rest with
      | nil => exact congrFun (hfield hs) segment
      | cons next rest =>
          have htarget : s'.target? segment = s.target? segment := by
            rw [Struct.target?, Struct.target?, hfield hs]
          rw [findField?, findField?, hop?, hop?, htarget]
          · cases s.target? segment with
            | none => rfl
            | some name =>
                -- Both hops lead nowhere, or to structs with the same fields.
                have hfields := hr name
                rw [Option.bind_some, Option.bind_some]
                cases hfound : r.find? name with
                | none =>
                    rw [hfound, Option.map_none, Option.map_eq_none_iff] at hfields
                    rw [hfields]
                    rfl
                | some t =>
                    rw [hfound, Option.map_some, Option.map_eq_some_iff] at hfields
                    obtain ⟨t', hfound', hfields⟩ := hfields
                    rw [hfound']
                    exact ih hfields
          · exact List.cons_ne_nil next rest
          · exact List.cons_ne_nil next rest

/-- `withDefaults` answers the same in registries that agree on the fields. -/
theorem FieldsAgree.withDefaults_eq (hr : r.FieldsAgree r') (hs : s'.fields = s.fields)
    (resolver : Resolver) : resolver.withDefaults r' s' = resolver.withDefaults r s := by
  funext p
  rw [Resolver.withDefaults, Resolver.withDefaults, default?, default?, hr.findField?_eq hs]

/-! ### The report -/

/-- `load` gives the effects of a struct distinct names. -/
theorem nodup_effectNames_of_load {v : Json} {config : Config} (h : load v config = .ok r)
    (hs : s ∈ r.structs) : (s.effects.map (·.name)).Nodup :=
  nodup_map_of_pairwise_lt ((readable_of_load h).2 s hs).effectNames

section Report

variable (r s) (event : Event) (resolver : Resolver) (changed : Option PathSet)

/-- The mutations of `effectsReport` are those that the effects have `written`, with the
defaults of the struct. -/
theorem mutations_effectsReport : (r.effectsReport s event resolver changed).mutations =
    s.effects.flatMap (·.written (resolver.withDefaults r s) event changed) :=
  Effect.mutations_foldl_run s.effects .start

variable {r s} {e : Effect}

/-- Under the name of `e`, `effectsReport` has the mutations that `e` has `written`. -/
theorem filter_mutations_effectsReport (hnames : (s.effects.map (·.name)).Nodup)
    (he : e ∈ s.effects) :
    (r.effectsReport s event resolver changed).mutations.filter (fun m => m.effect = e.name) =
      e.written (resolver.withDefaults r s) event changed := by
  rw [mutations_effectsReport, Effect.filter_flatMap_written hnames he]

/-- Under the name of `e`, `effectsReport` has the `fault?` of `e` as a failure. -/
theorem find?_failures_effectsReport (hnames : (s.effects.map (·.name)).Nodup)
    (he : e ∈ s.effects) :
    (r.effectsReport s event resolver changed).failures.find? e.name =
      e.fault? (resolver.withDefaults r s) event changed := by
  rw [effectsReport, Effect.find?_failures_foldl_run hnames he]
  simp [EffectsReport.start]

end Report

/-- The report of the effects of a struct, block by block. Its mutations are those of
each effect, in the order of the effects, and its failures are the faults of the effects
under their names; what an effect comes to, statement by statement, is what it `Yields`.
No effect has both, and what an effect comes to is the same for a struct with other
effects, in another registry that `FieldsAgree` with the first. -/
theorem effectsReport_blocks :
    (∀ (v : Json) (config : Config) (r : Registry), load v config = .ok r →
      ∀ s ∈ r.structs, (s.effects.map (·.name)).Nodup) ∧
    ∀ (r : Registry) (s : Struct) (event : Event) (resolver : Resolver) (changed : Option PathSet),
      (s.effects.map (·.name)).Nodup →
        let answers := resolver.withDefaults r s
        let report := r.effectsReport s event resolver changed
        report.mutations = s.effects.flatMap (·.written answers event changed) ∧
        (∀ e ∈ s.effects,
          (∀ block fault, e.Yields answers event changed block fault ↔
            e.written answers event changed = block ∧ e.fault? answers event changed = fault) ∧
          report.mutations.filter (fun m => m.effect = e.name) =
            e.written answers event changed ∧
          report.failures.find? e.name = e.fault? answers event changed) ∧
        (∀ name, name ∉ s.effects.map (·.name) → report.failures.find? name = none) ∧
        (∀ m ∈ report.mutations, report.failures.find? m.effect = none) ∧
        ∀ (r' : Registry) (s' : Struct), r.FieldsAgree r' → s'.fields = s.fields →
          (s'.effects.map (·.name)).Nodup → ∀ e ∈ s.effects, e ∈ s'.effects →
            let report' := r'.effectsReport s' event resolver changed
            report'.mutations.filter (fun m => m.effect = e.name) =
              report.mutations.filter (fun m => m.effect = e.name) ∧
            report'.failures.find? e.name = report.failures.find? e.name := by
  refine ⟨fun v config r h s hs => nodup_effectNames_of_load h hs, ?_⟩
  intro r s event resolver changed hnames answers report
  have hblock : ∀ e ∈ s.effects,
      report.mutations.filter (fun m => m.effect = e.name) = e.written answers event changed :=
    fun e he => filter_mutations_effectsReport event resolver changed hnames he
  have hfault : ∀ e ∈ s.effects,
      report.failures.find? e.name = e.fault? answers event changed :=
    fun e he => find?_failures_effectsReport event resolver changed hnames he
  have hmutations : report.mutations = s.effects.flatMap (·.written answers event changed) :=
    mutations_effectsReport r s event resolver changed
  refine ⟨hmutations, fun e he => ⟨fun block fault => Effect.yields_iff, hblock e he, hfault e he⟩,
    fun name hname => ?_, fun m hm => ?_, ?_⟩
  · exact Effect.find?_failures_foldl_run_of_not_mem hname .start
  · rw [hmutations, List.mem_flatMap] at hm
    obtain ⟨e, he, hm⟩ := hm
    have hyields : e.Yields answers event changed _ _ := e.yields
    rw [hyields.effect_eq hm, hfault e he]
    -- A fault would leave the effect without the mutation.
    cases hfaulty : e.fault? answers event changed with
    | none => rfl
    | some fault =>
        rw [hfaulty] at hyields
        rw [hyields.eq_nil_of_fault] at hm
        cases hm
  · intro r' s' hr hs hnames' e he he' report'
    have hanswers : resolver.withDefaults r' s' = answers := hr.withDefaults_eq hs resolver
    rw [hblock e he, hfault e he, ← hanswers]
    exact ⟨filter_mutations_effectsReport event resolver changed hnames' he',
      find?_failures_effectsReport event resolver changed hnames' he'⟩

/-- The declaration of a ledger whose amount is zero by default. One effect copies
the amount, the other counts it and then divides by it. -/
def ledgerBundle : Json := .obj [
  ("constructs", .arr [.obj [
    ("effects", .obj [
      ("copy", .obj [("mutate", .arr [
        .obj [("expr", Expr.form "path" "ref" [.str "_curr.amount"]),
          ("target", .str "_curr.total")]])]),
      ("share", .obj [("mutate", .arr [
        .obj [("expr", Expr.form "add" "number" [
            Expr.form "path" "ref" [.str "_curr.amount"], Expr.form "literal" "number" [.int 1]]),
          ("target", .str "_curr.count")],
        .obj [("expr", Expr.form "divide" "number" [
            Expr.form "literal" "number" [.int 6], Expr.form "path" "ref" [.str "_curr.amount"]]),
          ("target", .str "_curr.share")]])])]),
    ("fields", .obj [
      ("amount", .obj [("default", .int 0), ("type", .str "number")]),
      ("count", .obj [("type", .str "number")]),
      ("share", .obj [("type", .str "number")]),
      ("total", .obj [("type", .str "number")])]),
    ("id", .str "Ledger"),
    ("kind", .str "Struct")]]),
  ("id", .str "books")]

/-- When an entity of `ledgerBundle` is created without values, the count is made and
dropped because the division fails after it, and the copy is made all the same. -/
theorem effectsReport_blocks_ledger : ∃ r s, load ledgerBundle {} = .ok r ∧ s ∈ r.structs ∧
    (s.effects.map (·.name)).Nodup ∧
    let report := r.effectsReport s .create (fun _ => none) none
    report.mutations =
      [⟨"copy", ⟨["_curr", "total"]⟩, .number .zero, [⟨["_curr", "amount"]⟩]⟩] ∧
    report.failures.find? "share" = some (.arithmetic (.byZero .divide)) ∧
    report.failures.find? "copy" = none := by
  have hread : ∃ r s copy share, load ledgerBundle {} = .ok r ∧ s ∈ r.structs ∧
      s.effects = [copy, share] ∧ copy.name = "copy" ∧ share.name = "share" ∧
      [copy, share].flatMap (·.written (Resolver.withDefaults (fun _ => none) r s) .create none) =
        [⟨"copy", ⟨["_curr", "total"]⟩, .number .zero, [⟨["_curr", "amount"]⟩]⟩] ∧
      share.fault? (Resolver.withDefaults (fun _ => none) r s) .create none =
        some (.arithmetic (.byZero .divide)) :=
    ⟨_, _, _, _, rfl, List.mem_singleton_self _, rfl, rfl, rfl, rfl, rfl⟩
  obtain ⟨r, s, copy, share, hload, hs, heffects, hcopy, hshare, hwritten, hfault⟩ := hread
  have hnames := effectsReport_blocks.1 ledgerBundle {} r hload s hs
  obtain ⟨hmutations, heach, -, hclean, -⟩ :=
    effectsReport_blocks.2 r s .create (fun _ => none) none hnames
  rw [heffects, hwritten] at hmutations
  refine ⟨r, s, hload, hs, hnames, hmutations, ?_, ?_⟩
  · have hshareFault := (heach share (by simp [heffects])).2.2
    rw [hshare] at hshareFault
    exact hshareFault.trans hfault
  · exact hclean _ (hmutations ▸ List.mem_singleton_self _)

end Registry

end EntityRules
