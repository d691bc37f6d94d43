import EntityRules.Proofs.Access.Marks
import EntityRules.Proofs.Tables
import Mathlib.Data.List.Nodup

/-!
# `EntityRules.Proofs.Effects.Changes`: what changed selects effects and does nothing else

On update it may be known which paths changed. `Effect.TouchedBy` says which effects are
concerned: those that depend on a changed path, snapshot roots apart. The run leaves the
others out, and what it finds for an effect does not depend on what changed.

* `Registry.effectsReport_update_some`: the run with a set of changes is the run of the
  effects that it touches, with nothing known of changes.
* `Registry.effectsReport_update_restrict`: its report is that of all effects, without
  what comes of the others. The names of the effects have to be distinct for this,
  because a report knows an effect by its name.
* `EffectsReport.restrict_within`: from there, more changes never take anything away.
* `Registry.changes_select_effects`: the laws together, with the other events and the
  roots that changes are written with.
-/

set_option autoImplicit false

namespace EntityRules

/-! ### Effects that are concerned -/

namespace Effect

variable {e : Effect} {changed changed' : PathSet}

/-- `e.TouchedBy changed`: the effect depends on a changed path, whatever snapshot roots
the two are written with. -/
def TouchedBy (e : Effect) (changed : PathSet) : Prop :=
  ∃ d ∈ e.dependencies, ∃ c ∈ changed.toList, d.relative = c.relative

instance (e : Effect) (changed : PathSet) : Decidable (e.TouchedBy changed) :=
  inferInstanceAs (Decidable (∃ d ∈ e.dependencies, ∃ c ∈ changed.toList, d.relative = c.relative))

/-- On update an effect `fires` when it is `TouchedBy` the changes. -/
theorem fires_update_some (e : Effect) (changed : PathSet) :
    e.fires .update (some changed) = decide (e.TouchedBy changed) := by
  show e.dependsOn changed = _
  rw [Bool.eq_iff_iff, decide_eq_true_iff]
  simp only [dependsOn, List.any_eq_true, beq_iff_eq, TouchedBy]
  refine exists_congr fun d => and_congr_right fun _ => exists_congr fun c => ?_
  rw [eq_comm]

/-- `TouchedBy` is kept when more has changed. -/
theorem TouchedBy.mono (h : e.TouchedBy changed)
    (hsubset : ∀ c ∈ changed.toList, c ∈ changed'.toList) : e.TouchedBy changed' := by
  obtain ⟨d, hd, c, hc, hrelative⟩ := h
  exact ⟨d, hd, c, hsubset c hc, hrelative⟩

/-- `TouchedBy` looks at the `relative` changes only. -/
theorem touchedBy_ofList_map {f : Path → Path}
    (hf : ∀ c ∈ changed.toList, (f c).relative = c.relative) :
    e.TouchedBy (.ofList (changed.toList.map f)) ↔ e.TouchedBy changed := by
  refine exists_congr fun d => and_congr_right fun _ => ?_
  simp only [PathSet.mem_toList_ofList, List.mem_map]
  constructor
  · rintro ⟨-, ⟨c, hc, rfl⟩, hrelative⟩
    exact ⟨c, hc, hrelative.trans (hf c hc)⟩
  · rintro ⟨c, hc, hrelative⟩
    exact ⟨f c, ⟨c, hc, rfl⟩, hrelative.trans (hf c hc).symm⟩

section Written

variable (e) (resolver : Resolver) (changed : PathSet)

/-- With a set of changes, the `outcome` of an effect is the one without, if it is
`TouchedBy` them, and else nothing. -/
theorem outcome_update_some : e.outcome resolver .update (some changed) =
    if e.TouchedBy changed then e.outcome resolver .update none else .ok [] := by
  simp only [outcome, fires_update_some, decide_eq_true_iff]
  rfl

/-- An effect has `written` its mutations only if it is `TouchedBy` the changes. -/
theorem written_update_some : e.written resolver .update (some changed) =
    if e.TouchedBy changed then e.written resolver .update none else [] := by
  rw [written, outcome_update_some]
  by_cases h : e.TouchedBy changed
  · rw [if_pos h, if_pos h]
    rfl
  · rw [if_neg h, if_neg h]

/-- An effect has its `fault?` only if it is `TouchedBy` the changes. -/
theorem fault?_update_some : e.fault? resolver .update (some changed) =
    if e.TouchedBy changed then e.fault? resolver .update none else none := by
  rw [fault?, outcome_update_some]
  by_cases h : e.TouchedBy changed
  · rw [if_pos h, if_pos h]
    rfl
  · rw [if_neg h, if_neg h]

end Written

/-- What an effect has `written` is all under one of the `names`, or none of it is. -/
theorem filter_written (e : Effect) (resolver : Resolver) (event : Event)
    (changed : Option PathSet) (names : List String) :
    (e.written resolver event changed).filter (fun m => m.effect ∈ names) =
      if e.name ∈ names then e.written resolver event changed else [] := by
  have heffect : ∀ m ∈ e.written resolver event changed, m.effect = e.name :=
    fun m hm => e.yields.effect_eq hm
  split
  · next hname =>
      refine List.filter_eq_self.mpr fun m hm => ?_
      rw [heffect m hm]
      exact decide_eq_true hname
  · next hname =>
      refine List.filter_eq_nil_iff.mpr fun m hm => ?_
      rw [heffect m hm, decide_eq_true_iff]
      exact hname

end Effect

/-- `s.touched changed`: the struct with those of its effects only that are `TouchedBy`
the changes. -/
def Struct.touched (s : Struct) (changed : PathSet) : Struct :=
  { s with effects := s.effects.filter fun e => e.TouchedBy changed }

/-! ### Parts of a report -/

namespace EffectsReport

/-- `report.restrict names`: the part of the report that is about effects of these
names. -/
def restrict (report : EffectsReport) (names : List String) : EffectsReport where
  mutations := report.mutations.filter fun m => m.effect ∈ names
  failures := report.failures.filter fun name _ => name ∈ names

/-- `report.Within report'`: the second report has all that the first one has, in the
same order and with the same failures. -/
structure Within (report report' : EffectsReport) : Prop where
  mutations : report.mutations.Sublist report'.mutations
  failures : ∀ name fault, report.failures.find? name = some fault →
    report'.failures.find? name = some fault

variable {report : EffectsReport} {names names' : List String}

/-- `restrict` keeps the failures under its `names`. -/
theorem find?_failures_restrict (report : EffectsReport) (names : List String) (name : String) :
    (report.restrict names).failures.find? name =
      if name ∈ names then report.failures.find? name else none := by
  refine Option.ext fun fault => ?_
  rw [← Table.mem_entries_iff, restrict, Table.filter, List.mem_filter, decide_eq_true_iff]
  split
  · next hname => rw [← Table.mem_entries_iff, and_iff_left hname]
  · next hname => simp [hname]

/-- A report that is restricted is `Within` the report. -/
theorem restrict_within_self (report : EffectsReport) (names : List String) :
    (report.restrict names).Within report where
  mutations := List.filter_sublist
  failures name fault h := by
    rw [find?_failures_restrict] at h
    split at h
    · exact h
    · cases h

/-- A report that is restricted to fewer names is `Within` one that is restricted to
more. -/
theorem restrict_within (hsubset : names ⊆ names') :
    (report.restrict names).Within (report.restrict names') where
  mutations := List.monotone_filter_right _ fun m hm => by
    rw [decide_eq_true_iff] at hm ⊢
    exact hsubset hm
  failures name fault h := by
    rw [find?_failures_restrict] at h ⊢
    split at h
    · next hname => rw [if_pos (hsubset hname), h]
    · cases h

end EffectsReport

/-! ### Runs -/

namespace Registry

variable {s : Struct} {event : Event} {changed changed' : PathSet}

/-- `withDefaults` looks at the fields of a struct, which `touched` keeps. -/
theorem withDefaults_touched (r : Registry) (s : Struct) (resolver : Resolver)
    (changed : PathSet) :
    resolver.withDefaults r (s.touched changed) = resolver.withDefaults r s := by
  have hr : r.FieldsAgree r := fun _ => rfl
  have hs : (s.touched changed).fields = s.fields := rfl
  exact hr.withDefaults_eq hs resolver

/-- `effectsReport` for a set of changes is that of the struct `touched` by them, for no
such set. -/
theorem effectsReport_update_some (r : Registry) (s : Struct) (resolver : Resolver)
    (changed : PathSet) : r.effectsReport s .update resolver (some changed) =
      r.effectsReport (s.touched changed) .update resolver none := by
  rw [effectsReport, effectsReport, withDefaults_touched, Struct.touched, List.foldl_filter]
  -- A round of the loop does nothing for an effect that is left out.
  congr 1
  funext report e
  simp only [Effect.run, Effect.fires_update_some, decide_eq_true_iff]
  rfl

/-- `effectsReport` looks at what changed on update only. -/
theorem effectsReport_eq_of_ne_update (r : Registry) (s : Struct) (resolver : Resolver)
    (changed changed' : Option PathSet) (h : event ≠ .update) :
    r.effectsReport s event resolver changed = r.effectsReport s event resolver changed' := by
  have hrun : Effect.run (resolver.withDefaults r s) event changed =
      Effect.run (resolver.withDefaults r s) event changed' := by
    funext report e
    cases event with
    | create => rfl
    | update => exact absurd rfl h
    | delete => rfl
  rw [effectsReport, effectsReport, hrun]

/-- `effectsReport` is the same for changes that touch the same effects. -/
theorem effectsReport_congr_touched (r : Registry) (s : Struct) (resolver : Resolver)
    (h : ∀ e : Effect, e.TouchedBy changed ↔ e.TouchedBy changed') :
    r.effectsReport s event resolver (some changed) =
      r.effectsReport s event resolver (some changed') := by
  by_cases hevent : event = .update
  · subst hevent
    simp only [effectsReport_update_some, Struct.touched, h]
  · exact effectsReport_eq_of_ne_update r s resolver _ _ hevent

/-- Where names are distinct, `touched` keeps an effect if it keeps one of its name. -/
theorem name_mem_touched_iff (hnames : (s.effects.map (·.name)).Nodup) {e : Effect}
    (he : e ∈ s.effects) :
    e.name ∈ (s.touched changed).effects.map (·.name) ↔ e.TouchedBy changed := by
  rw [List.mem_map]
  constructor
  · rintro ⟨e', he', hname⟩
    obtain ⟨hmem, htouched⟩ := List.mem_filter.mp he'
    rw [List.inj_on_of_nodup_map hnames hmem he hname] at htouched
    exact of_decide_eq_true htouched
  · intro htouched
    exact ⟨e, List.mem_filter.mpr ⟨he, decide_eq_true htouched⟩, rfl⟩

/-- Where names are distinct, `effectsReport` for a set of changes is the whole report,
restricted to the names of the effects that are `touched`. -/
theorem effectsReport_update_restrict (r : Registry) (resolver : Resolver)
    (changed : PathSet) (hnames : (s.effects.map (·.name)).Nodup) :
    r.effectsReport s .update resolver (some changed) =
      (r.effectsReport s .update resolver none).restrict
        ((s.touched changed).effects.map (·.name)) := by
  have hmutations : (r.effectsReport s .update resolver (some changed)).mutations =
      ((r.effectsReport s .update resolver none).restrict
        ((s.touched changed).effects.map (·.name))).mutations := by
    rw [EffectsReport.restrict, mutations_effectsReport, mutations_effectsReport,
      List.filter_flatMap]
    -- A mutation has the name of its effect, so the two agree effect by effect.
    refine List.flatMap_congr fun e he => ?_
    rw [Effect.written_update_some, Effect.filter_written]
    simp only [name_mem_touched_iff hnames he]
  have hfailures : (r.effectsReport s .update resolver (some changed)).failures =
      ((r.effectsReport s .update resolver none).restrict
        ((s.touched changed).effects.map (·.name))).failures := by
    refine Table.ext_find? fun name => ?_
    rw [EffectsReport.find?_failures_restrict]
    by_cases hname : name ∈ s.effects.map (·.name)
    · obtain ⟨e, he, rfl⟩ := List.mem_map.mp hname
      rw [find?_failures_effectsReport _ _ _ hnames he,
        find?_failures_effectsReport _ _ _ hnames he, Effect.fault?_update_some]
      simp only [name_mem_touched_iff hnames he]
    · -- No effect has the name, so no run has a failure under it.
      have hnone : ∀ changed,
          (r.effectsReport s .update resolver changed).failures.find? name = none :=
        fun changed => Effect.find?_failures_foldl_run_of_not_mem hname .start
      rw [hnone, hnone, ite_self]
  exact congrArg₂ EffectsReport.mk hmutations hfailures

/-- `touched` keeps more effects when more has changed. -/
theorem touched_names_subset (s : Struct)
    (hsubset : ∀ c ∈ changed.toList, c ∈ changed'.toList) :
    (s.touched changed).effects.map (·.name) ⊆ (s.touched changed').effects.map (·.name) := by
  refine List.map_subset _ fun e he => ?_
  obtain ⟨hmem, htouched⟩ := List.mem_filter.mp he
  have hmore := (of_decide_eq_true htouched).mono hsubset
  exact List.mem_filter.mpr ⟨hmem, decide_eq_true hmore⟩

/-- What changed selects effects and has no other influence. On update, the report for a
set of changes is that of the struct with only the effects that are `touched` by it,
snapshot roots apart. It is also the report without such a set, restricted to these
effects. So more changes give a report that the smaller one is `Within`, and so is every
one within the report for no set. On the other events the set does not matter, and in it
a path without a snapshot root may be written with the root of either state. -/
theorem changes_select_effects (r : Registry) (s : Struct) (resolver : Resolver)
    (hnames : (s.effects.map (·.name)).Nodup) :
    (∀ changed : PathSet,
      r.effectsReport s .update resolver (some changed) =
        r.effectsReport (s.touched changed) .update resolver none ∧
      r.effectsReport s .update resolver (some changed) =
        (r.effectsReport s .update resolver none).restrict
          ((s.touched changed).effects.map (·.name))) ∧
    (∀ changed changed' : PathSet, (∀ c ∈ changed.toList, c ∈ changed'.toList) →
      (r.effectsReport s .update resolver (some changed)).Within
        (r.effectsReport s .update resolver (some changed'))) ∧
    (∀ changed : PathSet,
      (r.effectsReport s .update resolver (some changed)).Within
        (r.effectsReport s .update resolver none)) ∧
    (∀ event, event ≠ .update → ∀ changed changed' : Option PathSet,
      r.effectsReport s event resolver changed = r.effectsReport s event resolver changed') ∧
    ∀ (event : Event) (changed : PathSet) (written : Path → Path),
      (∀ c ∈ changed.toList, written c = c ∨
        c.snapshot? = none ∧ (written c = c.rooted .prev ∨ written c = c.rooted .curr)) →
      r.effectsReport s event resolver (some (.ofList (changed.toList.map written))) =
        r.effectsReport s event resolver (some changed) := by
  refine ⟨?_, ?_, ?_, ?_, ?_⟩
  -- An update runs the effects that are touched.
  · intro changed
    exact ⟨effectsReport_update_some r s resolver changed,
      effectsReport_update_restrict r resolver changed hnames⟩
  -- More changes touch more effects.
  · intro changed changed' hsubset
    rw [effectsReport_update_restrict r resolver changed hnames,
      effectsReport_update_restrict r resolver changed' hnames]
    exact EffectsReport.restrict_within (touched_names_subset s hsubset)
  -- Without a list of changes all effects run.
  · intro changed
    rw [effectsReport_update_restrict r resolver changed hnames]
    exact EffectsReport.restrict_within_self _ _
  -- Other events do not look at the changes.
  · intro event hevent changed changed'
    exact effectsReport_eq_of_ne_update r s resolver changed changed' hevent
  -- A root is taken off before changes are compared.
  · intro event changed written hwritten
    have hrelative : ∀ c ∈ changed.toList, (written c).relative = c.relative := by
      intro c hc
      rcases hwritten c hc with hsame | ⟨hroot, hprev | hcurr⟩
      · rw [hsame]
      · rw [hprev, Path.relative_rooted_eq hroot]
      · rw [hcurr, Path.relative_rooted_eq hroot]
    exact effectsReport_congr_touched r s resolver fun e =>
      Effect.touchedBy_ofList_map hrelative

/-- The declaration of a stock of goods. One effect says how far the amount moved, another
one what a good costs by the way the price moved. -/
def stockBundle : Json := .obj [
  ("constructs", .arr [.obj [
    ("effects", .obj [
      ("amount", .obj [("dependencies", .arr [.str "amount"]), ("mutate", .arr [
        .obj [("expr", Expr.form "subtract" "number" [
            Expr.form "path" "ref" [.str "_curr.amount"],
            Expr.form "path" "ref" [.str "_prev.amount"]]),
          ("target", .str "_curr.moved")]])]),
      ("price", .obj [("dependencies", .arr [.str "price"]), ("mutate", .arr [
        .obj [("expr", Expr.form "divide" "number" [
            Expr.form "path" "ref" [.str "_curr.price"],
            Expr.form "path" "ref" [.str "_prev.price"]]),
          ("target", .str "_curr.trend")]])])]),
    ("fields", .obj [
      ("amount", .obj [("default", .int 3), ("type", .str "number")]),
      ("moved", .obj [("type", .str "number")]),
      ("price", .obj [("default", .int 0), ("type", .str "number")]),
      ("trend", .obj [("type", .str "number")])]),
    ("id", .str "Stock"),
    ("kind", .str "Struct")]]),
  ("id", .str "store")]

/-- When a stock of `stockBundle` changes in its amount, the amount moves by zero, and
nothing is found for the price. When it changes in its price too, which was zero, the
mutation is the same and the division is a failure; as it is when nothing is known of
changes. The amount may be reported under the state after. -/
theorem changes_select_effects_stock : ∃ r s, load stockBundle {} = .ok r ∧ s ∈ r.structs ∧
    (s.effects.map (·.name)).Nodup ∧
    let report : Option PathSet → EffectsReport := r.effectsReport s .update fun _ => none
    let amount : Path := ⟨["amount"]⟩
    let price : Path := ⟨["price"]⟩
    let moved : Mutation := ⟨"amount", ⟨["_curr", "moved"]⟩, .number .zero,
      [⟨["_curr", "amount"]⟩, ⟨["_prev", "amount"]⟩]⟩
    (report (some (.ofList [amount]))).mutations = [moved] ∧
    (report (some (.ofList [amount]))).failures.find? "price" = none ∧
    (report (some (.ofList [price]))).failures.find? "price" =
      some (.arithmetic (.byZero .divide)) ∧
    (report (some (.ofList [amount]))).Within (report (some (.ofList [amount, price]))) ∧
    (report (some (.ofList [amount, price]))).Within (report none) ∧
    report (some (.ofList [amount.rooted .curr])) = report (some (.ofList [amount])) := by
  -- The bundle is loaded and run once, for all three facts about runs.
  have hread : ∃ r s, load stockBundle {} = .ok r ∧ s ∈ r.structs ∧
      let report : Option PathSet → EffectsReport := r.effectsReport s .update fun _ => none
      (report (some (.ofList [⟨["amount"]⟩]))).mutations =
        [⟨"amount", ⟨["_curr", "moved"]⟩, .number .zero,
          [⟨["_curr", "amount"]⟩, ⟨["_prev", "amount"]⟩]⟩] ∧
      (report (some (.ofList [⟨["amount"]⟩]))).failures.find? "price" = none ∧
      (report (some (.ofList [⟨["price"]⟩]))).failures.find? "price" =
        some (.arithmetic (.byZero .divide)) :=
    ⟨_, _, rfl, List.mem_singleton_self _, rfl, rfl, rfl⟩
  obtain ⟨r, s, hload, hs, hmutations, hnone, hfault⟩ := hread
  have hnames := nodup_effectNames_of_load hload hs
  obtain ⟨-, hmore, hall, -, hrooted⟩ := changes_select_effects r s (fun _ => none) hnames
  -- What is left: the smaller list of changes is part of the larger, and a root changes
  -- nothing.
  refine ⟨r, s, hload, hs, hnames, hmutations, hnone, hfault, hmore _ _ ?_, hall _, ?_⟩
  · decide
  · exact hrooted .update (.ofList [⟨["amount"]⟩]) (Path.rooted .curr) fun c hc => by
      have hamount : c = ⟨["amount"]⟩ := by
        rw [PathSet.mem_toList_ofList] at hc
        exact List.mem_singleton.mp hc
      exact .inr ⟨hamount ▸ rfl, .inr rfl⟩

end Registry

end EntityRules
