import EntityRules.Proofs.Effects.Blocks
import EntityRules.Proofs.Expr.Answers

/-!
# `EntityRules.Proofs.Effects.Gating`: every statement has its event

Whether a statement runs is decided from the snapshot roots that it mentions, once
and for all events. A loaded struct has targets below `_prev` or `_curr` only, so
each of its statements mentions one of the two at least: with `_prev` alone it
runs on delete, with `_curr` alone on create, with both on update.

* `Statement.existsUnique_runsOn`: such a statement runs on one event and on no
  other.
* `Registry.exists_statement_of_mem_mutations`: a mutation comes from a statement
  that runs on the event, and reads what its expression references.
* `Registry.forall₂_mutations`: where no effect fails, the mutations of an event
  are those of the statements that run on it, one each.
* `Registry.statements_run_once`: so the three events together make one mutation
  for each statement, and neither a creation nor a deletion reads the state that
  it does not have.
-/

set_option autoImplicit false

namespace EntityRules

open Proofs

/-! ### Roots that are mentioned -/

/-- `mentions` finds a root when a path under it is among `referencedPaths`. -/
theorem Expr.mentions_iff {e : Expr} {root : Snapshot} :
    e.mentions root = true ↔ ∃ p ∈ e.referencedPaths, p.snapshot? = some root := by
  simp only [mentions, referencedPaths, List.any_eq_true, beq_iff_eq, List.mem_eraseDups]

namespace Statement

variable {s : Statement} {root : Snapshot} {resolver : Resolver} {value : Leaf}
  {reads : List Path}

/-- A statement that does not mention `root` has it neither in its target nor in a path
that its expression references. -/
theorem mentions_eq_false_iff :
    s.mentions root = false ↔
      s.target.snapshot? ≠ some root ∧ ∀ p ∈ s.expr.referencedPaths, p.snapshot? ≠ some root := by
  rw [← Bool.not_eq_true, mentions, Bool.or_eq_true, Expr.mentions_iff, beq_iff_eq]
  constructor
  · intro h
    exact ⟨fun htarget => h (.inr htarget), fun p hp hroot => h (.inl ⟨p, hp, hroot⟩)⟩
  · rintro ⟨htarget, hexpr⟩ (⟨p, hp, hroot⟩ | hroot)
    · exact hexpr p hp hroot
    · exact htarget hroot

/-- A statement `mentions` the root of its target. -/
theorem mentions_of_snapshot?_target (h : s.target.snapshot? = some root) :
    s.mentions root = true := by
  rw [mentions, h, beq_self_eq_true, Bool.or_true]

/-- A statement that `runsOn` create does not mention the state before. -/
theorem mentions_prev_of_runsOn_create (h : s.runsOn .create = true) :
    s.mentions .prev = false := by
  rw [runsOn, Bool.and_eq_true, Bool.not_eq_true'] at h
  exact h.2

/-- A statement that `runsOn` delete does not mention the state after. -/
theorem mentions_curr_of_runsOn_delete (h : s.runsOn .delete = true) :
    s.mentions .curr = false := by
  rw [runsOn, Bool.and_eq_true, Bool.not_eq_true'] at h
  exact h.2

/-- Whatever a statement read for the value that it `Gives`, its expression references.
-/
theorem Gives.mem_referencedPaths (h : s.Gives resolver value reads) {p : Path} (hp : p ∈ reads) :
    p ∈ s.expr.referencedPaths := by
  obtain ⟨env, -, -, hreads⟩ := h
  rw [← hreads, Traced.recorded, List.mem_eraseDups] at hp
  exact Expr.mem_referencedPaths_of_mem_reads hp

/-! ### One event -/

/-- Of `Event.all`, a statement that mentions a state before or after `runsOn` one. -/
theorem exists_filter_runsOn (h : s.mentions .prev = true ∨ s.mentions .curr = true) :
    ∃ event, Event.all.filter (fun event => s.runsOn event) = [event] := by
  -- The two roots decide the event; that none is mentioned is excluded.
  cases hprev : s.mentions .prev with
  | false =>
      cases hcurr : s.mentions .curr with
      | false => simp [hprev, hcurr] at h
      | true => exact ⟨.create, by simp [Event.all, runsOn, hprev, hcurr]⟩
  | true =>
      cases hcurr : s.mentions .curr with
      | false => exact ⟨.delete, by simp [Event.all, runsOn, hprev, hcurr]⟩
      | true => exact ⟨.update, by simp [Event.all, runsOn, hprev, hcurr]⟩

/-- A statement that mentions a state before or after `runsOn` one event only. -/
theorem existsUnique_runsOn (h : s.mentions .prev = true ∨ s.mentions .curr = true) :
    ∃! event, s.runsOn event = true := by
  obtain ⟨event, hfilter⟩ := exists_filter_runsOn h
  have hruns : ∀ other, s.runsOn other = true ↔ other = event := by
    intro other
    have hall : other ∈ Event.all := by cases other <;> simp [Event.all]
    have hmem : other ∈ Event.all.filter (fun event => s.runsOn event) ↔ other = event := by
      rw [hfilter, List.mem_singleton]
    rwa [List.mem_filter, and_iff_right hall] at hmem
  exact ⟨event, (hruns event).mpr rfl, fun other hother => (hruns other).mp hother⟩

end Statement

/-! ### Where mutations come from -/

namespace Effect.Yields

variable {resolver : Resolver} {event : Event} {changed : Option PathSet} {e : Effect}
  {block : List Mutation} {fault : Option EvalError} {m : Mutation}

/-- A mutation that an effect `Yields` is made by one of its statements that are
`running` on the event. -/
theorem exists_statement_of_mem (h : e.Yields resolver event changed block fault)
    (hm : m ∈ block) :
    ∃ s ∈ e.running event, m.target = s.target ∧ s.Gives resolver m.value m.reads := by
  cases h with
  | idle hfires => cases hm
  | applied hfires hblock =>
      -- The list of results has `m` in it where some statement has `m` as its result.
      have hmade : ∀ s m', Statement.mutation resolver e.name s = .ok m' →
          (m' = m ↔ s.mutation resolver e.name = .ok m) := by
        intro s m' hm'
        rw [hm', Except.ok.injEq]
      obtain ⟨s, hs, hmutation⟩ :=
        (exists_mem_of_mapM_eq_ok (block_eq_ok_iff.mpr hblock) hmade).mp ⟨m, hm, rfl⟩
      exact ⟨s, hs, (Statement.mutation_eq_ok_iff.mp hmutation).2⟩
  | dropped hfires hsplit hbefore hfails => cases hm

/-- An effect that `fires` and has no fault makes a mutation with each statement that is
`running`. -/
theorem forall₂_running (h : e.Yields resolver event changed block none)
    (hfires : e.fires event changed = true) :
    List.Forall₂
      (fun s m => m.effect = e.name ∧ m.target = s.target ∧ s.Gives resolver m.value m.reads)
      (e.running event) block := by
  cases h with
  | idle hidle =>
      rw [hfires] at hidle
      cases hidle
  | applied _ hblock => exact hblock

end Effect.Yields

/-- `s.declared`: the statements of the struct, each with its effect, in the order in
which they are declared. -/
def Struct.declared (s : Struct) : List (Effect × Statement) :=
  s.effects.flatMap fun e => e.statements.map fun statement => (e, statement)

/-- `Makes answers d m`: the declared statement `d` makes the mutation `m`, which has
the name of the effect, the target of the statement, and the value and the reads that
the statement `Gives`. -/
def Makes (answers : Resolver) (d : Effect × Statement) (m : Mutation) : Prop :=
  m.effect = d.1.name ∧ m.target = d.2.target ∧ d.2.Gives answers m.value m.reads

namespace Registry

variable {r : Registry} {s : Struct} {event : Event} {resolver : Resolver}
  {changed : Option PathSet} {v : Json} {config : Config}

/-- A mutation in `effectsReport` is made by a statement of the struct that `runsOn` the
event. -/
theorem exists_statement_of_mem_mutations {m : Mutation}
    (h : m ∈ (r.effectsReport s event resolver changed).mutations) :
    ∃ statement ∈ s.statements, statement.runsOn event = true ∧ m.target = statement.target ∧
      statement.Gives (resolver.withDefaults r s) m.value m.reads := by
  rw [mutations_effectsReport, List.mem_flatMap] at h
  obtain ⟨e, he, hm⟩ := h
  obtain ⟨statement, hrunning, hmade⟩ := e.yields.exists_statement_of_mem hm
  obtain ⟨hstatement, hruns⟩ := List.mem_filter.mp hrunning
  exact ⟨statement, List.mem_flatMap.mpr ⟨e, he, hstatement⟩, hruns, hmade⟩

/-- In a report that `isClean` no effect has a `fault?`. -/
theorem fault?_eq_none_of_isClean (hnames : (s.effects.map (·.name)).Nodup)
    (h : (r.effectsReport s event resolver changed).isClean = true) {e : Effect}
    (he : e ∈ s.effects) : e.fault? (resolver.withDefaults r s) event changed = none := by
  rw [EffectsReport.isClean, List.isEmpty_iff] at h
  rw [← find?_failures_effectsReport event resolver changed hnames he, Table.find?, h]
  rfl

/-- In a report that `isClean`, without a set of changed paths that could keep an effect
from firing, each of the `declared` statements that `runsOn` the event `Makes` one
mutation. -/
theorem forall₂_mutations (hnames : (s.effects.map (·.name)).Nodup)
    (h : (r.effectsReport s event resolver none).isClean = true) :
    List.Forall₂ (Makes (resolver.withDefaults r s))
      (s.declared.filter fun d => d.2.runsOn event)
      (r.effectsReport s event resolver none).mutations := by
  rw [mutations_effectsReport, Struct.declared, List.filter_flatMap]
  refine forall₂_flatMap fun e he => ?_
  have hyields : e.Yields (resolver.withDefaults r s) event none _ _ := e.yields
  rw [fault?_eq_none_of_isClean hnames h he] at hyields
  -- Only a set of changed paths could keep an effect from firing.
  have hfires : e.fires event none = true := by cases event <;> rfl
  have hrunning : (e.statements.map fun statement => (e, statement)).filter
      (fun d => d.2.runsOn event) = (e.running event).map fun statement => (e, statement) := by
    rw [List.filter_map]
    rfl
  rw [hrunning, List.forall₂_map_left_iff]
  exact hyields.forall₂_running hfires

/-- On an event whose statements do not mention `root`, no mutation has it: neither in
its target nor in a path that was read for it. -/
theorem not_rooted_of_mem_mutations {root : Snapshot} {m : Mutation}
    (hevent : ∀ statement : Statement,
      statement.runsOn event = true → statement.mentions root = false)
    (hm : m ∈ (r.effectsReport s event resolver changed).mutations) :
    m.target.snapshot? ≠ some root ∧ ∀ p ∈ m.reads, p.snapshot? ≠ some root := by
  obtain ⟨statement, -, hruns, htarget, hgives⟩ := exists_statement_of_mem_mutations hm
  obtain ⟨hnot, hexpr⟩ := Statement.mentions_eq_false_iff.mp (hevent statement hruns)
  rw [htarget]
  exact ⟨hnot, fun p hp => hexpr p (hgives.mem_referencedPaths hp)⟩

/-! ### Loaded structs -/

/-- `load` accepts only statements with targets below the state before or after. -/
theorem snapshot?_target_of_load (h : load v config = .ok r) (hs : s ∈ r.structs)
    {statement : Statement} (hst : statement ∈ s.statements) :
    statement.target.snapshot? = some .prev ∨ statement.target.snapshot? = some .curr := by
  obtain ⟨e, he, hst⟩ := List.mem_flatMap.mp hst
  have hrules := (load_eq_ok_iff.mp h).2 s hs
  exact (Struct.targetFault?_eq_none_iff.mp (hrules.targets e he statement hst)).1

/-- `mutations` of a loaded struct have targets below the state before or after. -/
theorem snapshot?_target_of_mem_mutations (h : load v config = .ok r) (hs : s ∈ r.structs)
    {m : Mutation} (hm : m ∈ (r.effectsReport s event resolver changed).mutations) :
    m.target.snapshot? = some .prev ∨ m.target.snapshot? = some .curr := by
  obtain ⟨statement, hst, -, htarget, -⟩ := exists_statement_of_mem_mutations hm
  rw [htarget]
  exact snapshot?_target_of_load h hs hst

/-- The three events share the `declared` statements of a loaded struct out. Every
statement `runsOn` one of them and on no other. So where every report `isClean`, and no
set of changed paths keeps an effect from firing, the mutations of the three reports are
those that the declared statements make (`Makes`), one each, in another order. On create
they write the state after and read nothing of the state before, on delete the other
way, also where effects fail. -/
theorem statements_run_once (h : load v config = .ok r) (hs : s ∈ r.structs) :
    (∀ e ∈ s.effects, ∀ statement ∈ e.statements, ∃! event, statement.runsOn event = true) ∧
    (∀ resolver, (∀ event, (r.effectsReport s event resolver none).isClean = true) →
      ∃ made, List.Forall₂ (Makes (resolver.withDefaults r s)) s.declared made ∧
        made.Perm
          (Event.all.flatMap fun event => (r.effectsReport s event resolver none).mutations)) ∧
    ∀ resolver changed,
      (∀ m ∈ (r.effectsReport s .create resolver changed).mutations,
        m.target.snapshot? = some .curr ∧ ∀ p ∈ m.reads, p.snapshot? ≠ some .prev) ∧
      ∀ m ∈ (r.effectsReport s .delete resolver changed).mutations,
        m.target.snapshot? = some .prev ∧ ∀ p ∈ m.reads, p.snapshot? ≠ some .curr := by
  -- The rule for targets leaves no statement without a root.
  have hmentions : ∀ e ∈ s.effects, ∀ statement ∈ e.statements,
      statement.mentions .prev = true ∨ statement.mentions .curr = true := by
    intro e he statement hst
    have htarget := snapshot?_target_of_load h hs (List.mem_flatMap.mpr ⟨e, he, hst⟩)
    exact htarget.imp Statement.mentions_of_snapshot?_target Statement.mentions_of_snapshot?_target
  refine ⟨?_, ?_, ?_⟩
  · intro e he statement hst
    exact Statement.existsUnique_runsOn (hmentions e he statement hst)
  · intro resolver hclean
    -- Sorted by event, the declared statements are the declared statements.
    have hevents : (Event.all.flatMap fun event => s.declared.filter fun d => d.2.runsOn event).Perm
        s.declared := by
      refine perm_flatMap_filter fun d hd => ?_
      obtain ⟨e, he, hd⟩ := List.mem_flatMap.mp hd
      obtain ⟨statement, hst, rfl⟩ := List.mem_map.mp hd
      exact Statement.exists_filter_runsOn (hmentions e he statement hst)
    have hmade := forall₂_flatMap (l := Event.all) fun event _ =>
      forall₂_mutations (nodup_effectNames_of_load h hs) (hclean event)
    exact List.perm_comp_forall₂ hevents.symm hmade
  · intro resolver changed
    constructor
    · intro m hm
      obtain ⟨htarget, hreads⟩ :=
        not_rooted_of_mem_mutations (fun _ => Statement.mentions_prev_of_runsOn_create) hm
      exact ⟨(snapshot?_target_of_mem_mutations h hs hm).resolve_left htarget, hreads⟩
    · intro m hm
      obtain ⟨htarget, hreads⟩ :=
        not_rooted_of_mem_mutations (fun _ => Statement.mentions_curr_of_runsOn_delete) hm
      exact ⟨(snapshot?_target_of_mem_mutations h hs hm).resolve_right htarget, hreads⟩

/-- The declaration of an account that remembers what happened to its balance: the
balance that it was opened with, how far the balance moved, and the balance at the
end. -/
def accountBundle : Json := .obj [
  ("constructs", .arr [.obj [
    ("checks", .obj [("solvent", .obj [("expr", Expr.form "greater_than_equals" "number" [
      Expr.form "path" "ref" [.str "_curr.balance"], Expr.form "literal" "number" [.int 0]])])]),
    ("effects", .obj [("history", .obj [("mutate", .arr [
      .obj [("expr", Expr.form "path" "ref" [.str "_curr.balance"]),
        ("target", .str "_curr.opened")],
      .obj [("expr", Expr.form "subtract" "number" [
          Expr.form "path" "ref" [.str "_curr.balance"],
          Expr.form "path" "ref" [.str "_prev.balance"]]),
        ("target", .str "_curr.moved")],
      .obj [("expr", Expr.form "path" "ref" [.str "_prev.balance"]),
        ("target", .str "_prev.closed")]])])]),
    ("fields", .obj [
      ("balance", .obj [("default", .int 0), ("type", .str "number")]),
      ("closed", .obj [("type", .str "number")]),
      ("moved", .obj [("type", .str "number")]),
      ("name", .obj [("type", .str "text")]),
      ("opened", .obj [("type", .str "number")])]),
    ("id", .str "Account"),
    ("kind", .str "Struct"),
    ("unique", .arr [.arr [.str "name"]])]]),
  ("id", .str "bank")]

/-- The registry of `accountBundle`. -/
def bank : Registry :=
  match load accountBundle {} with
  | .ok r => r
  | .error _ => .ofStructs "" [] {}

/-- `load` reads `accountBundle` as `bank`. -/
theorem load_accountBundle : load accountBundle {} = .ok bank := rfl

/-- The struct of accounts of the `bank`. -/
def account : Struct := (bank.find? "Account").getD (.ofFields "" [])

/-- `account` is a struct of the `bank`. -/
theorem account_mem_structs : account ∈ bank.structs := List.mem_singleton_self _

/-- `accountBalances` answers for a balance of two before and of five after. -/
def accountBalances : Resolver := fun p =>
  if p = ⟨["_prev", "balance"]⟩ then some (.number ⟨2, by decide, by decide⟩)
  else if p = ⟨["_curr", "balance"]⟩ then some (.number ⟨5, by decide, by decide⟩)
  else none

/-- Each of the three statements of an `account` has its mutation on another event: five
are opened with, three is how far the balance moved, and two are closed with. -/
theorem statements_run_once_account :
    let before : Path := ⟨["_prev", "balance"]⟩
    let after : Path := ⟨["_curr", "balance"]⟩
    let two : Leaf := .number ⟨2, by decide, by decide⟩
    let three : Leaf := .number ⟨3, by decide, by decide⟩
    let five : Leaf := .number ⟨5, by decide, by decide⟩
    let report : Event → EffectsReport := fun event =>
      bank.effectsReport account event accountBalances none
    (∀ event, (report event).isClean = true) ∧
    (report .create).mutations = [⟨"history", ⟨["_curr", "opened"]⟩, five, [after]⟩] ∧
    (report .update).mutations = [⟨"history", ⟨["_curr", "moved"]⟩, three, [after, before]⟩] ∧
    (report .delete).mutations = [⟨"history", ⟨["_prev", "closed"]⟩, two, [before]⟩] ∧
    ∃ made, List.Forall₂ (Makes (accountBalances.withDefaults bank account)) account.declared made ∧
      made.Perm (Event.all.flatMap fun event => (report event).mutations) := by
  have hclean : ∀ event,
      (bank.effectsReport account event accountBalances none).isClean = true := by
    intro event
    cases event with
    | create => rfl
    | update => rfl
    | delete => rfl
  exact ⟨hclean, rfl, rfl, rfl,
    (statements_run_once load_accountBundle account_mem_structs).2.1 accountBalances hclean⟩

end Registry

end EntityRules
