import EntityRules.Fault

/-!
# `EntityRules.Expr.Traced`: results with the paths read on the way

Evaluation answers with a leaf or an error, and either way with the paths that
it read. `Traced` keeps the two side by side: the reads of two steps are
appended, and an error ends the reading where it arises. Steps obey the laws of a
monad, and `result_bind` says that the result alone is a step of `Except`.
-/

set_option autoImplicit false

namespace EntityRules

/-- A result, and the paths read until it was reached or until it failed. -/
structure Traced (α : Type) where
  reads : List Path
  result : Except EvalError α

namespace Traced

variable {α β : Type}

/-- A result that reads nothing. -/
def lift (result : Except EvalError α) : Traced α := ⟨[], result⟩

/-- Goes on with a value; an error stays as it is. -/
def bind (t : Traced α) (next : α → Traced β) : Traced β :=
  match t.result with
  | .ok a => ⟨t.reads ++ (next a).reads, (next a).result⟩
  | .error e => ⟨t.reads, .error e⟩

instance : Monad Traced where
  pure a := lift (.ok a)
  bind := bind

/-- What reads nothing has its result. -/
@[simp] theorem result_lift (result : Except EvalError α) : (lift result).result = result := rfl

/-- What reads nothing has no reads. -/
@[simp] theorem reads_lift (result : Except EvalError α) : (lift result).reads = [] := rfl

/-- A value that is at hand is the result. -/
@[simp] theorem result_pure (a : α) : (pure a : Traced α).result = .ok a := rfl

/-- A value that is at hand is not read. -/
@[simp] theorem reads_pure (a : α) : (pure a : Traced α).reads = [] := rfl

/-- Behind a step that gave a value, the reads of the next step follow. -/
theorem bind_of_ok {t : Traced α} {next : α → Traced β} {a : α} (h : t.result = .ok a) :
    (t >>= next) = ⟨t.reads ++ (next a).reads, (next a).result⟩ := by
  show Traced.bind t next = _
  rw [Traced.bind, h]

/-- Behind a step that failed nothing is read. -/
theorem bind_of_error {t : Traced α} {next : α → Traced β} {e : EvalError}
    (h : t.result = .error e) :
    (t >>= next) = ⟨t.reads, .error e⟩ := by
  show Traced.bind t next = _
  rw [Traced.bind, h]

/-- The result of two steps is the result of the second on that of the first. -/
theorem result_bind (t : Traced α) (next : α → Traced β) :
    (t >>= next).result = t.result >>= fun a => (next a).result := by
  cases ht : t.result with
  | ok a =>
      rw [bind_of_ok ht]
      rfl
  | error e =>
      rw [bind_of_error ht]
      rfl

/-- Two steps succeed when both do. -/
theorem result_bind_eq_ok_iff {t : Traced α} {next : α → Traced β} {b : β} :
    (t >>= next).result = .ok b ↔ ∃ a, t.result = .ok a ∧ (next a).result = .ok b := by
  rw [result_bind]
  constructor
  · intro h
    cases ht : t.result with
    | ok a =>
        rw [ht] at h
        exact ⟨a, rfl, h⟩
    | error e =>
        rw [ht] at h
        cases h
  · intro ⟨a, ht, hnext⟩
    rw [ht]
    exact hnext

/-- A step that only hands the value on can be left out. -/
theorem map_id (t : Traced α) : id <$> t = t := by
  show Traced.bind t pure = t
  obtain ⟨reads, result⟩ := t
  cases result with
  | ok a => exact congrArg (Traced.mk · _) (List.append_nil reads)
  | error e => rfl

/-- Steps can be taken together from either end. -/
theorem bind_bind {γ : Type} (t : Traced α) (next : α → Traced β) (last : β → Traced γ) :
    t >>= next >>= last = t >>= fun a => next a >>= last := by
  show Traced.bind (Traced.bind t next) last = Traced.bind t fun a => Traced.bind (next a) last
  obtain ⟨reads, result⟩ := t
  cases result with
  | error e => rfl
  | ok a =>
      cases hnext : (next a).result with
      | ok b => simp [Traced.bind, hnext]
      | error e => simp [Traced.bind, hnext]

instance : LawfulMonad Traced := .mk' Traced map_id (fun _ _ => rfl) bind_bind

/-- The paths that were read, each once, in the order of first reading. -/
def recorded (t : Traced α) : List Path := t.reads.eraseDups

end Traced

end EntityRules
