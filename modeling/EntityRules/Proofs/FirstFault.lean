import Mathlib.Data.List.Forall2

/-!
# `EntityRules.Proofs.FirstFault`: steps that stop at the first fault

Everything that is read or resolved is a chain of steps in `Except`, and a list
of things is taken one by one, in order, until one fails. The theorems turn such
a chain into what each step gave:

* `except_bind_eq_ok`, `except_bind_eq_error`: two steps succeed when both do, and else stop
  at the first fault.
* `mapM_eq_ok_iff`: a list succeeds when every item does, item by item.
* `mapM_fails_iff`: a list fails exactly when an item does.
* `mapM_eq_error_iff`: it fails as the first item does that fails.
* `mapM_eq_ok_iff_eq_map`, `mapM_eq_error_iff_append_map`: the same where a step takes back
  what was written.
* `foldlM_eq_error_iff`: the same for a run of steps, each on what came before it.
-/

set_option autoImplicit false

namespace EntityRules.Proofs

variable {ε α β : Type}

/-- Bind, `>>=`, hands the result of a step that succeeded on to `f`. -/
@[simp] theorem except_bind_ok (a : α) (f : α → Except ε β) :
    (Except.ok a >>= f) = f a := rfl

/-- Bind, `>>=`, stops at a step that failed, and `f` does not run. -/
@[simp] theorem except_bind_error (e : ε) (f : α → Except ε β) :
    ((Except.error e : Except ε α) >>= f) = .error e := rfl

/-- `pure` ends a chain in `.ok`. -/
@[simp] theorem except_pure (a : α) : (pure a : Except ε α) = .ok a := rfl

/-- `x >>= f` gives `b` when `x` gives some `a` and `f a` gives `b`. -/
theorem except_bind_eq_ok {x : Except ε α} {f : α → Except ε β} {b : β} :
    (x >>= f) = .ok b ↔ ∃ a, x = .ok a ∧ f a = .ok b := by
  cases x with
  | error e => simp
  | ok a => simp

/-- `x >>= f` fails as `x` does, or as `f` does on the result of `x`. -/
theorem except_bind_eq_error {x : Except ε α} {f : α → Except ε β} {e : ε} :
    (x >>= f) = .error e ↔ x = .error e ∨ ∃ a, x = .ok a ∧ f a = .error e := by
  cases x with
  | error e => simp
  | ok a => simp

/-- `x.map f` gives `b` when `x` gives something that `f` takes to `b`. -/
theorem except_map_eq_ok {x : Except ε α} {f : α → β} {b : β} :
    x.map f = .ok b ↔ ∃ a, x = .ok a ∧ f a = b := by
  cases x with
  | error e => simp [Except.map]
  | ok a => simp [Except.map]

/-- `map` leaves a fault as it is. -/
theorem except_map_eq_error {x : Except ε α} {f : α → β} {e : ε} :
    x.map f = .error e ↔ x = .error e := by
  cases x with
  | error e => simp [Except.map]
  | ok a => simp [Except.map]

/-- To fail is to give no result; `Except` has no third outcome. -/
theorem except_fails_iff {x : Except ε α} : (∃ e, x = .error e) ↔ ¬ ∃ a, x = .ok a := by
  cases x with
  | error e => simp
  | ok a => simp

/-- `x >>= f` fails when `x` does, or when `f` does on the result of `x`. -/
theorem except_bind_fails_iff {x : Except ε α} {f : α → Except ε β} :
    (∃ e, (x >>= f) = .error e) ↔
      (∃ e, x = .error e) ∨ ∃ a, x = .ok a ∧ ∃ e, f a = .error e := by
  cases x with
  | error e => simp
  | ok a => simp

/-- `mapError` renames the faults of a chain step by step. -/
theorem except_mapError_bind {ε' : Type} {x : Except ε α} {f : α → Except ε β} {rename : ε → ε'} :
    (x >>= f).mapError rename = x.mapError rename >>= fun a => (f a).mapError rename := by
  cases x with
  | error e => rfl
  | ok a => rfl

/-- `x` and `y` have the same results when they are equal up to `rename`, which touches
faults only. -/
theorem eq_ok_iff_of_mapError_eq {ε' : Type} {x y : Except ε α} {rename : ε → ε'} {a : α}
    (h : x.mapError rename = y.mapError rename) : x = .ok a ↔ y = .ok a := by
  have hkeeps : ∀ z : Except ε α, z = .ok a ↔ z.mapError rename = .ok a := by
    intro z
    cases z with
    | error e => simp [Except.mapError]
    | ok b => simp [Except.mapError]
  rw [hkeeps x, hkeeps y, h]

/-- `l.mapM f` gives `l'` when `f` gives the items of `l'` on those of `l`, place by
place. -/
theorem mapM_eq_ok_iff {f : α → Except ε β} {l : List α} {l' : List β} :
    l.mapM f = .ok l' ↔ List.Forall₂ (fun a b => f a = .ok b) l l' := by
  induction l generalizing l' with
  | nil =>
      rw [List.mapM_nil, except_pure, List.forall₂_nil_left_iff, Except.ok.injEq]
      exact eq_comm
  | cons a l ih =>
      simp only [List.mapM_cons, except_bind_eq_ok, except_pure, Except.ok.injEq]
      constructor
      · rintro ⟨b, hb, bs, hbs, rfl⟩
        exact .cons hb (ih.mp hbs)
      · intro h
        cases h with
        | cons hb hbs => exact ⟨_, hb, _, ih.mpr hbs, rfl⟩

/-- `l.mapM f` fails exactly when `f` fails on an item of `l`. -/
theorem mapM_fails_iff {f : α → Except ε β} {l : List α} :
    (∃ e, l.mapM f = .error e) ↔ ∃ a ∈ l, ∃ e, f a = .error e := by
  induction l with
  | nil => simp
  | cons a l ih =>
      simp only [List.mapM_cons, except_bind_fails_iff, except_pure, reduceCtorEq, exists_false,
        and_false, or_false, ih, List.mem_cons, exists_eq_or_imp]
      constructor
      · rintro (h | ⟨-, -, h⟩)
        · exact .inl h
        · exact .inr h
      · -- The rest is reached only if the first item succeeds.
        intro h
        cases hx : f a with
        | error e => exact .inl ⟨e, rfl⟩
        | ok b => exact .inr ⟨b, rfl, by simpa [hx] using h⟩

/-- `l.mapM f` fails with `e` when `f` does on an item `a`, and succeeds on all items
`before`. -/
theorem mapM_eq_error_iff {f : α → Except ε β} {l : List α} {e : ε} :
    l.mapM f = .error e ↔ ∃ before a after, l = before ++ a :: after ∧
      (∀ b ∈ before, ∃ c, f b = .ok c) ∧ f a = .error e := by
  induction l with
  | nil => simp
  | cons first rest ih =>
      rw [List.mapM_cons]
      cases hfirst : f first with
      | error fault =>
          -- Nothing comes before an item that fails at once.
          rw [except_bind_error, Except.error.injEq]
          constructor
          · rintro rfl
            exact ⟨[], first, rest, rfl, fun _ hb => absurd hb List.not_mem_nil, hfirst⟩
          · rintro ⟨before, a, after, hsplit, hbefore, ha⟩
            cases before with
            | nil =>
                obtain ⟨rfl, -⟩ := List.cons.inj hsplit
                rw [hfirst] at ha
                exact Except.error.inj ha
            | cons b before =>
                obtain ⟨rfl, -⟩ := List.cons.inj hsplit
                obtain ⟨c, hc⟩ := hbefore first (List.mem_cons_self ..)
                rw [hfirst] at hc
                cases hc
      | ok c =>
          have hrest : (do let cs ← rest.mapM f; pure (c :: cs)) = .error e ↔
              rest.mapM f = .error e := by
            cases rest.mapM f with
            | error fault => simp
            | ok cs => simp
          rw [except_bind_ok, hrest, ih]
          constructor
          · rintro ⟨before, a, after, rfl, hbefore, ha⟩
            exact ⟨first :: before, a, after, rfl,
              List.forall_mem_cons.mpr ⟨⟨c, hfirst⟩, hbefore⟩, ha⟩
          · rintro ⟨before, a, after, hsplit, hbefore, ha⟩
            cases before with
            | nil =>
                obtain ⟨rfl, -⟩ := List.cons.inj hsplit
                rw [hfirst] at ha
                cases ha
            | cons b before =>
                obtain ⟨rfl, htail⟩ := List.cons.inj hsplit
                exact ⟨before, a, after, htail, (List.forall_mem_cons.mp hbefore).2, ha⟩

/-- `l.foldlM f b` fails with `e` when `f` does on an item `a`, from the state `b'` that
the items `before` lead to. -/
theorem foldlM_eq_error_iff {f : β → α → Except ε β} {l : List α} {b : β} {e : ε} :
    l.foldlM f b = .error e ↔ ∃ before a after b', l = before ++ a :: after ∧
      before.foldlM f b = .ok b' ∧ f b' a = .error e := by
  induction l generalizing b with
  | nil => simp
  | cons first rest ih =>
      rw [List.foldlM_cons]
      constructor
      -- The first step fails, or the rest does from where that step leads.
      · intro h
        cases hfirst : f b first with
        | error fault =>
            rw [hfirst, except_bind_error, Except.error.injEq] at h
            exact ⟨[], first, rest, b, rfl, rfl, h ▸ hfirst⟩
        | ok c =>
            rw [hfirst, except_bind_ok, ih] at h
            obtain ⟨before, a, after, b', hsplit, hbefore, ha⟩ := h
            refine ⟨first :: before, a, after, b', ?_, ?_, ha⟩
            · rw [hsplit, List.cons_append]
            · rw [List.foldlM_cons, hfirst, except_bind_ok, hbefore]
      -- Nothing stands before the fault, or the first step is among what does.
      · intro ⟨before, a, after, b', hsplit, hbefore, ha⟩
        cases before with
        | nil =>
            rw [List.nil_append, List.cons.injEq] at hsplit
            rw [List.foldlM_nil, except_pure, Except.ok.injEq] at hbefore
            rw [hsplit.1, hbefore, ha, except_bind_error]
        | cons second before =>
            rw [List.cons_append, List.cons.injEq] at hsplit
            rw [List.foldlM_cons, except_bind_eq_ok] at hbefore
            obtain ⟨c, hfirst, hbefore⟩ := hbefore
            rw [hsplit.1, hfirst, except_bind_ok, ih]
            exact ⟨before, a, after, b', hsplit.2, hbefore, ha⟩

/-- `l.mapM f` succeeds when `f` does on every item. -/
theorem mapM_succeeds {f : α → Except ε β} {l : List α} (h : ∀ a ∈ l, ∃ b, f a = .ok b) :
    ∃ l', l.mapM f = .ok l' := by
  by_contra hnot
  obtain ⟨a, ha, e, he⟩ := mapM_fails_iff.mp (except_fails_iff.mpr hnot)
  obtain ⟨b, hb⟩ := h a ha
  rw [he] at hb
  cases hb

/-- `P` holds of some result of `mapM` when `Q` holds of some item, if `P` of a result
is `Q` of its item. -/
theorem exists_mem_of_mapM_eq_ok {f : α → Except ε β} {l : List α} {l' : List β}
    {P : β → Prop} {Q : α → Prop} (h : l.mapM f = .ok l')
    (hPQ : ∀ a b, f a = .ok b → (P b ↔ Q a)) : (∃ b ∈ l', P b) ↔ ∃ a ∈ l, Q a := by
  have hall := mapM_eq_ok_iff.mp h
  clear h
  induction hall with
  | nil => simp
  | cons hb _ ih => simp only [List.mem_cons, exists_eq_or_imp, ih, hPQ _ _ hb]

/-- `P` holds of all results of `mapM` when `f` gives only results with `P`. -/
theorem forall_mem_of_mapM_eq_ok {f : α → Except ε β} {l : List α} {l' : List β} {P : β → Prop}
    (h : l.mapM f = .ok l') (hP : ∀ a b, f a = .ok b → P b) : ∀ b ∈ l', P b := by
  have hall := mapM_eq_ok_iff.mp h
  clear h
  induction hall with
  | nil => exact fun b hb => absurd hb List.not_mem_nil
  | cons hb _ ih =>
      rw [List.forall_mem_cons]
      exact ⟨hP _ _ hb, ih⟩

/-- If `g` writes what `f` reads, and `f` reads nothing else, `mapM` reads exactly the
lists that `g` writes item by item. -/
theorem mapM_eq_ok_iff_eq_map {f : α → Except ε β} {g : β → α} {l : List α} {l' : List β}
    (h : ∀ a b, f a = .ok b ↔ a = g b) : l.mapM f = .ok l' ↔ l = l'.map g := by
  simp only [mapM_eq_ok_iff, h]
  rw [← List.forall₂_map_right_iff (R := Eq), List.forall₂_eq_eq_eq]

/-- Under the same `h`, `mapM` fails as `f` does on the first item that `g` did not
write. -/
theorem mapM_eq_error_iff_append_map {f : α → Except ε β} {g : β → α} {l : List α} {e : ε}
    (h : ∀ a b, f a = .ok b ↔ a = g b) :
    l.mapM f = .error e ↔
      ∃ (before : List β) (a : α) (after : List α), l = before.map g ++ a :: after ∧
        f a = .error e := by
  rw [mapM_eq_error_iff]
  constructor
  · rintro ⟨before, a, after, rfl, hbefore, ha⟩
    obtain ⟨results, hresults⟩ := mapM_succeeds hbefore
    obtain rfl := (mapM_eq_ok_iff_eq_map h).mp hresults
    exact ⟨results, a, after, rfl, ha⟩
  · rintro ⟨results, a, after, rfl, ha⟩
    refine ⟨results.map g, a, after, rfl, fun b hb => ?_, ha⟩
    obtain ⟨c, -, rfl⟩ := List.mem_map.mp hb
    exact ⟨c, (h _ _).mpr rfl⟩

/-- `mapM` reads a list that `g` has written, if `f` reads every item back. -/
theorem mapM_map_eq_ok {γ : Type} {f : β → Except ε γ} {g : α → β} {e : α → γ} {l : List α}
    (h : ∀ a ∈ l, f (g a) = .ok (e a)) : (l.map g).mapM f = .ok (l.map e) := by
  rw [mapM_eq_ok_iff, List.forall₂_map_left_iff, List.forall₂_map_right_iff, List.forall₂_same]
  exact h

end EntityRules.Proofs
