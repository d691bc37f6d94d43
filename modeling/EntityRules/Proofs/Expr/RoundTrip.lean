import EntityRules.Proofs.Expr.Grammar
import EntityRules.Proofs.Leaf.RoundTrip

/-!
# `EntityRules.Proofs.Expr.RoundTrip`: an expression read back from its JSON

An expression is written and read by two recursions that do not look alike: the
writer goes by the constructor, the reader by the name of the operator, and the
arms of a match stand among its other branches. `Readable` is the condition
under which they meet: every path in the expression can be told from its text
and is not empty.

* `spells_toJson`: what is written for a readable expression spells it by the rules of
  the grammar.
* `ofJson_toJson`: a readable expression is read from its JSON, with its
  literals made canonical.
* `readable_of_ofJson`: whatever is read is readable.
* `eq_of_toJson_eq`: expressions that differ at most in their literals and are
  written alike are equal, by induction on what `ToldByJson` says of the parts.
-/

set_option autoImplicit false

namespace EntityRules.Expr

open Proofs

/-- `e.Readable`: the paths in `e` can be told from their texts, and none is empty. -/
def Readable (e : Expr) : Prop := ∀ p ∈ e.occurrences, p.Readable ∧ p.segments ≠ []

/-- `e.canonical`: the expression that is read from the JSON of `e`, its literals made
canonical. -/
def canonical (e : Expr) : Expr := e.mapLiterals Leaf.canonical

/-! ### Readable expressions -/

@[simp] theorem occurrencesAll_eq_flatMap (es : List Expr) :
    occurrencesAll es = es.flatMap occurrences := by
  induction es with
  | nil => rfl
  | cons e rest ih => rw [occurrencesAll, ih, List.flatMap_cons]

@[simp] theorem occurrencesArms_eq_flatMap (arms : List (Expr × Expr)) :
    occurrencesArms arms = arms.flatMap fun arm => arm.1.occurrences ++ arm.2.occurrences := by
  induction arms with
  | nil => rfl
  | cons arm rest ih => rw [occurrencesArms, ih, List.flatMap_cons, List.append_assoc]

@[simp] theorem readable_literal (value : Leaf) : (literal value).Readable :=
  fun _ h => absurd h List.not_mem_nil

@[simp] theorem readable_path {p : Path} : (path p).Readable ↔ p.Readable ∧ p.segments ≠ [] :=
  List.forall_mem_singleton

@[simp] theorem readable_arithmetic {op : ArithmeticOp} {kind : NumericKind} {first : Expr}
    {rest : List Expr} : (arithmetic op kind first rest).Readable ↔
      first.Readable ∧ ∀ e ∈ rest, e.Readable := by
  simp only [Readable, occurrences, occurrencesAll_eq_flatMap, List.forall_mem_append,
    List.forall_mem_flatMap]

@[simp] theorem readable_comparator {op : ComparatorOp} {kind : ScalarKind} {first second : Expr}
    {rest : List Expr} : (comparator op kind first second rest).Readable ↔
      first.Readable ∧ second.Readable ∧ ∀ e ∈ rest, e.Readable := by
  simp only [Readable, occurrences, occurrencesAll_eq_flatMap, List.forall_mem_append,
    List.forall_mem_flatMap]

@[simp] theorem readable_logical {op : LogicalOp} {first second : Expr} {rest : List Expr} :
    (logical op first second rest).Readable ↔
      first.Readable ∧ second.Readable ∧ ∀ e ∈ rest, e.Readable := by
  simp only [Readable, occurrences, occurrencesAll_eq_flatMap, List.forall_mem_append,
    List.forall_mem_flatMap]

@[simp] theorem readable_not {operand : Expr} : (not operand).Readable ↔ operand.Readable :=
  Iff.rfl

@[simp] theorem readable_matching {condition otherwise : Expr} {arms : List (Expr × Expr)} :
    (matching condition arms otherwise).Readable ↔
      condition.Readable ∧ (∀ arm ∈ arms, arm.1.Readable ∧ arm.2.Readable) ∧
        otherwise.Readable := by
  simp only [Readable, occurrences, occurrencesArms_eq_flatMap, List.forall_mem_append,
    List.forall_mem_flatMap]

/-! ### Lists of operands and branches -/

theorem toJsonAll_eq_map (es : List Expr) : toJsonAll es = es.map toJson := by
  induction es with
  | nil => rfl
  | cons e rest ih => rw [toJsonAll, ih, List.map_cons]

theorem toJsonArms_eq_map (arms : List (Expr × Expr)) :
    toJsonArms arms = arms.map fun arm => form "guard" "pair" [arm.1.toJson, arm.2.toJson] := by
  induction arms with
  | nil => rfl
  | cons arm rest ih => rw [toJsonArms, ih, List.map_cons]

/-! ### Reading what was written -/

/-- `toJson` of an expression is never `null`. -/
@[simp] theorem isNull_toJson (e : Expr) : e.toJson.isNull = false := by
  cases e <;> rfl

/-- `form op type args` is a `Node` of this operator and these operands. -/
theorem node_form (op type : String) (args : List Json) :
    Node [("args", .arr args), ("op", .str op), ("type", .str type)] op args :=
  ⟨rfl, rfl⟩

/-- `toJson` of a `Readable` expression `Spells` its `canonical` form. -/
theorem spells_toJson {e : Expr} (he : e.Readable) : Spells e.toJson e.canonical := by
  -- Operands are written one by one, so a list of them adds nothing to the induction.
  have hlist : ∀ es : List Expr, (∀ e ∈ es, e.Readable) →
      (∀ e ∈ es, e.Readable → Spells e.toJson e.canonical) →
      List.Forall₂ Spells (toJsonAll es) (mapLiteralsAll Leaf.canonical es) := by
    intro es hes ih
    rw [toJsonAll_eq_map, mapLiteralsAll_eq_map, List.forall₂_map_left_iff,
      List.forall₂_map_right_iff, List.forall₂_same]
    exact fun e he => ih e he (hes e he)
  induction e with
  | literal value => exact .step (.literal (node_form _ _ _) rfl (Leaf.ofJson_toJson value))
  | path p =>
      obtain ⟨hp, hne⟩ := readable_path.mp he
      have hempty : p.isEmpty = false := by simpa [Path.isEmpty] using hne
      obtain ⟨htext, hpieces, hsegments⟩ := Path.parse_nonempty_iff.mp ⟨Path.parse_text hp, hempty⟩
      have hrule : Rule Spells (toJson (path p)) (path ⟨Path.pieces p.text⟩) :=
        .path (node_form _ _ _) htext hpieces
      rw [← hsegments] at hrule
      exact .step hrule
  | arithmetic op kind first rest ihfirst ihrest =>
      obtain ⟨hfirst, hrest⟩ := readable_arithmetic.mp he
      exact .step (.arithmetic (node_form _ _ _) rfl
        (.cons (ihfirst hfirst) (hlist rest hrest ihrest)))
  | comparator op kind first second rest ihfirst ihsecond ihrest =>
      obtain ⟨hfirst, hsecond, hrest⟩ := readable_comparator.mp he
      exact .step (.comparator (node_form _ _ _) rfl
        (.cons (ihfirst hfirst) (.cons (ihsecond hsecond) (hlist rest hrest ihrest))))
  | logical op first second rest ihfirst ihsecond ihrest =>
      obtain ⟨hfirst, hsecond, hrest⟩ := readable_logical.mp he
      exact .step (.logical (node_form _ _ _)
        (.cons (ihfirst hfirst) (.cons (ihsecond hsecond) (hlist rest hrest ihrest))))
  | not operand ih => exact .step (.not (node_form _ _ _) (ih he))
  | matching condition arms otherwise ihcondition iharms ihotherwise =>
      obtain ⟨hcondition, harms, hotherwise⟩ := readable_matching.mp he
      have hguards : List.Forall₂ (ArmRule Spells) (toJsonArms arms)
          (mapLiteralsArms Leaf.canonical arms) := by
        rw [toJsonArms_eq_map, mapLiteralsArms_eq_map, List.forall₂_map_left_iff,
          List.forall₂_map_right_iff, List.forall₂_same]
        intro arm harm
        exact .guard (node_form _ _ _) ((iharms arm harm).1 (harms arm harm).1)
          ((iharms arm harm).2 (harms arm harm).2)
      exact .step (.matching (node_form _ _ _) (ihcondition hcondition) hguards
        (ihotherwise hotherwise))

/-- `ofJson` reads a `Readable` expression back from its `toJson`, as its `canonical`
form. -/
theorem ofJson_toJson {e : Expr} (he : e.Readable) : ofJson e.toJson = .ok e.canonical :=
  ofJson_eq_ok_iff.mpr (spells_toJson he)

/-! ### Reading only what can be written -/

/-- An expression is `Readable` if its `children` are, and its path if it is one. -/
theorem readable_of_children {e : Expr} (hchildren : ∀ c ∈ e.children, c.Readable)
    (hpath : ∀ p, e = path p → p.Readable ∧ p.segments ≠ []) : e.Readable := by
  cases e with
  | literal value => exact readable_literal value
  | path p => exact readable_path.mpr (hpath p rfl)
  | arithmetic op kind first rest => simpa [children] using hchildren
  | comparator op kind first second rest => simpa [children] using hchildren
  | logical op first second rest => simpa [children] using hchildren
  | not operand => simpa [children] using hchildren
  | matching condition arms otherwise =>
      exact readable_matching.mpr (forall_mem_children_matching.mp hchildren)

/-- Whatever `ofJson` reads is `Readable`. -/
theorem readable_of_ofJson (v : Json) {e : Expr} (h : ofJson v = .ok e) : e.Readable := by
  induction e using inductionOnChildren generalizing v with
  | step e ih =>
      have hrule := ofJson_eq_ok_iff_rule.mp h
      refine readable_of_children ?_ ?_
      · intro c hc
        obtain ⟨w, hw⟩ := hrule.exists_operand c hc
        exact ih c hc w hw
      · rintro p rfl
        cases hrule with
        | path hnode htext hpieces =>
            obtain ⟨hparse, hempty⟩ := Path.parse_nonempty_iff.mpr ⟨htext, hpieces, rfl⟩
            exact ⟨Path.readable_of_parse hparse, by simpa [Path.isEmpty] using hempty⟩

/-! ### Literals apart -/

/-- Equal values of `form` have equal operands. -/
theorem args_of_form_eq {op op' type type' : String} {args args' : List Json}
    (h : form op type args = form op' type' args') : args = args' := by
  simp only [form, Json.obj.injEq, List.cons.injEq, Prod.mk.injEq, true_and, Json.arr.injEq] at h
  exact h.1

/-- `ToldByJson e`: no other expression has the `canonical` form of `e` and its `toJson`. -/
def ToldByJson (e : Expr) : Prop :=
  ∀ b : Expr, e.canonical = b.canonical → e.toJson = b.toJson → e = b

/-- Operands that are `ToldByJson` are told by their list. -/
theorem eq_of_toJsonAll_eq {es es' : List Expr} (h : ∀ e ∈ es, e.ToldByJson)
    (hsame : mapLiteralsAll Leaf.canonical es = mapLiteralsAll Leaf.canonical es')
    (hjson : toJsonAll es = toJsonAll es') : es = es' := by
  rw [mapLiteralsAll_eq_map, mapLiteralsAll_eq_map] at hsame
  rw [toJsonAll_eq_map, toJsonAll_eq_map] at hjson
  exact eq_of_map_eq_map hsame hjson h

/-- Arms whose keys and values are `ToldByJson` are told by their list. -/
theorem eq_of_toJsonArms_eq {arms arms' : List (Expr × Expr)}
    (h : ∀ arm ∈ arms, arm.1.ToldByJson ∧ arm.2.ToldByJson)
    (hsame : mapLiteralsArms Leaf.canonical arms = mapLiteralsArms Leaf.canonical arms')
    (hjson : toJsonArms arms = toJsonArms arms') : arms = arms' := by
  rw [mapLiteralsArms_eq_map, mapLiteralsArms_eq_map] at hsame
  rw [toJsonArms_eq_map, toJsonArms_eq_map] at hjson
  refine eq_of_map_eq_map hsame hjson fun arm harm arm' hsame' hjson' => ?_
  obtain ⟨hkey, hvalue⟩ := h arm harm
  obtain ⟨hsameKey, hsameValue⟩ := Prod.mk.inj hsame'
  obtain ⟨hjsonKey, hothers⟩ := List.cons.inj (args_of_form_eq hjson')
  exact Prod.ext (hkey _ hsameKey hjsonKey) (hvalue _ hsameValue (List.cons.inj hothers).1)

/-- Every expression is `ToldByJson`. -/
theorem toldByJson (a : Expr) : a.ToldByJson := by
  -- The canonical expressions have one constructor, so the same cases of `b` are left.
  induction a with
  -- A literal is told by its kind and its value, a path by its segments.
  | literal value =>
      intro b hsame h
      cases b with
      | literal value' =>
          have hcanonical : value.canonical = value'.canonical := literal.inj hsame
          have hkind : value.kind = value'.kind := by
            rw [← Leaf.kind_canonical, hcanonical, Leaf.kind_canonical]
          have hvalue : value.toJson = value'.toJson := by
            simpa using args_of_form_eq h
          rw [Leaf.eq_of_toJson_eq hkind hvalue]
      | _ => cases hsame
  | path p =>
      intro b hsame h
      cases b with
      | path q => exact hsame
      | _ => cases hsame
  -- The operator and the kind stay in the canonical form, and the operands are told one by
  -- one.
  | arithmetic op kind first rest ihfirst ihrest =>
      intro b hsame h
      cases b with
      | arithmetic op' kind' first' rest' =>
          obtain ⟨rfl, rfl, hfirst, hrest⟩ := arithmetic.inj hsame
          obtain ⟨hjson, hjsons⟩ := List.cons.inj (args_of_form_eq h)
          rw [ihfirst _ hfirst hjson, eq_of_toJsonAll_eq ihrest hrest hjsons]
      | _ => cases hsame
  | comparator op kind first second rest ihfirst ihsecond ihrest =>
      intro b hsame h
      cases b with
      | comparator op' kind' first' second' rest' =>
          obtain ⟨rfl, rfl, hfirst, hsecond, hrest⟩ := comparator.inj hsame
          obtain ⟨hjson, hothers⟩ := List.cons.inj (args_of_form_eq h)
          obtain ⟨hjson', hjsons⟩ := List.cons.inj hothers
          rw [ihfirst _ hfirst hjson, ihsecond _ hsecond hjson',
            eq_of_toJsonAll_eq ihrest hrest hjsons]
      | _ => cases hsame
  | logical op first second rest ihfirst ihsecond ihrest =>
      intro b hsame h
      cases b with
      | logical op' first' second' rest' =>
          obtain ⟨rfl, hfirst, hsecond, hrest⟩ := logical.inj hsame
          obtain ⟨hjson, hothers⟩ := List.cons.inj (args_of_form_eq h)
          obtain ⟨hjson', hjsons⟩ := List.cons.inj hothers
          rw [ihfirst _ hfirst hjson, ihsecond _ hsecond hjson',
            eq_of_toJsonAll_eq ihrest hrest hjsons]
      | _ => cases hsame
  | not operand ih =>
      intro b hsame h
      cases b with
      | not operand' =>
          rw [ih _ (not.inj hsame) (List.cons.inj (args_of_form_eq h)).1]
      | _ => cases hsame
  -- Between the condition and the last branch stand the arms.
  | matching condition arms otherwise ihcondition iharms ihotherwise =>
      intro b hsame h
      cases b with
      | matching condition' arms' otherwise' =>
          obtain ⟨hcondition, harms, hotherwise⟩ := matching.inj hsame
          obtain ⟨hjson, hbranches⟩ := List.cons.inj (args_of_form_eq h)
          obtain ⟨hjsons, hlast⟩ := List.append_inj' hbranches rfl
          rw [ihcondition _ hcondition hjson, eq_of_toJsonArms_eq iharms harms hjsons,
            ihotherwise _ hotherwise (List.cons.inj hlast).1]
      | _ => cases hsame

/-- Expressions that have one `canonical` form and one `toJson` are equal. -/
theorem eq_of_toJson_eq {a b : Expr} (hsame : a.canonical = b.canonical)
    (h : a.toJson = b.toJson) : a = b :=
  toldByJson a b hsame h

end EntityRules.Expr
