import EntityRules.Expr.Form

/-!
# `EntityRules.Proofs.Expr.Names`: names of operators and kinds

Every operator and every kind has one name in JSON, and is found by that name only. So the
rules for what is read as an expression can speak of operators and kinds, and a written
expression is read back by the names that it was written with.

* `LeafKind.ofName?_getD_eq_some_iff` and its like: the kind of an expression may be left
  out, which the reader takes for the empty text, and that names no kind.
* `Head.ofName?_eq_some_iff`: the name of an operator of any family.
-/

set_option autoImplicit false

namespace EntityRules

/-! ### Operators of one family -/

theorem LogicalOp.ofName?_eq_some_iff {text : String} {op : LogicalOp} :
    ofName? text = some op ↔ text = op.name := by
  cases op <;> grind [LogicalOp.ofName?, LogicalOp.name]

theorem ArithmeticOp.ofName?_eq_some_iff {text : String} {op : ArithmeticOp} :
    ofName? text = some op ↔ text = op.name := by
  cases op <;> grind [ArithmeticOp.ofName?, ArithmeticOp.name]

theorem ComparatorOp.ofName?_eq_some_iff {text : String} {op : ComparatorOp} :
    ofName? text = some op ↔ text = op.name := by
  cases op <;> grind [ComparatorOp.ofName?, ComparatorOp.name]

/-! ### Kinds -/

section Kinds

variable {type : Option String}

/-- `ofName?` reads a kind where it is named. The empty text, which stands for a name
that is missing, names none. -/
theorem LeafKind.ofName?_getD_eq_some_iff {kind : LeafKind} :
    ofName? (type.getD "") = some kind ↔ type = some kind.name := by
  cases type <;> cases kind <;> grind [LeafKind.ofName?, LeafKind.name]

theorem NumericKind.ofName?_getD_eq_some_iff {kind : NumericKind} :
    ofName? (type.getD "") = some kind ↔ type = some kind.leafKind.name := by
  cases type <;> cases kind <;> grind [NumericKind.ofName?, NumericKind.leafKind, LeafKind.name]

theorem ScalarKind.ofName?_getD_eq_some_iff {kind : ScalarKind} :
    ofName? (type.getD "") = some kind ↔ type = some kind.leafKind.name := by
  cases type <;> cases kind <;> grind [ScalarKind.ofName?, ScalarKind.leafKind, LeafKind.name]

end Kinds

/-! ### All operators -/

namespace Expr

theorem Head.ofName?_arithmetic (op : ArithmeticOp) :
    Head.ofName? op.name = some (.arithmetic op) := by
  cases op <;> rfl

theorem Head.ofName?_comparator (op : ComparatorOp) :
    Head.ofName? op.name = some (.comparator op) := by
  cases op <;> rfl

theorem Head.ofName?_logical (op : LogicalOp) : Head.ofName? op.name = some (.logical op) := by
  cases op <;> rfl

/-- `head.name`: the name of the operator that begins `head`. -/
def Head.name : Head → String
  | literal => "literal"
  | path => "path"
  | not => "not"
  | matching => "match"
  | logical op => op.name
  | arithmetic op => op.name
  | comparator op => op.name

/-- `ofName?` reads what `Head.name` writes. -/
theorem Head.ofName?_eq_some_iff {text : String} {head : Head} :
    ofName? text = some head ↔ text = head.name := by
  constructor
  · intro h
    rw [ofName?] at h
    split at h
    -- Four operators are asked for by their names, one after the other.
    · next htext => cases h; exact htext
    · split at h
      · next htext => cases h; exact htext
      · split at h
        · next htext => cases h; exact htext
        · split at h
          · next htext => cases h; exact htext
          -- The others are found by family.
          · simp only [Option.orElse_eq_orElse, Option.orElse_eq_or, Option.or_eq_some_iff,
              Option.map_eq_some_iff, LogicalOp.ofName?_eq_some_iff,
              ArithmeticOp.ofName?_eq_some_iff, ComparatorOp.ofName?_eq_some_iff] at h
            rcases h with ⟨op, rfl, rfl⟩ | ⟨-, ⟨op, rfl, rfl⟩ | ⟨-, op, rfl, rfl⟩⟩
            · rfl
            · rfl
            · rfl
  · rintro rfl
    cases head with
    | literal => rfl
    | path => rfl
    | not => rfl
    | matching => rfl
    | logical op => exact ofName?_logical op
    | arithmetic op => exact ofName?_arithmetic op
    | comparator op => exact ofName?_comparator op

end Expr

end EntityRules
