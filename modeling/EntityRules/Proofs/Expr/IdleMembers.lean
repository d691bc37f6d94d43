import EntityRules.Proofs.Expr.Grammar

/-!
# `EntityRules.Proofs.Expr.IdleMembers`: what does not matter in the JSON of an expression

The rules of the grammar look at the operator, the operands and, for some operators, the
kind. Everything else in an object is idle: other members, and the kind of a path, a
negation, a connective, a match or an arm. `Retouched` values differ in idle members, in
one object or in several, at any depth.

A message of the reader may quote the value that it refuses, with its idle members. So
outcomes are compared without what they quote (`SameOutcome`).

* `sameOutcome_ofHead`: an operator makes the same of operands that the reader cannot
  tell apart.
* `interchangeable_of_retouched`: the reader cannot tell retouched values apart, wherever
  in an expression they stand.
* `reads_the_grammar`: an expression is read exactly where the grammar spells it, and
  nothing idle changes the outcome.
-/

set_option autoImplicit false

namespace EntityRules

open Proofs

/-! ### Outcomes without quotes -/

/-- `e.unquoted`: the refusal without the JSON value that its message quotes. -/
def ReadError.unquoted : ReadError → ReadError
  | .notText _ => .notText .null
  | .notBoolean _ => .notBoolean .null
  | .notNumeric _ => .notNumeric .null
  | .noOperator _ => .noOperator .null
  | .notAGuard _ => .notAGuard .null
  | e => e

variable {α β : Type}

/-- `SameOutcome x y`: two readings have the same result, or refusals that are equal
when `unquoted`. -/
inductive SameOutcome : Except ReadError α → Except ReadError α → Prop
  | ok (a : α) : SameOutcome (.ok a) (.ok a)
  | error {e e' : ReadError} : e.unquoted = e'.unquoted → SameOutcome (.error e) (.error e')

namespace SameOutcome

variable {x y z : Except ReadError α}

theorem refl (x : Except ReadError α) : SameOutcome x x := by
  cases x with
  | error e => exact .error rfl
  | ok a => exact .ok a

theorem trans (h : SameOutcome x y) (h' : SameOutcome y z) : SameOutcome x z := by
  cases h with
  | ok a => exact h'
  | error hxy =>
      cases h' with
      | error hyz => exact .error (hxy.trans hyz)

/-- Readings with `SameOutcome` have the same results. -/
theorem eq_ok_iff (h : SameOutcome x y) {a : α} : x = .ok a ↔ y = .ok a := by
  cases h with
  | ok b => exact Iff.rfl
  | error _ => simp

/-- A bind, `>>=`, keeps `SameOutcome` when every step does. -/
theorem bind (h : SameOutcome x y) {f g : α → Except ReadError β}
    (hfg : ∀ a, SameOutcome (f a) (g a)) : SameOutcome (x >>= f) (y >>= g) := by
  cases h with
  | ok a => exact hfg a
  | error he => exact .error he

/-- `mapM` keeps `SameOutcome` when it holds item by item. -/
theorem mapM {R : Json → Json → Prop} {f : Json → Except ReadError α} {vs ws : List Json}
    (hlist : List.Forall₂ R vs ws) (hf : ∀ v w, R v w → SameOutcome (f v) (f w)) :
    SameOutcome (vs.mapM f) (ws.mapM f) := by
  induction hlist with
  | nil => exact .refl _
  | cons hvw _ ih =>
      rw [List.mapM_cons, List.mapM_cons]
      exact (hf _ _ hvw).bind fun _ => ih.bind fun _ => .refl _

end SameOutcome

namespace Expr

/-! ### Values that the reader cannot tell apart -/

/-- `Interchangeable v w`: two values are read alike wherever they stand, as an operand,
as an arm, as a literal of any kind and as the text of a path. -/
structure Interchangeable (v w : Json) : Prop where
  operand : SameOutcome (ofJson v) (ofJson w)
  arm : SameOutcome (ofJsonArm v) (ofJsonArm w)
  literal : ∀ kind, SameOutcome (Leaf.ofJson kind v) (Leaf.ofJson kind w)
  text : v.asString? = w.asString?

namespace Interchangeable

variable {u v w : Json}

theorem refl (v : Json) : Interchangeable v v where
  operand := .refl _
  arm := .refl _
  literal _ := .refl _
  text := rfl

theorem trans (h : Interchangeable u v) (h' : Interchangeable v w) : Interchangeable u w where
  operand := h.operand.trans h'.operand
  arm := h.arm.trans h'.arm
  literal kind := (h.literal kind).trans (h'.literal kind)
  text := h.text.trans h'.text

end Interchangeable

section Operands

variable {op type : String} {vs ws : List Json}

/-- What follows `single` has the same outcome for both lists, if it has for operands that
are `Interchangeable`: either both lists have one operand, or neither has. -/
theorem sameOutcome_single_bind (op : String) (h : List.Forall₂ Interchangeable vs ws)
    {f : Json → Except ReadError β}
    (hf : ∀ v w, Interchangeable v w → SameOutcome (f v) (f w)) :
    SameOutcome (single op vs >>= f) (single op ws >>= f) := by
  cases h with
  | nil => exact .refl _
  | cons hfirst hrest =>
      cases hrest with
      | nil => exact hf _ _ hfirst
      | cons hsecond hothers =>
          refine .error ?_
          simp only [List.length_cons, hothers.length_eq]

/-- `ofJsonArms` reads lists with `Interchangeable` items alike. -/
theorem sameOutcome_ofJsonArms (h : List.Forall₂ Interchangeable vs ws) :
    SameOutcome (ofJsonArms vs) (ofJsonArms ws) := by
  induction h with
  | nil => exact .refl _
  | cons hfirst hrest ih =>
      cases hrest with
      | nil => exact .refl _
      | cons hsecond hothers => exact hfirst.arm.bind fun _ => ih.bind fun _ => .refl _

/-- `ofJsonLast` reads lists with `Interchangeable` items alike. -/
theorem sameOutcome_ofJsonLast (h : List.Forall₂ Interchangeable vs ws) :
    SameOutcome (ofJsonLast vs) (ofJsonLast ws) := by
  induction h with
  | nil => exact .refl _
  | cons hfirst hrest ih =>
      cases hrest with
      | nil => exact hfirst.operand
      | cons hsecond hothers => exact ih

/-- `ofHead` makes the same of operands that are `Interchangeable`. -/
theorem sameOutcome_ofHead (h : List.Forall₂ Interchangeable vs ws) (head : Head) :
    SameOutcome (ofHead op type vs head) (ofHead op type ws head) := by
  have hlength : vs.length = ws.length := h.length_eq
  have hoperands : SameOutcome (vs.mapM ofJson) (ws.mapM ofJson) :=
    .mapM h fun _ _ hvw => hvw.operand
  cases head with
  -- These take one operand: a literal as a leaf, a path as a text, a negation as an
  -- expression.
  | literal =>
      rw [ofHead, ofHead, readLiteral, readLiteral]
      cases LeafKind.ofName? type with
      | none => exact .refl _
      | some kind =>
          exact sameOutcome_single_bind op h fun v w hvw =>
            (hvw.literal kind).bind fun _ => .refl _
  | path =>
      rw [ofHead, ofHead, readPath, readPath]
      refine sameOutcome_single_bind op h fun v w hvw => ?_
      rw [hvw.text]
      exact .refl _
  | not =>
      rw [ofHead, ofHead]
      exact sameOutcome_single_bind op h fun v w hvw => hvw.operand.bind fun _ => .refl _
  -- These look at the kind and count the operands, which is the same for both, and then
  -- read all operands.
  | logical logicalOp =>
      rw [ofHead, ofHead, hlength]
      split
      · exact .refl _
      · exact hoperands.bind fun _ => .refl _
  | arithmetic arithmeticOp =>
      rw [ofHead, ofHead]
      split
      · exact .refl _
      · exact hoperands.bind fun _ => .refl _
  | comparator comparatorOp =>
      rw [ofHead, ofHead, hlength]
      split
      · exact .refl _
      · split
        · exact .refl _
        · exact hoperands.bind fun _ => .refl _
  -- A match reads its arms, its condition and its last branch, in this order.
  | matching =>
      cases h with
      | nil => exact .refl _
      | cons hcondition hbranches =>
          rw [ofHead, ofHead]
          cases hbranches with
          | nil => exact .refl _
          | cons hnext hothers =>
              exact (sameOutcome_ofJsonArms (.cons hnext hothers)).bind fun _ =>
                hcondition.operand.bind fun _ =>
                  (sameOutcome_ofJsonLast (.cons hnext hothers)).bind fun _ => .refl _

end Operands

/-! ### Idle members -/

/-- `untyped`: the operators whose kind the rules do not look at. -/
def untyped : List String := ["path", "not", "and", "or", "match", "guard"]

/-- `SameHead ms ms'`: two objects have the same operator, and the same kind if it
counts for the operator. -/
structure SameHead (ms ms' : List (String × Json)) : Prop where
  operator : (Json.obj ms).getString? "op" = (Json.obj ms').getString? "op"
  kind : ∀ op, (Json.obj ms).getString? "op" = some op → op ∉ untyped →
    (Json.obj ms).getString? "type" = (Json.obj ms').getString? "type"

/-- For `SameHead` the operator is enough where it is `untyped`. -/
theorem SameHead.of_mem_untyped {ms ms' : List (String × Json)} {op : String}
    (h : (Json.obj ms).getString? "op" = some op) (h' : (Json.obj ms').getString? "op" = some op)
    (huntyped : op ∈ untyped) : SameHead ms ms' where
  operator := h.trans h'.symm
  kind op' hop hnot := by
    rw [h, Option.some.injEq] at hop
    exact absurd (hop ▸ huntyped) hnot

/-- `Retouched v w`: the values differ in idle members. -/
inductive Retouched : Json → Json → Prop
  /-- One object is another one, with the same operands. -/
  | members {ms ms' : List (String × Json)} : SameHead ms ms' →
      (Json.obj ms).getArray? "args" = (Json.obj ms').getArray? "args" →
      Retouched (.obj ms) (.obj ms')
  /-- One object is another one, and one of its operands is retouched. -/
  | operand {ms ms' : List (String × Json)} {before after : List Json} {v w : Json} :
      SameHead ms ms' → (Json.obj ms).getArray? "args" = some (before ++ v :: after) →
      (Json.obj ms').getArray? "args" = some (before ++ w :: after) → Retouched v w →
      Retouched (.obj ms) (.obj ms')
  /-- One change comes after another. -/
  | trans {u v w : Json} : Retouched u v → Retouched v w → Retouched u w

/-- `ofHead` does not look at the kind where the operator is `untyped`. -/
theorem ofHead_congr_type {head : Head} (h : head.name ∈ untyped) (op type type' : String)
    (args : List Json) : ofHead op type args head = ofHead op type' args head := by
  cases head with
  | literal => exact absurd h (by decide)
  | path => rfl
  | not => rfl
  | logical op => rfl
  | arithmetic op => cases op <;> exact absurd h (by decide)
  | comparator op => cases op <;> exact absurd h (by decide)
  | matching =>
      cases args with
      | nil => rfl
      | cons condition branches => rfl

section Objects

variable {ms ms' : List (String × Json)}

/-- `ofJson` reads objects alike that have `SameHead`, and operands that are
`Interchangeable`. -/
theorem sameOutcome_ofJson_obj (hhead : SameHead ms ms')
    (hargs : Option.Rel (List.Forall₂ Interchangeable) ((Json.obj ms).getArray? "args")
      ((Json.obj ms').getArray? "args")) :
    SameOutcome (ofJson (.obj ms)) (ofJson (.obj ms')) := by
  rw [ofJson_obj, ofJson_obj, ← hhead.operator]
  cases hop : (Json.obj ms).getString? "op" with
  | none => exact .error rfl
  | some op =>
      dsimp only
      generalize (Json.obj ms).getArray? "args" = args at hargs
      generalize (Json.obj ms').getArray? "args" = args' at hargs
      cases hargs with
      | none => exact .refl _
      | some hargs =>
          dsimp only
          cases hname : Head.ofName? op with
          | none => exact .refl _
          | some head =>
              dsimp only
              obtain rfl := Head.ofName?_eq_some_iff.mp hname
              -- The kinds may differ only where the operator does not look at them.
              by_cases huntyped : head.name ∈ untyped
              · rw [ofHead_congr_type huntyped _ _
                  (((Json.obj ms').getString? "type").getD "")]
                exact sameOutcome_ofHead hargs head
              · rw [hhead.kind _ hop huntyped]
                exact sameOutcome_ofHead hargs head

/-- `ofJsonArm` reads objects alike that have `SameHead`, and operands that are
`Interchangeable`. -/
theorem sameOutcome_ofJsonArm_obj (hhead : SameHead ms ms')
    (hargs : Option.Rel (List.Forall₂ Interchangeable) ((Json.obj ms).getArray? "args")
      ((Json.obj ms').getArray? "args")) :
    SameOutcome (ofJsonArm (.obj ms)) (ofJsonArm (.obj ms')) := by
  have hoperator := hhead.operator
  rw [Json.getString?, Json.getString?, Json.get?, Json.get?] at hoperator
  rw [ofJsonArm, ofJsonArm, ← hoperator, ofGuard_eq, ofGuard_eq]
  split
  · generalize (Json.obj ms).getArray? "args" = args at hargs
    generalize (Json.obj ms').getArray? "args" = args' at hargs
    cases hargs with
    | none => exact .refl _
    | some hargs =>
        -- Only two operands are taken apart.
        cases hargs with
        | nil => exact .refl _
        | cons hkey hrest =>
            cases hrest with
            | nil => exact .refl _
            | cons hvalue hothers =>
                cases hothers with
                | nil =>
                    exact hkey.operand.bind fun _ => hvalue.operand.bind fun _ => .refl _
                | cons _ _ => exact .refl _
  · exact .error rfl

/-- `Leaf.ofJson` refuses all objects for being objects. -/
theorem sameOutcome_leaf_obj (kind : LeafKind) :
    SameOutcome (Leaf.ofJson kind (.obj ms)) (Leaf.ofJson kind (.obj ms')) := by
  cases kind with
  | number => exact .error rfl
  | decimal => exact .error rfl
  | text => exact .error rfl
  | boolean => exact .error rfl

/-- Objects that have `SameHead` and operands that are `Interchangeable` are so
themselves. -/
theorem interchangeable_obj (hhead : SameHead ms ms')
    (hargs : Option.Rel (List.Forall₂ Interchangeable) ((Json.obj ms).getArray? "args")
      ((Json.obj ms').getArray? "args")) : Interchangeable (.obj ms) (.obj ms') where
  operand := sameOutcome_ofJson_obj hhead hargs
  arm := sameOutcome_ofJsonArm_obj hhead hargs
  literal := sameOutcome_leaf_obj
  text := rfl

end Objects

/-- Values that are `Retouched` are `Interchangeable`. -/
theorem interchangeable_of_retouched {v w : Json} (h : Retouched v w) : Interchangeable v w := by
  have hrefl : ∀ vs : List Json, List.Forall₂ Interchangeable vs vs :=
    fun vs => List.forall₂_same.mpr fun v _ => .refl v
  induction h with
  | members hhead hargs =>
      refine interchangeable_obj hhead ?_
      rw [hargs]
      cases Json.getArray? "args" _ with
      | none => exact .none
      | some args => exact .some (hrefl args)
  | operand hhead hv hw _ ih =>
      refine interchangeable_obj hhead ?_
      -- Of the operands only one is another, and that one is covered by the induction.
      rw [hv, hw]
      exact .some (List.rel_append (hrefl _) (.cons ih (hrefl _)))
  | trans _ _ ih ih' => exact ih.trans ih'

/-- `ofJson` reads an expression from a value exactly when the value `Spells` it by the
rules of the grammar. Nothing else in the value matters: where objects are `Retouched`
in idle members, at any depth, the result is the same, or the refusal is, apart from the
value that it quotes. -/
theorem reads_the_grammar :
    (∀ v e, ofJson v = .ok e ↔ Spells v e) ∧
    ∀ v w, Retouched v w → SameOutcome (ofJson v) (ofJson w) :=
  ⟨fun _ _ => ofJson_eq_ok_iff, fun _ _ h => (interchangeable_of_retouched h).operand⟩

/-- `closed`: whether an order is closed, by its state. -/
def closed : Expr :=
  matching (path ⟨["_curr", "state"]⟩)
    [(literal (.text "paid"), literal (.boolean true))] (literal (.boolean false))

/-- `closed` with a note at the match and at its arm, and with other kinds for the
match, the arm and the path. -/
def closedNoted : Json := .obj [
  ("args", .arr [
    .obj [("args", .arr [.str "_curr.state"]), ("op", .str "path")],
    .obj [
      ("args", .arr [form "literal" "text" [.str "paid"], form "literal" "boolean" [.bool true]]),
      ("note", .str "settled"), ("op", .str "guard"), ("type", .int 2)],
    form "literal" "boolean" [.bool false]]),
  ("note", .str "open until paid"), ("op", .str "match"), ("type", .str "boolean")]

/-- `closed` is spelled by its own JSON. The notes and the other kinds do not change
what is read, and a literal without its kind is refused. -/
theorem reads_the_grammar_closed :
    Spells closed.toJson closed ∧ Retouched closed.toJson closedNoted ∧
    ofJson closedNoted = .ok closed ∧
    ¬ ∃ e, Spells (.obj [("args", .arr [.bool true]), ("op", .str "literal")]) e := by
  have hread : ofJson closed.toJson = .ok closed := rfl
  -- The path loses its kind, then the arm gets its note, and the match its own with it.
  have hpath : Retouched (path ⟨["_curr", "state"]⟩).toJson
      (.obj [("args", .arr [.str "_curr.state"]), ("op", .str "path")]) :=
    .members (.of_mem_untyped rfl rfl (by decide)) rfl
  have harm : Retouched
      (form "guard" "pair" [(literal (.text "paid")).toJson, (literal (.boolean true)).toJson])
      (.obj [
        ("args", .arr [form "literal" "text" [.str "paid"], form "literal" "boolean" [.bool true]]),
        ("note", .str "settled"), ("op", .str "guard"), ("type", .int 2)]) :=
    .members (.of_mem_untyped rfl rfl (by decide)) rfl
  have hretouched : Retouched closed.toJson closedNoted :=
    .trans (v := form "match" "match" [_, _, _])
      (@Retouched.operand _ _ [] [_, _] _ _ (.of_mem_untyped rfl rfl (by decide)) rfl rfl hpath)
      (@Retouched.operand _ _ [_] [_] _ _ (.of_mem_untyped rfl rfl (by decide)) rfl rfl harm)
  refine ⟨(reads_the_grammar.1 _ _).mp hread, hretouched,
    (reads_the_grammar.2 _ _ hretouched).eq_ok_iff.mp hread, ?_⟩
  rintro ⟨e, h⟩
  cases (reads_the_grammar.1 _ _).mpr h

end Expr

end EntityRules
