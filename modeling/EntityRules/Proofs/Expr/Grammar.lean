import EntityRules.Expr.Form
import EntityRules.Proofs.Expr.Literals
import EntityRules.Proofs.Expr.Names
import EntityRules.Proofs.Json.Members
import EntityRules.Proofs.Path.RoundTrip

/-!
# `EntityRules.Proofs.Expr.Grammar`: what is read as an expression

The reader walks over the members of an object until it finds the operands, and what it
does with them depends on the name of the operator. `Rule` says the same as a grammar: one
rule for each kind of expression, about the operator, the operands and, where it counts,
the kind. `Spells` applies the rules all the way down.

* `ofJson_obj`: the reader of an object as one equation; the operator decides what is made
  of the operands (`ofHead`).
* `ofHead_logical_eq_ok_iff` and its like: what that is, one lemma for each family of
  operators.
* `ofJson_eq_ok_iff_rule`: what is read obeys one rule, if its operands are what is read
  from them.
* `ofJson_eq_ok_iff`: by induction on the expression, what is read is what is spelled.
-/

set_option autoImplicit false

namespace EntityRules

open Proofs

namespace Expr

/-! ### The rules -/

/-- `Node members op args`: an object with an operator and operands, a text under `op`
and an array under `args`. -/
structure Node (members : List (String × Json)) (op : String) (args : List Json) : Prop where
  operator : (Json.obj members).getString? "op" = some op
  operands : (Json.obj members).getArray? "args" = some args

/-- `ArmRule Operand v arm`: the rule for an arm of a match, where `Operand` says what
its key and its value have to be. -/
inductive ArmRule (Operand : Json → Expr → Prop) : Json → Expr × Expr → Prop
  | guard {members : List (String × Json)} {v w : Json} {key value : Expr} :
      Node members "guard" [v, w] → Operand v key → Operand w value →
      ArmRule Operand (.obj members) (key, value)

/-- `Rule Operand v e`: the rules for an object that is an expression, where `Operand`
says what its operands have to be. -/
inductive Rule (Operand : Json → Expr → Prop) : Json → Expr → Prop
  | literal {members : List (String × Json)} {kind : LeafKind} {raw : Json} {value : Leaf} :
      Node members "literal" [raw] → (Json.obj members).getString? "type" = some kind.name →
      Leaf.ofJson kind raw = .ok value → Rule Operand (.obj members) (.literal value)
  | path {members : List (String × Json)} {text : String} :
      Node members "path" [.str text] → text ≠ "" → "" ∉ Path.pieces text →
      Rule Operand (.obj members) (.path ⟨Path.pieces text⟩)
  | not {members : List (String × Json)} {v : Json} {operand : Expr} :
      Node members "not" [v] → Operand v operand → Rule Operand (.obj members) (.not operand)
  /-- A connective has two operands or more. -/
  | logical {members : List (String × Json)} {op : LogicalOp} {args : List Json}
      {first second : Expr} {rest : List Expr} :
      Node members op.name args → List.Forall₂ Operand args (first :: second :: rest) →
      Rule Operand (.obj members) (.logical op first second rest)
  /-- An arithmetic operator has a numeric kind and one operand or more. -/
  | arithmetic {members : List (String × Json)} {op : ArithmeticOp} {kind : NumericKind}
      {args : List Json} {first : Expr} {rest : List Expr} :
      Node members op.name args →
      (Json.obj members).getString? "type" = some kind.leafKind.name →
      List.Forall₂ Operand args (first :: rest) →
      Rule Operand (.obj members) (.arithmetic op kind first rest)
  /-- A comparison has a scalar kind and two operands or more. -/
  | comparator {members : List (String × Json)} {op : ComparatorOp} {kind : ScalarKind}
      {args : List Json} {first second : Expr} {rest : List Expr} :
      Node members op.name args →
      (Json.obj members).getString? "type" = some kind.leafKind.name →
      List.Forall₂ Operand args (first :: second :: rest) →
      Rule Operand (.obj members) (.comparator op kind first second rest)
  /-- A match has a condition and a last branch, and between them its arms. -/
  | matching {members : List (String × Json)} {v last : Json} {guards : List Json}
      {condition otherwise : Expr} {arms : List (Expr × Expr)} :
      Node members "match" (v :: (guards ++ [last])) → Operand v condition →
      List.Forall₂ (ArmRule Operand) guards arms → Operand last otherwise →
      Rule Operand (.obj members) (.matching condition arms otherwise)

/-- `Spells v e`: the value obeys a `Rule`, and its operands spell theirs. -/
inductive Spells : Json → Expr → Prop
  | step {v : Json} {e : Expr} : Rule Spells v e → Spells v e

/-! ### One step of the reader -/

/-- `ofJsonAll` reads operands one by one. -/
theorem ofJsonAll_eq_mapM (vs : List Json) : ofJsonAll vs = vs.mapM ofJson := by
  induction vs with
  | nil => rfl
  | cons v rest ih => rw [ofJsonAll, ih, List.mapM_cons]

/-- `ofJsonArms` reads all branches of a match but the last. -/
theorem ofJsonArms_append_singleton (vs : List Json) (last : Json) :
    ofJsonArms (vs ++ [last]) = vs.mapM ofJsonArm := by
  induction vs with
  | nil => rfl
  | cons v rest ih =>
      rw [List.mapM_cons, ← ih, List.cons_append]
      cases h : rest ++ [last] with
      | nil => simp at h
      | cons w others => rw [ofJsonArms]; simp

/-- `ofJsonLast` reads the last branch of a match. -/
theorem ofJsonLast_append_singleton (vs : List Json) (last : Json) :
    ofJsonLast (vs ++ [last]) = ofJson last := by
  induction vs with
  | nil => rfl
  | cons v rest ih =>
      rw [← ih, List.cons_append]
      cases h : rest ++ [last] with
      | nil => simp at h
      | cons w others => rw [ofJsonLast]; simp

/-- `ofHead op type args head`: what an operator makes of its operands. -/
def ofHead (op type : String) (args : List Json) : Head → Except ReadError Expr
  | .literal => readLiteral op type args
  | .path => readPath op args
  | .not => do
    let operand ← ofJson (← single op args)
    return not operand
  | .logical logicalOp =>
    if args.length < 2 then .error (.operandCount op args.length)
    else do
      match ← args.mapM ofJson with
      | first :: second :: rest => return logical logicalOp first second rest
      | operands => .error (.operandCount op operands.length)
  | .arithmetic arithmeticOp =>
    match NumericKind.ofName? type with
    | none => .error (.nonNumericType op type)
    | some kind => do
      match ← args.mapM ofJson with
      | first :: rest => return arithmetic arithmeticOp kind first rest
      | [] => .error (.noOperand op)
  | .comparator comparatorOp =>
    match ScalarKind.ofName? type with
    | none => .error (.unsupportedType op type)
    | some kind =>
      if args.length < 2 then .error (.operandCount op args.length)
      else do
        match ← args.mapM ofJson with
        | first :: second :: rest => return comparator comparatorOp kind first second rest
        | operands => .error (.operandCount op operands.length)
  | .matching =>
    match args with
    | [] => .error .noCondition
    | condition :: branches =>
      if branches.isEmpty then .error .noOtherwise
      else do
        let arms ← ofJsonArms branches
        let condition ← ofJson condition
        let otherwise ← ofJsonLast branches
        return matching condition arms otherwise

/-- `ofMembers` looks for the operands under `args`, and `ofHead` takes them. -/
theorem ofMembers_eq (op type : String) (members : List (String × Json)) :
    ofMembers op type members =
      match (Json.obj members).getArray? "args" with
      | none => .error (.noArguments op)
      | some args =>
        match Head.ofName? op with
        | none => .error (.unknownOperator op)
        | some head => ofHead op type args head := by
  -- Members are passed over up to the operands, and there the operator decides.
  induction members with
  | nil => rw [ofMembers.eq_def]; rfl
  | cons member members ih =>
      obtain ⟨name, v⟩ := member
      rw [ofMembers.eq_def]
      dsimp only
      by_cases hname : name = "args"
      · subst hname
        rw [if_pos rfl]
        cases v with
        | arr args =>
            have hargs : (Json.obj (("args", .arr args) :: members)).getArray? "args" = some args :=
              rfl
            rw [hargs]
            dsimp only
            rw [ofJsonAll_eq_mapM]
            cases Head.ofName? op with
            | none => rfl
            | some head =>
                cases head with
                | not =>
                    match args with
                    | [] => rfl
                    | [v] => rfl
                    | _ :: _ :: _ => rfl
                | _ => rfl
        | _ => rfl
      · rw [if_neg hname, ih, Json.getArray?_cons_of_ne hname]

/-- `ofJson` looks at three members of an object: its operator, its operands and its
kind. -/
theorem ofJson_obj (members : List (String × Json)) :
    ofJson (.obj members) =
      match (Json.obj members).getString? "op" with
      | none => .error (.noOperator (.obj members))
      | some op =>
        match (Json.obj members).getArray? "args" with
        | none => .error (.noArguments op)
        | some args =>
          match Head.ofName? op with
          | none => .error (.unknownOperator op)
          | some head =>
            ofHead op (((Json.obj members).getString? "type").getD "") args head := by
  simp only [← ofMembers_eq]
  rw [ofJson]
  rfl

/-- `ofJson` reads an object that is a `Node` as what `ofHead` makes of its operands. -/
theorem ofJson_eq_ok_iff_ofHead {members : List (String × Json)} {e : Expr} :
    ofJson (.obj members) = .ok e ↔ ∃ args head, Node members head.name args ∧
      ofHead head.name (((Json.obj members).getString? "type").getD "") args head = .ok e := by
  -- An object that is read has an operator, operands and a known name, which make it a
  -- node.
  rw [ofJson_obj]
  constructor
  · intro h
    split at h
    · cases h
    · next op hop =>
        split at h
        · cases h
        · next args hargs =>
            split at h
            · cases h
            · next head hhead =>
                obtain rfl := Head.ofName?_eq_some_iff.mp hhead
                exact ⟨args, head, ⟨hop, hargs⟩, h⟩
  · rintro ⟨args, head, ⟨hop, hargs⟩, h⟩
    rw [hop, hargs]
    dsimp only
    rw [Head.ofName?_eq_some_iff.mpr rfl]
    exact h

/-! ### Single operands and arms -/

theorem single_eq_ok_iff {op : String} {args : List Json} {v : Json} :
    single op args = .ok v ↔ args = [v] := by
  match args with
  | [] => simp [single]
  | [w] => simp [single]
  | _ :: _ :: _ => simp [single]

/-- `ofGuard` reads the two items under `args` as the key and the value. -/
theorem ofGuard_eq (members : List (String × Json)) :
    ofGuard members =
      match (Json.obj members).getArray? "args" with
      | none => .error .guardWithoutArguments
      | some [v, w] => do
        let key ← ofJson v
        let value ← ofJson w
        return (key, value)
      | some _ => .error .guardShape := by
  induction members with
  | nil => rw [ofGuard.eq_def]; rfl
  | cons member members ih =>
      obtain ⟨name, v⟩ := member
      rw [ofGuard.eq_def]
      dsimp only
      by_cases hname : name = "args"
      · subst hname
        rw [if_pos rfl]
        cases v with
        | arr args =>
            match args with
            | [] => rfl
            | [_] => rfl
            | [_, _] => rfl
            | _ :: _ :: _ :: _ => rfl
        | _ => rfl
      · rw [if_neg hname, ih, Json.getArray?_cons_of_ne hname]

/-- `ofJsonArm` reads what obeys `ArmRule`. -/
theorem ofJsonArm_eq_ok_iff {v : Json} {arm : Expr × Expr} :
    ofJsonArm v = .ok arm ↔ ArmRule (fun v e => ofJson v = .ok e) v arm := by
  constructor
  · intro h
    cases v with
    | obj members =>
        rw [ofJsonArm, ofGuard_eq] at h
        split at h
        · next hop =>
            split at h
            · cases h
            -- Two items are left when the other faults are ruled out.
            · next v w hargs =>
                obtain ⟨key, hkey, h⟩ := except_bind_eq_ok.mp h
                obtain ⟨value, hvalue, h⟩ := except_bind_eq_ok.mp h
                cases h
                exact .guard ⟨hop, hargs⟩ hkey hvalue
            · cases h
        · cases h
    | _ => cases h
  · intro h
    cases h with
    | guard hnode hkey hvalue =>
        have hop := hnode.operator
        rw [Json.getString?, Json.get?] at hop
        rw [ofJsonArm, if_pos hop, ofGuard_eq, hnode.operands]
        dsimp only
        rw [hkey, hvalue]
        rfl

/-! ### What an operator makes of its operands

One lemma for each family of operators: `ofHead` gives an expression exactly when the
operands, and the kind where it counts, are what the rule of the family asks for. -/

section Operands

variable {op : String} {type : Option String} {args : List Json} {e : Expr}

/-- `ofHead` makes a literal of one operand, which is a leaf of the kind that `type`
names. -/
theorem ofHead_literal_eq_ok_iff :
    ofHead op (type.getD "") args .literal = .ok e ↔ ∃ raw kind value, args = [raw] ∧
      type = some kind.name ∧ Leaf.ofJson kind raw = .ok value ∧ e = .literal value := by
  simp only [ofHead, readLiteral, ← LeafKind.ofName?_getD_eq_some_iff]
  cases LeafKind.ofName? (type.getD "") with
  | none => simp
  | some kind =>
      simp only [except_bind_eq_ok, single_eq_ok_iff, except_pure, Except.ok.injEq,
        Option.some.injEq]
      constructor
      · rintro ⟨raw, hraw, value, hvalue, rfl⟩
        exact ⟨raw, kind, value, hraw, rfl, hvalue, rfl⟩
      · rintro ⟨raw, _, value, hraw, rfl, hvalue, rfl⟩
        exact ⟨raw, hraw, value, hvalue, rfl⟩

/-- `ofHead` makes a path of one operand, a text without an empty piece. -/
theorem ofHead_path_eq_ok_iff {type : String} :
    ofHead op type args .path = .ok e ↔ ∃ text, args = [.str text] ∧ text ≠ "" ∧
      "" ∉ Path.pieces text ∧ e = .path ⟨Path.pieces text⟩ := by
  rw [ofHead, readPath, except_bind_eq_ok]
  constructor
  · rintro ⟨raw, hraw, h⟩
    rw [single_eq_ok_iff] at hraw
    cases raw with
    | str text =>
        obtain ⟨p, hp, h⟩ := except_bind_eq_ok.mp h
        split at h
        · cases h
        · next hempty =>
            cases h
            obtain ⟨htext, hpieces, rfl⟩ :=
              Path.parse_nonempty_iff.mp ⟨hp, Bool.eq_false_iff.mpr hempty⟩
            exact ⟨text, hraw, htext, hpieces, rfl⟩
    | _ => cases h
  · rintro ⟨text, hargs, htext, hpieces, rfl⟩
    obtain ⟨hparse, hempty⟩ := Path.parse_nonempty_iff.mpr ⟨htext, hpieces, rfl⟩
    refine ⟨.str text, single_eq_ok_iff.mpr hargs, ?_⟩
    dsimp only [Json.asString?]
    rw [hparse, except_bind_ok, hempty]
    rfl

/-- `ofHead` makes a negation of one operand. -/
theorem ofHead_not_eq_ok_iff {type : String} :
    ofHead op type args .not = .ok e ↔
      ∃ v operand, args = [v] ∧ ofJson v = .ok operand ∧ e = .not operand := by
  simp only [ofHead, except_bind_eq_ok, single_eq_ok_iff, except_pure, Except.ok.injEq]
  constructor
  · rintro ⟨v, hv, operand, hoperand, rfl⟩
    exact ⟨v, operand, hv, hoperand, rfl⟩
  · rintro ⟨v, operand, hv, hoperand, rfl⟩
    exact ⟨v, hv, operand, hoperand, rfl⟩

/-- Operands that spell two expressions or more, by `R`, pass the check of their number.
-/
theorem not_length_lt_two_of_forall₂ {R : Json → Expr → Prop} {first second : Expr}
    {rest : List Expr} (h : List.Forall₂ R args (first :: second :: rest)) :
    ¬ args.length < 2 := by
  rw [h.length_eq]
  simp

/-- `ofHead` makes a connective of two operands or more. -/
theorem ofHead_logical_eq_ok_iff {type : String} {logicalOp : LogicalOp} :
    ofHead op type args (.logical logicalOp) = .ok e ↔ ∃ first second rest,
      List.Forall₂ (fun v e => ofJson v = .ok e) args (first :: second :: rest) ∧
        e = .logical logicalOp first second rest := by
  rw [ofHead]
  constructor
  · intro h
    split at h
    · cases h
    · obtain ⟨es, hes, h⟩ := except_bind_eq_ok.mp h
      split at h
      · cases h
        exact ⟨_, _, _, mapM_eq_ok_iff.mp hes, rfl⟩
      · cases h
  · rintro ⟨first, second, rest, hoperands, rfl⟩
    rw [if_neg (not_length_lt_two_of_forall₂ hoperands), mapM_eq_ok_iff.mpr hoperands]
    rfl

/-- `ofHead` makes arithmetic of one operand or more, with a numeric kind that `type`
names. -/
theorem ofHead_arithmetic_eq_ok_iff {arithmeticOp : ArithmeticOp} :
    ofHead op (type.getD "") args (.arithmetic arithmeticOp) = .ok e ↔ ∃ kind first rest,
      type = some kind.leafKind.name ∧
        List.Forall₂ (fun v e => ofJson v = .ok e) args (first :: rest) ∧
          e = .arithmetic arithmeticOp kind first rest := by
  rw [ofHead]
  constructor
  · intro h
    split at h
    · cases h
    · next kind hkind =>
        obtain ⟨es, hes, h⟩ := except_bind_eq_ok.mp h
        split at h
        · cases h
          exact ⟨kind, _, _, NumericKind.ofName?_getD_eq_some_iff.mp hkind,
            mapM_eq_ok_iff.mp hes, rfl⟩
        · cases h
  · rintro ⟨kind, first, rest, htype, hoperands, rfl⟩
    rw [NumericKind.ofName?_getD_eq_some_iff.mpr htype]
    dsimp only
    rw [mapM_eq_ok_iff.mpr hoperands]
    rfl

/-- `ofHead` makes a comparison of two operands or more, with a scalar kind that `type`
names. -/
theorem ofHead_comparator_eq_ok_iff {comparatorOp : ComparatorOp} :
    ofHead op (type.getD "") args (.comparator comparatorOp) = .ok e ↔
      ∃ kind first second rest, type = some kind.leafKind.name ∧
        List.Forall₂ (fun v e => ofJson v = .ok e) args (first :: second :: rest) ∧
          e = .comparator comparatorOp kind first second rest := by
  rw [ofHead]
  constructor
  · intro h
    split at h
    · cases h
    · next kind hkind =>
        split at h
        · cases h
        · obtain ⟨es, hes, h⟩ := except_bind_eq_ok.mp h
          split at h
          · cases h
            exact ⟨kind, _, _, _, ScalarKind.ofName?_getD_eq_some_iff.mp hkind,
              mapM_eq_ok_iff.mp hes, rfl⟩
          · cases h
  · rintro ⟨kind, first, second, rest, htype, hoperands, rfl⟩
    rw [ScalarKind.ofName?_getD_eq_some_iff.mpr htype]
    dsimp only
    rw [if_neg (not_length_lt_two_of_forall₂ hoperands), mapM_eq_ok_iff.mpr hoperands]
    rfl

/-- `ofHead` makes a match of its condition, its guards and its last branch, in this
order. -/
theorem ofHead_matching_eq_ok_iff {type : String} :
    ofHead op type args .matching = .ok e ↔ ∃ v guards last condition arms otherwise,
      args = v :: (guards ++ [last]) ∧ ofJson v = .ok condition ∧
        List.Forall₂ (ArmRule fun v e => ofJson v = .ok e) guards arms ∧
          ofJson last = .ok otherwise ∧ e = .matching condition arms otherwise := by
  constructor
  · intro h
    match args, h with
    | [], h =>
        -- Without a condition nothing is read.
        rw [ofHead] at h
        cases h
    | v :: branches, h =>
        rw [ofHead] at h
        obtain rfl | ⟨guards, last, rfl⟩ := List.eq_nil_or_concat' branches
        · cases h
        · -- All branches but the last are arms, and the last one is what holds otherwise.
          rw [if_neg (by simp), ofJsonArms_append_singleton, ofJsonLast_append_singleton] at h
          obtain ⟨arms, harms, h⟩ := except_bind_eq_ok.mp h
          obtain ⟨condition, hcondition, h⟩ := except_bind_eq_ok.mp h
          obtain ⟨otherwise, hotherwise, h⟩ := except_bind_eq_ok.mp h
          cases h
          have hguards := (mapM_eq_ok_iff.mp harms).imp fun _ _ => ofJsonArm_eq_ok_iff.mp
          exact ⟨v, guards, last, condition, arms, otherwise, rfl, hcondition, hguards,
            hotherwise, rfl⟩
  · rintro ⟨v, guards, last, condition, arms, otherwise, rfl, hcondition, hguards, hotherwise,
      rfl⟩
    have harms := mapM_eq_ok_iff.mpr (hguards.imp fun _ _ => ofJsonArm_eq_ok_iff.mpr)
    rw [ofHead, if_neg (by simp), ofJsonArms_append_singleton, ofJsonLast_append_singleton,
      harms, hcondition, hotherwise]
    rfl

end Operands

section Node

variable {members : List (String × Json)} {args : List Json} {head : Head} {e : Expr}

/-- What `ofHead` makes of the operands of a `Node` obeys the rule of its operator. -/
theorem rule_of_ofHead (hnode : Node members head.name args)
    (h : ofHead head.name (((Json.obj members).getString? "type").getD "") args head = .ok e) :
    Rule (fun v e => ofJson v = .ok e) (.obj members) e := by
  cases head with
  -- These have one operand.
  | literal =>
      obtain ⟨raw, kind, value, rfl, htype, hvalue, rfl⟩ := ofHead_literal_eq_ok_iff.mp h
      exact .literal hnode htype hvalue
  | path =>
      obtain ⟨text, rfl, htext, hpieces, rfl⟩ := ofHead_path_eq_ok_iff.mp h
      exact .path hnode htext hpieces
  | not =>
      obtain ⟨v, operand, rfl, hoperand, rfl⟩ := ofHead_not_eq_ok_iff.mp h
      exact .not hnode hoperand
  -- These have a list of operands, two of them with a kind.
  | logical op =>
      obtain ⟨first, second, rest, hoperands, rfl⟩ := ofHead_logical_eq_ok_iff.mp h
      exact .logical hnode hoperands
  | arithmetic op =>
      obtain ⟨kind, first, rest, htype, hoperands, rfl⟩ := ofHead_arithmetic_eq_ok_iff.mp h
      exact .arithmetic hnode htype hoperands
  | comparator op =>
      obtain ⟨kind, first, second, rest, htype, hoperands, rfl⟩ :=
        ofHead_comparator_eq_ok_iff.mp h
      exact .comparator hnode htype hoperands
  -- A match has arms between its operands.
  | matching =>
      obtain ⟨v, guards, last, condition, arms, otherwise, rfl, hcondition, hguards, hotherwise,
        rfl⟩ := ofHead_matching_eq_ok_iff.mp h
      exact .matching hnode hcondition hguards hotherwise

/-- What obeys a rule is made by `ofHead` of the operands of a `Node`. -/
theorem ofHead_of_rule (h : Rule (fun v e => ofJson v = .ok e) (.obj members) e) :
    ∃ args head, Node members head.name args ∧
      ofHead head.name (((Json.obj members).getString? "type").getD "") args head = .ok e := by
  cases h with
  -- These have one operand.
  | literal hnode htype hvalue =>
      exact ⟨_, .literal, hnode, ofHead_literal_eq_ok_iff.mpr ⟨_, _, _, rfl, htype, hvalue, rfl⟩⟩
  | path hnode htext hpieces =>
      exact ⟨_, .path, hnode, ofHead_path_eq_ok_iff.mpr ⟨_, rfl, htext, hpieces, rfl⟩⟩
  | not hnode hoperand =>
      exact ⟨_, .not, hnode, ofHead_not_eq_ok_iff.mpr ⟨_, _, rfl, hoperand, rfl⟩⟩
  -- These have a list of operands, two of them with a kind.
  | logical hnode hoperands =>
      exact ⟨_, .logical _, hnode, ofHead_logical_eq_ok_iff.mpr ⟨_, _, _, hoperands, rfl⟩⟩
  | arithmetic hnode htype hoperands =>
      exact ⟨_, .arithmetic _, hnode,
        ofHead_arithmetic_eq_ok_iff.mpr ⟨_, _, _, htype, hoperands, rfl⟩⟩
  | comparator hnode htype hoperands =>
      exact ⟨_, .comparator _, hnode,
        ofHead_comparator_eq_ok_iff.mpr ⟨_, _, _, _, htype, hoperands, rfl⟩⟩
  -- A match has arms between its operands.
  | matching hnode hcondition harms hotherwise =>
      exact ⟨_, .matching, hnode, ofHead_matching_eq_ok_iff.mpr
        ⟨_, _, _, _, _, _, rfl, hcondition, harms, hotherwise, rfl⟩⟩

end Node

/-- `ofJson` reads what obeys a `Rule`, if the operands are what it reads from them. -/
theorem ofJson_eq_ok_iff_rule {v : Json} {e : Expr} :
    ofJson v = .ok e ↔ Rule (fun v e => ofJson v = .ok e) v e := by
  cases v with
  | obj members =>
      rw [ofJson_eq_ok_iff_ofHead]
      constructor
      · rintro ⟨args, head, hnode, h⟩
        exact rule_of_ofHead hnode h
      · exact ofHead_of_rule
  -- Nothing but an object is read, and no rule is about anything else.
  | _ =>
      constructor
      · intro h
        cases h
      · intro h
        cases h

/-! ### All the way down -/

/-- A `Rule` asks of the operands only what the direct parts of the expression are. -/
theorem Rule.imp {R S : Json → Expr → Prop} {v : Json} {e : Expr}
    (h : ∀ c ∈ e.children, ∀ w, R w c → S w c) (hrule : Rule R v e) : Rule S v e := by
  cases hrule with
  | literal hnode htype hvalue => exact .literal hnode htype hvalue
  | path hnode htext hpieces => exact .path hnode htext hpieces
  | not hnode hoperand => exact .not hnode (h _ (by simp [children]) _ hoperand)
  | logical hnode hoperands => exact .logical hnode (forall₂_imp_of_mem h hoperands)
  | arithmetic hnode htype hoperands =>
      exact .arithmetic hnode htype (forall₂_imp_of_mem h hoperands)
  | comparator hnode htype hoperands =>
      exact .comparator hnode htype (forall₂_imp_of_mem h hoperands)
  | matching hnode hcondition harms hotherwise =>
      obtain ⟨hfirst, hguards, hlast⟩ := forall_mem_children_matching.mp h
      refine .matching hnode (hfirst _ hcondition) (forall₂_imp_of_mem ?_ harms)
        (hlast _ hotherwise)
      intro arm harm v hv
      obtain ⟨hkeys, hvalues⟩ := hguards arm harm
      cases hv with
      | guard hguard hkey hvalue => exact .guard hguard (hkeys _ hkey) (hvalues _ hvalue)

/-- Every direct part of an expression that obeys a `Rule` is what some operand has to
be. -/
theorem Rule.exists_operand {R : Json → Expr → Prop} {v : Json} {e : Expr} (hrule : Rule R v e) :
    ∀ c ∈ e.children, ∃ w, R w c := by
  -- Operands stand in a list, but for those of a negation and of a match.
  have hlist : ∀ {args : List Json} {es : List Expr}, List.Forall₂ R args es →
      ∀ c ∈ es, ∃ w, R w c := by
    intro args es hargs c hc
    obtain ⟨w, -, hw⟩ := exists_of_mem_of_forall₂ hargs c hc
    exact ⟨w, hw⟩
  cases hrule with
  | literal hnode htype hvalue => exact fun c hc => absurd hc List.not_mem_nil
  | path hnode htext hpieces => exact fun c hc => absurd hc List.not_mem_nil
  | not hnode hoperand => simpa [children] using ⟨_, hoperand⟩
  | logical hnode hoperands => exact hlist hoperands
  | arithmetic hnode htype hoperands => exact hlist hoperands
  | comparator hnode htype hoperands => exact hlist hoperands
  | matching hnode hcondition harms hotherwise =>
      refine forall_mem_children_matching.mpr ⟨⟨_, hcondition⟩, fun arm harm => ?_, ⟨_, hotherwise⟩⟩
      obtain ⟨w, -, hguard⟩ := exists_of_mem_of_forall₂ harms arm harm
      cases hguard with
      | guard hnode hkey hvalue => exact ⟨⟨_, hkey⟩, ⟨_, hvalue⟩⟩

/-- `ofJson` reads from a value what the value `Spells`. -/
theorem ofJson_eq_ok_iff {v : Json} {e : Expr} : ofJson v = .ok e ↔ Spells v e := by
  induction e using inductionOnChildren generalizing v with
  | step e ih =>
      -- The rule asks something of the direct parts only, for which the induction gives it.
      rw [ofJson_eq_ok_iff_rule]
      constructor
      · intro h
        exact .step (h.imp fun c hc w => (ih c hc).mp)
      · rintro ⟨h⟩
        exact h.imp fun c hc w => (ih c hc).mpr

end Expr

end EntityRules
