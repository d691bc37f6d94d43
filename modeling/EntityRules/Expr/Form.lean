import EntityRules.Expr.Basic
import EntityRules.Leaf.Form
import EntityRules.Path.Form

/-!
# `EntityRules.Expr.Form`: expressions as JSON

An expression is written as an object with the name of its operator (`op`), a
kind (`type`) and its operands (`args`). The arms of a match stand between its
condition and its last branch as objects of operator `guard`.

Reading looks at these three members only. The kind is read for literals,
arithmetic and comparisons and has no effect elsewhere. Of several faults the
first in this order is reported: no operator, no operands, a bad kind, a wrong
number of operands, and then the faults of the operands from left to right; in a
match the arms come before the condition and the last branch.
-/

set_option autoImplicit false

namespace EntityRules

namespace Expr

/-! ### Writing -/

/-- The object of an operator, a kind and operands. -/
def form (op type : String) (args : List Json) : Json :=
  .obj [("args", .arr args), ("op", .str op), ("type", .str type)]

mutual

/-- An expression as JSON. -/
def toJson : Expr → Json
  | literal value => form "literal" value.kind.name [value.toJson]
  | path p => form "path" "ref" [p.toJson]
  | arithmetic op kind first rest =>
    form op.name kind.leafKind.name (toJson first :: toJsonAll rest)
  | comparator op kind first second rest =>
    form op.name kind.leafKind.name (toJson first :: toJson second :: toJsonAll rest)
  | logical op first second rest =>
    form op.name "boolean" (toJson first :: toJson second :: toJsonAll rest)
  | not operand => form "not" "boolean" [toJson operand]
  | matching condition arms otherwise =>
    form "match" "match" (toJson condition :: (toJsonArms arms ++ [toJson otherwise]))

/-- A list of operands as JSON. -/
def toJsonAll : List Expr → List Json
  | [] => []
  | e :: rest => toJson e :: toJsonAll rest

/-- The arms of a match as JSON. -/
def toJsonArms : List (Expr × Expr) → List Json
  | [] => []
  | (key, value) :: rest => form "guard" "pair" [toJson key, toJson value] :: toJsonArms rest

end

/-! ### Reading -/

/-- What the name of an operator begins. -/
inductive Head
  | literal
  | path
  | not
  | matching
  | logical (op : LogicalOp)
  | arithmetic (op : ArithmeticOp)
  | comparator (op : ComparatorOp)

/-- What an operator of this name begins. -/
def Head.ofName? (name : String) : Option Head :=
  if name = "literal" then some literal
  else if name = "path" then some path
  else if name = "not" then some not
  else if name = "match" then some matching
  else (LogicalOp.ofName? name).map logical
    <|> (ArithmeticOp.ofName? name).map arithmetic
    <|> (ComparatorOp.ofName? name).map comparator

/-- The only argument of an operator. -/
def single (op : String) : List Json → Except ReadError Json
  | [only] => .ok only
  | args => .error (.argumentCount op args.length)

/-- Reads a literal of a kind. -/
def readLiteral (op type : String) (args : List Json) : Except ReadError Expr :=
  match LeafKind.ofName? type with
  | none => .error (.unknownLiteralType type)
  | some kind => do
    let raw ← single op args
    let value ← Leaf.ofJson kind raw
    return literal value

/-- Reads a path that is not empty. -/
def readPath (op : String) (args : List Json) : Except ReadError Expr := do
  let raw ← single op args
  match raw.asString? with
  | none => .error .pathNotText
  | some text => do
    let p ← Path.parse text
    if p.isEmpty then .error .pathEmpty else return path p

mutual

/-- Reads an expression. -/
def ofJson : Json → Except ReadError Expr
  | .obj members =>
    match (members.lookup "op").bind Json.asString? with
    | none => .error (.noOperator (.obj members))
    | some op => ofMembers op (((members.lookup "type").bind Json.asString?).getD "") members
  | v => .error (.noOperator v)

/-- Reads an expression from its operator, its kind and the members among which
its operands are. -/
def ofMembers (op type : String) : List (String × Json) → Except ReadError Expr
  | [] => .error (.noArguments op)
  | (name, v) :: members =>
    if name = "args" then
      match v with
      | .arr args =>
        match Head.ofName? op with
        | none => .error (.unknownOperator op)
        | some .literal => readLiteral op type args
        | some .path => readPath op args
        | some .not =>
          match args with
          | [operand] => do
            let operand ← ofJson operand
            return not operand
          | args => .error (.argumentCount op args.length)
        | some (.logical logicalOp) =>
          if args.length < 2 then .error (.operandCount op args.length)
          else do
            match ← ofJsonAll args with
            | first :: second :: rest => return logical logicalOp first second rest
            | operands => .error (.operandCount op operands.length)
        | some (.arithmetic arithmeticOp) =>
          match NumericKind.ofName? type with
          | none => .error (.nonNumericType op type)
          | some kind => do
            match ← ofJsonAll args with
            | first :: rest => return arithmetic arithmeticOp kind first rest
            | [] => .error (.noOperand op)
        | some (.comparator comparatorOp) =>
          match ScalarKind.ofName? type with
          | none => .error (.unsupportedType op type)
          | some kind =>
            if args.length < 2 then .error (.operandCount op args.length)
            else do
              match ← ofJsonAll args with
              | first :: second :: rest => return comparator comparatorOp kind first second rest
              | operands => .error (.operandCount op operands.length)
        | some .matching =>
          match args with
          | [] => .error .noCondition
          | condition :: branches =>
            if branches.isEmpty then .error .noOtherwise
            else do
              let arms ← ofJsonArms branches
              let condition ← ofJson condition
              let otherwise ← ofJsonLast branches
              return matching condition arms otherwise
      | _ => .error (.noArguments op)
    else ofMembers op type members

/-- Reads a list of operands, the first fault first. -/
def ofJsonAll : List Json → Except ReadError (List Expr)
  | [] => .ok []
  | v :: rest => do
    let e ← ofJson v
    let es ← ofJsonAll rest
    return e :: es

/-- Reads the arms among the branches of a match: all but the last. -/
def ofJsonArms : List Json → Except ReadError (List (Expr × Expr))
  | [] => .ok []
  | [_] => .ok []
  | v :: rest => do
    let arm ← ofJsonArm v
    let arms ← ofJsonArms rest
    return arm :: arms

/-- Reads an arm of a match. -/
def ofJsonArm : Json → Except ReadError (Expr × Expr)
  | .obj members =>
    if (members.lookup "op").bind Json.asString? = some "guard" then ofGuard members
    else .error (.notAGuard (.obj members))
  | v => .error (.notAGuard v)

/-- Reads the key and the value of an arm from its members. -/
def ofGuard : List (String × Json) → Except ReadError (Expr × Expr)
  | [] => .error .guardWithoutArguments
  | (name, v) :: members =>
    if name = "args" then
      match v with
      | .arr [key, value] => do
        let key ← ofJson key
        let value ← ofJson value
        return (key, value)
      | .arr _ => .error .guardShape
      | _ => .error .guardWithoutArguments
    else ofGuard members

/-- Reads the last branch of a match. -/
def ofJsonLast : List Json → Except ReadError Expr
  | [] => .error .noOtherwise
  | [v] => ofJson v
  | _ :: rest => ofJsonLast rest

end

end Expr

end EntityRules
