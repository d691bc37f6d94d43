import EntityRules.Leaf.Basic

/-!
# `EntityRules.Expr.Basic`: expressions

The least number of operands is part of the shape: an arithmetic node always has
a first operand, a comparison and a connective have two. Every function over
expressions comes with one for lists of operands and one for the arms of a match.

* `occurrences`, `referencedPaths`: the paths an expression mentions, all of them
  in reading order, and each once at its first place.
* `mentions`, `snapshotTags`: the snapshot roots among them.
* `resultKind?`: the kind of the result, where the shape decides it.
-/

set_option autoImplicit false

namespace EntityRules

/-- An expression. -/
inductive Expr
  | literal (value : Leaf)
  | path (path : Path)
  | arithmetic (op : ArithmeticOp) (kind : NumericKind) (first : Expr) (rest : List Expr)
  /-- A chain: each operand is compared with the next. -/
  | comparator (op : ComparatorOp) (kind : ScalarKind) (first second : Expr) (rest : List Expr)
  | logical (op : LogicalOp) (first second : Expr) (rest : List Expr)
  | not (operand : Expr)
  /-- The value of the first arm whose key equals the condition. -/
  | matching (condition : Expr) (arms : List (Expr × Expr)) (otherwise : Expr)

namespace Expr

instance : Inhabited Expr := ⟨literal default⟩

/-- The direct parts, in order; the key of an arm comes before its value. -/
def children : Expr → List Expr
  | literal _ => []
  | path _ => []
  | arithmetic _ _ first rest => first :: rest
  | comparator _ _ first second rest => first :: second :: rest
  | logical _ first second rest => first :: second :: rest
  | not operand => [operand]
  | matching condition arms otherwise =>
    condition :: arms.flatMap (fun arm => [arm.1, arm.2]) ++ [otherwise]

/-! ### Paths -/

mutual

/-- Every mention of a path, in reading order. -/
def occurrences : Expr → List Path
  | literal _ => []
  | path p => [p]
  | arithmetic _ _ first rest => occurrences first ++ occurrencesAll rest
  | comparator _ _ first second rest =>
    occurrences first ++ (occurrences second ++ occurrencesAll rest)
  | logical _ first second rest =>
    occurrences first ++ (occurrences second ++ occurrencesAll rest)
  | not operand => occurrences operand
  | matching condition arms otherwise =>
    occurrences condition ++ (occurrencesArms arms ++ occurrences otherwise)

/-- The mentions in a list of operands. -/
def occurrencesAll : List Expr → List Path
  | [] => []
  | e :: rest => occurrences e ++ occurrencesAll rest

/-- The mentions in the arms of a match. -/
def occurrencesArms : List (Expr × Expr) → List Path
  | [] => []
  | (key, value) :: rest => occurrences key ++ (occurrences value ++ occurrencesArms rest)

end

/-- Every path that an expression can read, once, in the order of first
mention. -/
def referencedPaths (e : Expr) : List Path := e.occurrences.eraseDups

/-- Whether an expression mentions a path with this snapshot root. -/
def mentions (e : Expr) (root : Snapshot) : Bool :=
  e.occurrences.any fun p => p.snapshot? == some root

/-- The snapshot roots that an expression mentions. -/
def snapshotTags (e : Expr) : List Snapshot := Snapshot.all.filter e.mentions

/-! ### The kind of the result -/

mutual

/-- The kind of the leaf that an expression evaluates to, where it is known
without evaluation. A match has a kind if all its values have it. -/
def resultKind? : Expr → Option LeafKind
  | literal value => some value.kind
  | path _ => none
  | arithmetic _ kind _ _ => some kind.leafKind
  | comparator .. => some .boolean
  | logical .. => some .boolean
  | not _ => some .boolean
  | matching _ arms otherwise =>
    match resultKind? otherwise with
    | none => none
    | some kind => if armsYield kind arms then some kind else none

/-- Whether every value of the arms is known to have a kind. -/
def armsYield (kind : LeafKind) : List (Expr × Expr) → Bool
  | [] => true
  | (_, value) :: rest => resultKind? value == some kind && armsYield kind rest

end

/-! ### Equality of values -/

mutual

/-- Whether two expressions differ at most in the digits of equal decimals. -/
def same : Expr → Expr → Bool
  | literal a, literal b => a.sameVariant b
  | path p, path q => p == q
  | arithmetic op kind a as, arithmetic op' kind' b bs =>
    op == op' && kind == kind' && same a b && sameAll as bs
  | comparator op kind a b cs, comparator op' kind' a' b' cs' =>
    op == op' && kind == kind' && same a a' && same b b' && sameAll cs cs'
  | logical op a b cs, logical op' a' b' cs' =>
    op == op' && same a a' && same b b' && sameAll cs cs'
  | not a, not b => same a b
  | matching c arms o, matching c' arms' o' =>
    same c c' && sameArms arms arms' && same o o'
  | _, _ => false

/-- Two lists of operands, one by one. -/
def sameAll : List Expr → List Expr → Bool
  | [], [] => true
  | a :: as, b :: bs => same a b && sameAll as bs
  | _, _ => false

/-- Two lists of arms, one by one. -/
def sameArms : List (Expr × Expr) → List (Expr × Expr) → Bool
  | [], [] => true
  | (k, v) :: as, (k', v') :: bs => same k k' && same v v' && sameArms as bs
  | _, _ => false

end

end Expr

end EntityRules
