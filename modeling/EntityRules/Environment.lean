import EntityRules.Leaf.Basic

/-!
# `EntityRules.Environment`: the values that an expression can read

An environment is a tree keyed by path segments. A node is either a leaf or a
parent of named children, never both: `insert` refuses a path that would make
one so. `insertInPlace` does the same to the tree at hand, making the parents
that are missing as it goes down, and says what the tree is afterwards, whether
the path is bound or refused.
-/

set_option autoImplicit false

namespace EntityRules

/-- A tree of values; the children of a node are in name order. -/
inductive Environment
  | leaf (value : Leaf)
  | node (children : List (String × Environment))

namespace Environment

/-- The tree without values. -/
def empty : Environment := node []

instance : Inhabited Environment := ⟨empty⟩

/-- Whether a tree is a parent without children. -/
def isEmpty : Environment → Bool
  | node [] => true
  | _ => false

/-- Puts a value at the end of a path, below the root or at the root itself. A
leaf can be replaced but not entered, and a parent of children cannot become a
leaf. -/
def bind? (value : Leaf) : List String → Environment → Option Environment
  | [], node (_ :: _) => none
  | [], _ => some (leaf value)
  | _ :: _, leaf _ => none
  | segment :: rest, node children => do
    let child ← bind? value rest ((children.lookup segment).getD empty)
    return node (Table.insertEntry segment child children)

/-- Binds a value to a path. The empty path binds nothing. -/
def insert (env : Environment) (path : Path) (value : Leaf) : Except EvalError Environment :=
  if path.isEmpty then .error (.unknownField "")
  else match env.bind? value path.segments with
    | some env => .ok env
    | none => .error (.conflict path)

/-- Whether a tree is a parent of children. -/
def isParent : Environment → Bool
  | node (_ :: _) => true
  | _ => false

/-- Goes down a path and puts a value at its end, below the root: the tree as it
is left, and whether the value was put. A parent that is missing is made before
anything below it is looked at. -/
def place (value : Leaf) : List String → Environment → Environment × Bool
  | [], env => (env, false)
  | _ :: _, leaf old => (leaf old, false)
  | [last], node children =>
    if (children.lookup last).any isParent then (node children, false)
    else (node (Table.insertEntry last (leaf value) children), true)
  | hop :: next :: rest, node children =>
    let below := place value (next :: rest) ((children.lookup hop).getD empty)
    (node (Table.insertEntry hop below.1 children), below.2)

/-- Binds a value to a path in the tree at hand. A refusal leaves behind whatever
tree the way down has made. -/
def insertInPlace (env : Environment) (path : Path) (value : Leaf) :
    EStateM.Result EvalError Environment Unit :=
  if path.isEmpty then .error (.unknownField "") env
  else match env.place value path.segments with
    | (after, true) => .ok () after
    | (after, false) => .error (.conflict path) after

/-- The leaf at the end of a path, if the path ends on one. -/
def find? : List String → Environment → Option Leaf
  | [], leaf value => some value
  | [], node _ => none
  | _ :: _, leaf _ => none
  | segment :: rest, node children => (children.lookup segment).bind (find? rest)

/-- The leaf at the end of a path; a path that ends anywhere else is unknown. -/
def lookup (env : Environment) (path : Path) : Except EvalError Leaf :=
  match env.find? path.segments with
  | some value => .ok value
  | none => .error (.unknownField path.text)

/-- A look-up succeeds with the leaf at the end of the path. -/
theorem lookup_eq_ok_iff {env : Environment} {path : Path} {value : Leaf} :
    env.lookup path = .ok value ↔ env.find? path.segments = some value := by
  rw [lookup]
  cases env.find? path.segments with
  | none => simp
  | some leaf => simp

end Environment

end EntityRules
