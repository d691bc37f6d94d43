import EntityRules.ReadError

/-!
# `EntityRules.Path`: dotted field paths and their snapshot roots

A path is a list of field names, written with dots between them. A path of an
expression may begin with a snapshot root that says which state of the entity it
reads: `_prev` before the change, `_curr` after it, `_borrow` for values that an
actor offers as proof.

Reading refuses empty segments, except that the empty text is the empty path.
Paths are ordered segment by segment, so `a.b` comes before `a-b`; `PathSet`
lists them in that order.
-/

set_option autoImplicit false

namespace EntityRules

/-- A state of the entity that a path can be rooted at. -/
inductive Snapshot
  | prev
  | curr
  | borrow
deriving DecidableEq, Repr

namespace Snapshot

/-- All roots, in the order in which they are listed. -/
def all : List Snapshot := [prev, curr, borrow]

/-- The segment that stands for a root. -/
def segment : Snapshot → String
  | prev => "_prev"
  | curr => "_curr"
  | borrow => "_borrow"

/-- The root that a segment stands for. -/
def ofSegment? (segment : String) : Option Snapshot :=
  if segment = "_prev" then some prev
  else if segment = "_curr" then some curr
  else if segment = "_borrow" then some borrow
  else none

end Snapshot

/-- A sequence of field names. -/
structure Path where
  segments : List String
deriving DecidableEq

namespace Path

/-- The path without segments. -/
def empty : Path := ⟨[]⟩

instance : Inhabited Path := ⟨empty⟩

/-! ### The dotted form -/

/-- The segments with dots between them. -/
def text (p : Path) : String := ".".intercalate p.segments

/-- The pieces of a text between its dots. -/
def pieces (text : String) : List String := (text.toList.splitOn '.').map String.ofList

/-- Reads the dotted form. -/
def parse (text : String) : Except ReadError Path :=
  if text.isEmpty then .ok empty
  else
    let segments := pieces text
    if segments.any String.isEmpty then .error (.emptySegment text) else .ok ⟨segments⟩

/-- Reads a JSON array of dotted paths; `list` is what messages call it. -/
def parseList (list : String) (v : Json) : Except ReadError (List Path) :=
  match v.asArray? with
  | none => .error (.notAPathList list)
  | some items => items.mapM fun item =>
    match item.asString? with
    | none => .error (.notAPathEntry list)
    | some text => parse text

/-! ### Parts -/

/-- The number of segments. -/
def length (p : Path) : Nat := p.segments.length

/-- Whether the path has no segments. -/
def isEmpty (p : Path) : Bool := p.segments.isEmpty

/-- The first segment. -/
def head? (p : Path) : Option String := p.segments.head?

/-- The last segment. -/
def last? (p : Path) : Option String := p.segments.getLast?

/-- The path without its first segment. -/
def tail (p : Path) : Path := ⟨p.segments.tail⟩

/-- The path with one more segment, whatever characters it holds. -/
def child (p : Path) (segment : String) : Path := ⟨p.segments ++ [segment]⟩

/-- The path followed by another one. -/
def join (p q : Path) : Path := ⟨p.segments ++ q.segments⟩

/-- Behind no segments a path is itself. -/
@[simp] theorem empty_join (p : Path) : empty.join p = p := rfl

/-- Whether the path begins with all of another one. -/
def startsWith (p q : Path) : Bool := q.segments.isPrefixOf p.segments

/-- The snapshot root that the path begins with. -/
def snapshot? (p : Path) : Option Snapshot := p.head?.bind Snapshot.ofSegment?

/-- The path without its snapshot root. -/
def relative (p : Path) : Path := if p.snapshot?.isSome then p.tail else p

/-- The path of a field under a snapshot root. -/
def rooted (root : Snapshot) (p : Path) : Path := ⟨root.segment :: p.segments⟩

/-! ### Order -/

instance : LT Path := ⟨fun p q => p.segments < q.segments⟩
instance : LE Path := ⟨fun p q => ¬ q.segments < p.segments⟩

instance : DecidableLT Path := fun p q => inferInstanceAs (Decidable (p.segments < q.segments))

instance : Std.IsLinearOrder Path where
  le_refl p := @Std.le_refl _ List.instLE _ p.segments
  le_trans _ _ _ h h' := @Std.le_trans _ List.instLE _ _ _ _ h h'
  le_antisymm p q h h' := by
    cases p; cases q
    exact congrArg Path.mk (@Std.le_antisymm _ List.instLE _ _ _ h h')
  le_total p q := @Std.le_total _ List.instLE _ p.segments q.segments

instance : Std.LawfulOrderLT Path where
  lt_iff p q := @Std.lt_iff_le_and_not_ge _ _ List.instLE _ p.segments q.segments

/-- How two paths are ordered. -/
def order (p q : Path) : Ordering :=
  if p < q then .lt else if p = q then .eq else .gt

end Path

/-- A set of paths, listed in order. -/
abbrev PathSet := Table Path Unit

namespace PathSet

/-- The set of the paths in a list. -/
def ofList (paths : List Path) : PathSet := Table.ofList (paths.map fun p => (p, ()))

/-- The paths of a set, in order. -/
def toList (s : PathSet) : List Path := s.keys

/-- The set of a list has the paths of the list. -/
@[simp] theorem mem_toList_ofList {paths : List Path} {p : Path} :
    p ∈ (ofList paths).toList ↔ p ∈ paths := by
  rw [toList, ofList, Table.mem_keys_ofList]
  simp

/-- Asking a set for a path is asking whether it lists the path. -/
theorem contains_iff_mem (s : PathSet) (p : Path) : s.contains p ↔ p ∈ s.toList :=
  (s.mem_keys_iff p).symm

end PathSet

end EntityRules
