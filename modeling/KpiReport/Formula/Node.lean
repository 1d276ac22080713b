import KpiReport.Formula.Position

/-!
# Formula trees

A parsed formula. Inner nodes are sums and products, leaves are numbers and references to
measures; brackets are kept, so that the text of a formula can be given back. Operators are kept
in the spelling of the formula.

Trees are also built by hand, and such a tree may have a hole where a formula should stand; the
parser never leaves one. The kinds of nodes are not closed either: a program may put a node of its
own into a tree, of which nothing is known here but the name of its type and its text.
-/

namespace KpiReport.Formula

/-- What stands in a place without a formula: nothing at all, an empty node of a known kind, or a
node of a kind that is not a formula's. -/
inductive Hole where
  | nothing
  | number
  | addSub
  | mulDiv
  | paren
  | agg
  /-- A node that a program brings along, with the name of its type and the text it gives of
  itself. -/
  | foreign (typeName text : String)
deriving DecidableEq, Repr, Inhabited

/-- The name of the type of what stands in a hole. A foreign node brings its own. -/
def Hole.typeName : Hole → String
  | nothing => "<nil>"
  | number => "*parser.Number"
  | addSub => "*parser.AddSub"
  | mulDiv => "*parser.MulDiv"
  | paren => "*parser.Paren"
  | agg => "*parser.Agg"
  | foreign name _ => name

/-- A formula tree. The position of a leaf or a bracket is its first token, that of an operation
its sign. -/
inductive Node where
  | number (pos : Position) (text : String)
  | addSub (pos : Position) (op : String) (left right : Node)
  | mulDiv (pos : Position) (op : String) (left right : Node)
  | paren (pos : Position) (inner : Node)
  | agg (pos : Position) (name : String)
  | hole (what : Hole)
deriving DecidableEq, Repr, Inhabited

/-- Both spellings of multiplication. -/
def isTimes (op : String) : Bool :=
  op == "*" || op == "×"

namespace Node

/-- The canonical text: no white space, brackets as written, one spelling of multiplication. A node
of a foreign kind writes itself, an empty node of a known kind leaves nothing. -/
def canonical : Node → String
  | number _ text => text
  | addSub _ op l r => l.canonical ++ op ++ r.canonical
  | mulDiv _ op l r => l.canonical ++ (if isTimes op then "*" else op) ++ r.canonical
  | paren _ inner => "(" ++ inner.canonical ++ ")"
  | agg _ name => "(" ++ name ++ ")"
  | hole (.foreign _ text) => text
  | hole _ => ""

/-- The name of a node's kind. All kinds that are not a formula's have one name. -/
def kindName : Node → String
  | number .. | hole .number => "num"
  | addSub .. | hole .addSub => "addsub"
  | mulDiv .. | hole .mulDiv => "muldiv"
  | paren .. | hole .paren => "paren"
  | agg .. | hole .agg => "agg"
  | hole (.foreign ..) => "foreign"
  | hole .nothing => ""

/-- The nodes of a tree, parents first and left before right, followed by `rest`. The children of a
node that `enter` refuses are left out. -/
def walkOnto (enter : Node → Bool) : Node → List Node → List Node
  | hole .nothing, rest => rest
  | n@(addSub _ _ l r), rest =>
    n :: if enter n then l.walkOnto enter (r.walkOnto enter rest) else rest
  | n@(mulDiv _ _ l r), rest =>
    n :: if enter n then l.walkOnto enter (r.walkOnto enter rest) else rest
  | n@(paren _ inner), rest => n :: if enter n then inner.walkOnto enter rest else rest
  | n, rest => n :: rest

/-- The nodes of a tree, parents first and left before right, as far as `enter` lets them be
reached. -/
def walk (enter : Node → Bool) (n : Node) : List Node :=
  n.walkOnto enter []

/-- What follows a walk has no part in it. Walks are collected from the right, so that no list is
gone over twice; here they come apart again into the walk of each tree. -/
theorem walkOnto_eq_walk_append (enter : Node → Bool) (n : Node) (rest : List Node) :
    n.walkOnto enter rest = n.walk enter ++ rest := by
  unfold walk
  induction n generalizing rest with
  | addSub _ _ l r ihl ihr | mulDiv _ _ l r ihl ihr =>
    simp only [walkOnto]
    split
    · -- the right operand is walked onto `rest`, and the left one onto that
      rw [ihl (r.walkOnto enter rest), ihl (r.walkOnto enter []), ihr rest]
      simp
    · rfl
  | paren _ inner ih =>
    simp only [walkOnto]
    split
    · rw [ih rest, List.cons_append]
    · rfl
  | hole what => cases what <;> rfl
  | number | agg => rfl

/-- A walk comes to an operation first, and to its operands from left to right if it may enter. -/
@[simp] theorem walk_addSub (enter : Node → Bool) (pos : Position) (op : String) (l r : Node) :
    (addSub pos op l r).walk enter =
      addSub pos op l r ::
        if enter (addSub pos op l r) then l.walk enter ++ r.walk enter else [] := by
  rw [walk, walkOnto, walkOnto_eq_walk_append]
  rfl

@[simp] theorem walk_mulDiv (enter : Node → Bool) (pos : Position) (op : String) (l r : Node) :
    (mulDiv pos op l r).walk enter =
      mulDiv pos op l r ::
        if enter (mulDiv pos op l r) then l.walk enter ++ r.walk enter else [] := by
  rw [walk, walkOnto, walkOnto_eq_walk_append]
  rfl

@[simp] theorem walk_paren (enter : Node → Bool) (pos : Position) (inner : Node) :
    (paren pos inner).walk enter =
      paren pos inner :: if enter (paren pos inner) then inner.walk enter else [] := by
  rw [walk, walkOnto]
  rfl

/-- The measure that a node refers to, if it is a reference. -/
def reference? : Node → Option String
  | agg _ name => some name
  | _ => none

end Node

/-- Keeps the first of equal elements. -/
def firstOccurrences : List String → List String
  | [] => []
  | a :: l => a :: (firstOccurrences l).filter (· ≠ a)

/-- The measures a formula refers to, in the order of their first appearance. -/
def Node.references (n : Node) : List String :=
  firstOccurrences ((n.walk fun _ => true).filterMap reference?)

/-- No name gets lost when repetitions are left out. -/
theorem mem_firstOccurrences {a : String} {l : List String} :
    a ∈ firstOccurrences l ↔ a ∈ l := by
  induction l with
  | nil => rfl
  | cons b l ih =>
    by_cases h : a = b <;> simp [firstOccurrences, h, ih]

/-- And none is left twice: what comes later is filtered by all that came before. -/
theorem nodup_firstOccurrences (l : List String) : (firstOccurrences l).Nodup := by
  induction l with
  | nil => exact List.nodup_nil
  | cons b l ih =>
    refine List.nodup_cons.2 ⟨by simp, ih.filter _⟩

end KpiReport.Formula
