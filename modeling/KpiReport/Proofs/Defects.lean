import KpiReport.Proofs.Agreement
import KpiReport.Proofs.Assembly.Text

/-!
# The first defect of a tree

A tree that was not built by the parser can have defects of several kinds at once: holes, numbers
without digits, signs that are none, and references that cannot be resolved. Each of them is the
defect of one node (`Scope.defect?`), to be seen without looking at its children. The compiler works
its way through the tree and stops at a defect; the order in which it meets the nodes is the
post-order of the tree (`Formula.Node.postorder`). The errors of two nodes can differ in more than
their kind: a foreign node is reported with the name of its own type, so of two foreign operands it
shows which one was met.

* **`Scope.errorOf?_compile_eq`** — compiling fails as the search for the first defect finds it.
* **`Scope.compile_first_defect`** — so a tree is compiled exactly if no node has a defect, and then
  the expression can be written; otherwise the error is the first defect.
-/

namespace KpiReport

open Formula (Node)

/-- The nodes of a tree, children before parents and left before right. -/
def Formula.Node.postorder : Node → List Node
  | n@(.addSub _ _ l r) | n@(.mulDiv _ _ l r) => l.postorder ++ r.postorder ++ [n]
  | n@(.paren _ inner) => inner.postorder ++ [n]
  | n@(.number ..) | n@(.agg ..) | n@(.hole _) => [n]

namespace Scope

variable (s : Scope)

/-- What is wrong with a node, its children apart. Brackets have no defect of their own, and a hole
is reported with the name of the type of what stands there. -/
def defect? : Node → Option CompileError
  | .number _ text => if text = "" then some (.internal (.emptyNumber s.formula)) else none
  | .addSub _ op _ _ =>
    if op = "+" ∨ op = "-" then none else some (.internal (.unknownOperator op s.formula))
  | .mulDiv _ op _ _ =>
    if op = "*" ∨ op = "×" ∨ op = "/" then none
    else some (.internal (.unknownOperator op s.formula))
  | .paren .. => none
  | .agg _ name =>
    if s.measures.declares name = false then some (.undefinedKpi name s.formula)
    else if s.dimension.terminal = false ∧ s.mappings.contains s.dimension.name = false then
      some (.unmappedDimension s.dimension.name)
    else none
  | .hole what => some (.internal (.hole what.typeName s.formula))

/-! ## The signs of operations -/

theorem errorOf?_sumOp (pos : Formula.Position) (op : String) (l r : Node) :
    errorOf? (s.sumOp op) = s.defect? (.addSub pos op l r) := by
  rw [sumOp, defect?]
  split <;> rfl

/-- A sign that is none is the defect of its node, among products as among sums. The compiler asks
for multiplication in either spelling first, and for division then. -/
theorem errorOf?_productOp (pos : Formula.Position) (op : String) (l r : Node) :
    errorOf? (s.productOp op) = s.defect? (.mulDiv pos op l r) := by
  have htimes : Formula.isTimes op = true ↔ op = "*" ∨ op = "×" := by
    simp [Formula.isTimes]
  rw [productOp, defect?]
  -- multiplication, division, or neither
  by_cases hmul : op = "*" ∨ op = "×"
  · rw [if_pos (htimes.2 hmul), if_pos (hmul.elim .inl fun h => .inr (.inl h))]
    rfl
  · rw [if_neg fun h => hmul (htimes.1 h)]
    by_cases hdiv : op = "/"
    · rw [if_pos hdiv, if_pos (.inr (.inr hdiv))]
      rfl
    · have hnone : ¬ (op = "*" ∨ op = "×" ∨ op = "/") := by
        rintro (h | h | h)
        · exact hmul (.inl h)
        · exact hmul (.inr h)
        · exact hdiv h
      rw [if_neg hdiv, if_neg hnone]
      rfl

/-- A reference has an undeclared measure or, above the terminal level, a level without a mapping.
The measure is looked up first. -/
theorem errorOf?_reference_eq (pos : Formula.Position) (name : String) :
    errorOf? (s.reference name) = s.defect? (.agg pos name) := by
  rw [errorOf?_reference, levelError?, defect?]
  -- three tests, made in the same order on both sides
  cases s.measures.declares name <;> cases s.dimension.terminal <;>
    cases s.mappings.contains s.dimension.name <;> rfl

/-! ## Trees -/

/-- **The first defect decides.** The search goes through the nodes in post-order. By induction on
the tree: the compiler, too, is done with the operands before it looks at the sign between them. -/
theorem errorOf?_compile_eq (n : Node) :
    errorOf? (s.compile n) = n.postorder.findSome? s.defect? := by
  induction n with
  | number pos text =>
    rw [compile, Node.postorder, List.findSome?_singleton, defect?]
    split <;> rfl
  | addSub pos op l r ihl ihr =>
    -- the operands come first, the operator is looked at when both are compiled
    rw [compile, errorOf?_operation, ihl, ihr, s.errorOf?_sumOp pos op l r, Node.postorder,
      List.findSome?_append, List.findSome?_append, List.findSome?_singleton]
  | mulDiv pos op l r ihl ihr =>
    rw [compile, errorOf?_operation, ihl, ihr, s.errorOf?_productOp pos op l r, Node.postorder,
      List.findSome?_append, List.findSome?_append, List.findSome?_singleton]
  | paren pos inner ih =>
    rw [compile_paren, ih, Node.postorder, List.findSome?_append, List.findSome?_singleton, defect?,
      Option.or_none]
  | agg pos name =>
    rw [compile, Node.postorder, List.findSome?_singleton, s.errorOf?_reference_eq pos name]
  | hole what => rfl

/-- **Every tree is handled, however malformed.** A tree is compiled if and only if none of its
nodes has a defect. Otherwise the error is that of the first node in post-order that has one. What a
tree is compiled to can be written, however identifiers are quoted and with any options. -/
theorem compile_first_defect (n : Node) :
    ((∃ e, s.compile n = .ok e) ↔ ∀ m ∈ n.postorder, s.defect? m = none) ∧
    (∀ error, s.compile n = .error error ↔
      ∃ before m after, n.postorder = before ++ m :: after ∧ s.defect? m = some error ∧
        ∀ k ∈ before, s.defect? k = none) ∧
    ∀ e, s.compile n = .ok e → ∀ quote o, ∃ text, e.render quote o = .ok text := by
  -- no defect at all; the first one; the text of what was compiled
  refine ⟨?_, fun error => ?_, fun e he quote o => ?_⟩
  · rw [← errorOf?_eq_none_iff, errorOf?_compile_eq, List.findSome?_eq_none_iff]
  · rw [← errorOf?_eq_some_iff, errorOf?_compile_eq, List.findSome?_eq_some_iff]
  · obtain ⟨text, htext⟩ := steady_of_compile he quote
    exact ⟨text, htext o⟩

/-- A product with a sign that is none, an undeclared measure, a hole and a number without digits.
The measure stands to the left of the hole and below the sign, so it is reported. Of two foreign
operands it is the left one, whichever types they are of. -/
theorem compile_first_defect_mixed :
    let s : Scope := ⟨"f", ⟨"day", true⟩, .ofList [("a", "sum")], .empty⟩
    let unknown : Node := .agg .start "b"
    let bad : Node := .mulDiv .start "%" (.paren .start unknown)
      (.addSub .start "+" (.hole .nothing) (.number .start ""))
    let strange (left right : String) : Node :=
      .addSub .start "^" (.hole (.foreign left "?")) (.hole (.foreign right "?"))
    let good : Node := .mulDiv .start "×" (.number .start "2") (.agg .start "a")
    s.compile bad = .error (.undefinedKpi "b" "f") ∧
    (∀ left right, s.compile (strange left right) = .error (.internal (.hole left "f"))) ∧
    (∃ e, s.compile good = .ok e ∧ ∀ quote o, ∃ text, e.render quote o = .ok text) := by
  intro s unknown bad strange good
  refine ⟨((s.compile_first_defect bad).2.1 _).2 ⟨[], unknown, _, rfl, by decide, by simp⟩,
    fun left right => ?_, ?_⟩
  · exact ((s.compile_first_defect (strange left right)).2.1 _).2
      ⟨[], .hole (.foreign left "?"), _, rfl, rfl, by simp⟩
  -- a tree without defects is compiled, and then it can be written
  obtain ⟨e, he⟩ := (s.compile_first_defect good).1.2 (by decide)
  exact ⟨e, he, (s.compile_first_defect good).2.2 e he⟩

end Scope

end KpiReport
