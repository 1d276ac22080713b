import KpiReport.Compile
import KpiReport.Proofs.Formula.Acceptance

/-!
# What compiling makes of each node

Compiling a tree succeeds if and only if it succeeds for its parts, and the expression is put
together from theirs. These equivalences are all that is needed to reason about compiled formulas;
nothing after this module unfolds the compiler.

Positions are not looked at (`Scope.compile_bare`), so what a formula is compiled to can be found
from any tree with its words, without running the parser (`compileFormula_eq_compile`). The text of
the formula is not looked at either, except to quote it in errors (`Scope.compile_quoting`).
-/

namespace KpiReport

open Formula (Node Position)

/-! ## Computations that may fail -/

/-- A computation succeeds when both of its parts do. -/
theorem bind_eq_ok_iff {ε α β : Type} {x : Except ε α} {f : α → Except ε β} {b : β} :
    (x >>= f) = .ok b ↔ ∃ a, x = .ok a ∧ f a = .ok b := by
  cases x <;> simp [bind, Except.bind]

/-- An operation succeeds when its operands and its sign do. The sign is asked for last, so an
operand that fails comes before a sign that is none. -/
theorem binary_eq_ok_iff {x y : Except CompileError Sql.Expr} {z : Except CompileError String}
    {e : Sql.Expr} :
    (do
      let l ← x
      let r ← y
      return Sql.Expr.binary (← z) l r) = Except.ok e ↔
      ∃ l r o, x = .ok l ∧ y = .ok r ∧ z = .ok o ∧ e = .binary o l r := by
  constructor
  · intro h
    -- the three steps succeed one after the other
    obtain ⟨l, hl, h⟩ := bind_eq_ok_iff.1 h
    obtain ⟨r, hr, h⟩ := bind_eq_ok_iff.1 h
    obtain ⟨o, ho, h⟩ := bind_eq_ok_iff.1 h
    exact ⟨l, r, o, hl, hr, ho, (Except.ok.inj h).symm⟩
  · rintro ⟨l, r, o, rfl, rfl, rfl, rfl⟩
    rfl

/-! ## Nodes -/

namespace Scope

variable {s : Scope} {pos : Position} {e : Sql.Expr}

theorem compile_number_eq_ok_iff {text : String} :
    s.compile (.number pos text) = .ok e ↔ text ≠ "" ∧ e = .num text := by
  by_cases h : text = "" <;> simp [compile, h, eq_comm]

theorem compile_addSub_eq_ok_iff {op : String} {l r : Node} :
    s.compile (.addSub pos op l r) = .ok e ↔
      ∃ el er o, s.compile l = .ok el ∧ s.compile r = .ok er ∧ s.sumOp op = .ok o ∧
        e = .binary o el er := by
  rw [compile]
  exact binary_eq_ok_iff

theorem compile_mulDiv_eq_ok_iff {op : String} {l r : Node} :
    s.compile (.mulDiv pos op l r) = .ok e ↔
      ∃ el er o, s.compile l = .ok el ∧ s.compile r = .ok er ∧ s.productOp op = .ok o ∧
        e = .binary o el er := by
  rw [compile]
  exact binary_eq_ok_iff

theorem compile_paren (inner : Node) : s.compile (.paren pos inner) = s.compile inner := by
  rw [compile]

/-- A reference is compiled when its measure is declared and, above the terminal level, the level
has a column to partition by. Only there is it aggregated twice. -/
theorem compile_agg_eq_ok_iff {name : String} :
    s.compile (.agg pos name) = .ok e ↔
      s.measures.declares name = true ∧
        let fn := (s.measures.aggregation name).name
        let base := Sql.Expr.aggregate fn (.raw (s.mappings.rawField name))
        (s.dimension.terminal = true ∧ e = base ∨
          s.dimension.terminal = false ∧ ∃ m, s.mappings.get? s.dimension.name = some m ∧
            e = .window (.aggregate fn base) [.raw m.text]) := by
  rw [compile, reference]
  -- undeclared; else terminal; else with a mapping of the level or without
  cases s.measures.declares name with
  | false => simp
  | true =>
    cases s.dimension.terminal with
    | true => simp [eq_comm]
    | false => cases s.mappings.get? s.dimension.name <;> simp [eq_comm]

/-- Positions are not part of what is compiled. They are for the syntax errors of the parser. -/
theorem compile_bare (s : Scope) (n : Node) : s.compile n.bare = s.compile n := by
  induction n with
  | addSub _ _ _ _ ihl ihr | mulDiv _ _ _ _ ihl ihr => simp only [Node.bare, compile, ihl, ihr]
  | paren _ _ ih => simp only [Node.bare, compile, ih]
  | number | agg | hole => rfl

end Scope

/-! ## The quoted formula -/

/-- The error with another formula in the place of the one it quotes, if it quotes one. -/
def CompileError.quoting (g : String) : CompileError → CompileError
  | .malformed _ line column detail => .malformed g line column detail
  | .undefinedKpi name _ => .undefinedKpi name g
  | .internal (.hole typeName _) => .internal (.hole typeName g)
  | .internal (.emptyNumber _) => .internal (.emptyNumber g)
  | .internal (.unknownOperator op _) => .internal (.unknownOperator op g)
  | e => e

namespace Scope

variable (s : Scope) (g : String)

/-- A reference that cannot be resolved quotes the formula, and one that can does not look at it. -/
theorem reference_quoting (name : String) :
    Scope.reference { s with formula := g } name = (s.reference name).mapError (.quoting g) := by
  unfold reference
  cases s.measures.declares name with
  | false => rfl
  | true =>
    cases s.dimension.terminal with
    | true => rfl
    | false => cases s.mappings.get? s.dimension.name <;> rfl

theorem sumOp_quoting (op : String) :
    Scope.sumOp { s with formula := g } op = (s.sumOp op).mapError (.quoting g) := by
  unfold sumOp
  split <;> rfl

theorem productOp_quoting (op : String) :
    Scope.productOp { s with formula := g } op = (s.productOp op).mapError (.quoting g) := by
  unfold productOp
  split
  · rfl
  · split <;> rfl

/-- The text of a formula has no part in what its tree is compiled to; errors quote it. So two
formulas with one tree are compiled to one expression, or fail with one error in two quotations. -/
theorem compile_quoting (n : Node) :
    Scope.compile { s with formula := g } n = (s.compile n).mapError (.quoting g) := by
  induction n with
  | number _ text =>
    rw [compile, compile]
    split <;> rfl
  | addSub _ op l r ihl ihr =>
    simp only [compile, ihl, ihr, sumOp_quoting]
    -- whichever of the three steps is the first to fail quotes the formula
    cases s.compile l <;> cases s.compile r <;> cases s.sumOp op <;> rfl
  | mulDiv _ op l r ihl ihr =>
    simp only [compile, ihl, ihr, productOp_quoting]
    cases s.compile l <;> cases s.compile r <;> cases s.productOp op <;> rfl
  | paren _ _ ih => rw [compile, compile, ih]
  | agg _ name => rw [compile, compile, reference_quoting]
  | hole => rfl

end Scope

/-! ## Formulas -/

theorem parseFormula_eq_ok_iff {f : String} {n : Node} :
    parseFormula f = .ok n ↔ Formula.parse f = .ok n :=
  Formula.mapError_eq_ok_iff

/-- A formula is compiled when it parses and its tree is compiled. -/
theorem compileFormula_eq_ok_iff {f : String} {d : Dimension} {ms : Measures} {m : Mappings}
    {e : Sql.Expr} :
    compileFormula f d ms m = .ok e ↔
      ∃ n, Formula.parse f = .ok n ∧ Scope.compile ⟨f, d, ms, m⟩ n = .ok e := by
  rw [compileFormula, bind_eq_ok_iff]
  simp only [parseFormula_eq_ok_iff]

/-- A formula is compiled as any tree of the grammar with its words. There is one such tree up to
positions, and these are not looked at. -/
theorem compileFormula_eq_compile {f : String} {n : Node} (d : Dimension) (ms : Measures)
    (m : Mappings) (hscan : (Formula.scan f).complete = true) (hn : Formula.GrammarTree .expr n)
    (hw : n.words = (Formula.scan f).tokens.map Formula.Token.word) :
    compileFormula f d ms m = Scope.compile ⟨f, d, ms, m⟩ n := by
  -- the parser finds a tree that is the same as `n` but for positions
  obtain ⟨n', hn', hbare⟩ := Formula.parse_complete hscan hn hw
  rw [compileFormula, parseFormula_eq_ok_iff.2 hn', ← Scope.compile_bare _ n, ← hbare,
    Scope.compile_bare]
  rfl

end KpiReport
