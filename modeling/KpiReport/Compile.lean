import KpiReport.Error
import KpiReport.Measure

/-!
# From formulas to SQL expressions

A formula is compiled for one drill-down level. A reference becomes the aggregate of the measure's
raw field; above the terminal level the aggregate is applied once more, as a window over the
level's partition. Operators and numbers are carried over, brackets leave no trace because every
operation is written in brackets anyway.
-/

namespace KpiReport

open Formula (Node)

/-- What a formula is compiled against. The formula's text is used in messages only. -/
structure Scope where
  formula : String
  dimension : Dimension
  measures : Measures
  mappings : Mappings

namespace Scope

/-- The aggregate that a reference stands for. -/
def reference (s : Scope) (name : String) : Except CompileError Sql.Expr :=
  if s.measures.declares name then
    let fn := (s.measures.aggregation name).name
    let base := Sql.Expr.aggregate fn (.raw (s.mappings.rawField name))
    if s.dimension.terminal then .ok base
    else
      match s.mappings.get? s.dimension.name with
      | none => .error (.unmappedDimension s.dimension.name)
      | some m => .ok (.window (.aggregate fn base) [.raw m.text])
  else .error (.undefinedKpi name s.formula)

/-- The operator of a sum in SQL. -/
def sumOp (s : Scope) (op : String) : Except CompileError String :=
  if op = "+" ∨ op = "-" then .ok op
  else .error (.internal (.unknownOperator op s.formula))

/-- The operator of a product in SQL, which knows one sign for multiplication. -/
def productOp (s : Scope) (op : String) : Except CompileError String :=
  if Formula.isTimes op then .ok "*"
  else if op = "/" then .ok op
  else .error (.internal (.unknownOperator op s.formula))

/-- Compiles a tree. Of several defects the first one is reported, the left operand coming before
the right one and both before the operator. -/
def compile (s : Scope) : Node → Except CompileError Sql.Expr
  | .number _ text =>
    if text = "" then .error (.internal (.emptyNumber s.formula)) else .ok (.num text)
  | .addSub _ op l r => do
    let l ← s.compile l
    let r ← s.compile r
    return .binary (← s.sumOp op) l r
  | .mulDiv _ op l r => do
    let l ← s.compile l
    let r ← s.compile r
    return .binary (← s.productOp op) l r
  | .paren _ inner => s.compile inner
  | .agg _ name => s.reference name
  | .hole what => .error (.internal (.hole what.typeName s.formula))

end Scope

/-- Parses a formula, a refusal being a compile error. -/
def parseFormula (formula : String) : Except CompileError Node :=
  (Formula.parse formula).mapError (.ofFault formula)

/-- Compiles a formula text for a drill-down level. -/
def compileFormula (formula : String) (d : Dimension) (ms : Measures) (m : Mappings) :
    Except CompileError Sql.Expr := do
  Scope.compile ⟨formula, d, ms, m⟩ (← parseFormula formula)

/-- A formula in its canonical form, with the measures it refers to. -/
structure NormalFormula where
  canonical : String
  references : List String
deriving DecidableEq, Repr, Inhabited

/-- Checks a formula against the declared measures; the first reference to an undeclared measure
is reported. -/
def normalize (formula : String) (ms : Measures) : Except CompileError NormalFormula := do
  let n ← parseFormula formula
  match n.references.find? (!ms.declares ·) with
  | some name => .error (.undefinedKpi name formula)
  | none => return ⟨n.canonical, n.references⟩

end KpiReport
