import KpiReport.Compile
import KpiReport.Sql.Binding

/-!
# The query of a report

A report selects its dimensions and columns from the union of its fact tables, grouped and ordered
by the dimensions. A column that is mapped to a formula appears once for each dimension, compiled
for that level.

The columns are laid out in slots first. A slot is filled at once, or left vacant for a job that
compiles a formula. A job writes to its own slot only: the field there if it succeeds, else the
error. Jobs can therefore be run in any order; the first slot with an error decides the outcome.
-/

namespace KpiReport

/-- What a report is assembled from. -/
structure ReportSpec where
  dimensions : List Dimension
  columns : List String
  tables : List String
  measures : Measures
  mappings : Mappings

/-- The alias of the union of the fact tables when none is chosen. -/
def defaultUnionAlias : String := "facts"

/-- Settings of assembling. At most `parallelism` jobs are meant to run at once. -/
structure Assembler where
  parallelism : Int
  unionAlias : String
deriving DecidableEq, Repr

/-- Assembling one formula after the other, with the usual alias. -/
def Assembler.sequential : Assembler := ⟨0, ""⟩

instance : Inhabited Assembler := ⟨.sequential⟩

/-- The alias of the union. -/
def Assembler.unionName (a : Assembler) : String :=
  if a.unionAlias = "" then defaultUnionAlias else a.unionAlias

/-- The number of jobs that may run at once. There is always room for one. -/
def Assembler.workers (a : Assembler) : Nat :=
  if a.parallelism < 1 then 1 else a.parallelism.toNat

/-- A place in the column list, with the field that stands there and the error of its formula. -/
structure Slot where
  field : Option Sql.Expr
  error : Option CompileError

namespace Slot

/-- A slot that waits for its job. -/
def vacant : Slot := ⟨none, none⟩

/-- A slot that is filled from the start. -/
def ofField (e : Sql.Expr) : Slot := ⟨some e, none⟩

/-- A slot whose formula does not parse. -/
def ofError (e : CompileError) : Slot := ⟨none, some e⟩

/-- Enters the outcome of a compilation, the expression under its output name. -/
def enter (s : Slot) (name : String) : Except CompileError Sql.Expr → Slot
  | .ok e => { s with field := some (.column e name) }
  | .error e => { s with error := some e }

end Slot

/-- The compilation of a formula for one dimension, and the slot it fills. -/
structure Job where
  slot : Nat
  node : Formula.Node
  formula : String
  dimension : Dimension
  name : String

/-- Slots and the jobs that fill the vacant ones. -/
structure Layout where
  slots : List Slot
  jobs : List Job

namespace ReportSpec

/-- The dimensions end with the terminal one, and no other is terminal. -/
def checkDimensions (ds : List Dimension) : Except CompileError Unit :=
  match ds.getLast? with
  | none => .error (.configuration .noDimensions)
  | some last =>
    match ds.dropLast.findIdx? (·.terminal) with
    | some i =>
      let name := (ds[i]?.map Dimension.name).getD ""
      .error (.configuration (.earlyTerminal name i))
    | none =>
      if last.terminal then .ok () else .error (.configuration (.lastNotTerminal last.name))

/-- There are fact tables, and all of them have names. -/
def checkTables (ts : List String) : Except CompileError Unit :=
  if ts.isEmpty then .error (.configuration .noTables)
  else
    match ts.findIdx? (· = "") with
    | some i => .error (.configuration (.unnamedTable i))
    | none => .ok ()

/-- The rows of one fact table. -/
def tableQuery (table : String) : Sql.Query :=
  .select [] [.raw "*"] (some (.raw table)) [] []

/-- The rows of all fact tables. -/
def unionQuery : List String → Sql.Query
  | [] => .empty
  | t :: ts => .unionAll (tableQuery t) (ts.map tableQuery)

/-- The mapped texts of the dimensions; the first unmapped one is an error. -/
def dimensionTexts (m : Mappings) : List Dimension → Except CompileError (List String)
  | [] => .ok []
  | d :: ds =>
    match m.get? d.name with
    | none => .error (.unmappedDimension d.name)
    | some mapping => do return mapping.text :: (← dimensionTexts m ds)

/-- The output name of a formula column at a dimension. -/
def fieldAlias (column : Nat) (dimensionText : String) : String :=
  "kpi_" ++ toString column ++ "~" ++ dimensionText

/-- The layout of one column, whose first slot is `slot` and whose place in the list of requested
columns is `column`. -/
def columnLayout (r : ReportSpec) (slot column : Nat) (name : String) : Layout :=
  match r.mappings.get? name with
  | none => ⟨[], []⟩
  | some (.column text) => ⟨[.ofField (.raw text)], []⟩
  | some m =>
    match parseFormula m.text with
    | .error e => ⟨r.dimensions.map fun _ => .ofError e, []⟩
    | .ok node =>
      { slots := r.dimensions.map fun _ => .vacant
        jobs := r.dimensions.mapIdx fun i d =>
          ⟨slot + i, node, m.text, d, fieldAlias column (r.mappings.textOf d.name)⟩ }

/-- The layout of the columns from the place `column` on. -/
def layoutFrom (r : ReportSpec) (slot column : Nat) : List String → Layout
  | [] => ⟨[], []⟩
  | c :: cs =>
    let here := r.columnLayout slot column c
    let rest := r.layoutFrom (slot + here.slots.length) (column + 1) cs
    ⟨here.slots ++ rest.slots, here.jobs ++ rest.jobs⟩

/-- The layout of all requested columns. -/
def layout (r : ReportSpec) : Layout :=
  r.layoutFrom 0 0 r.columns

/-- What a job compiles to. -/
def compileJob (r : ReportSpec) (j : Job) : Except CompileError Sql.Expr :=
  Scope.compile ⟨j.formula, j.dimension, r.measures, r.mappings⟩ j.node

/-- Runs a job, which writes to its slot. -/
def runJob (r : ReportSpec) (slots : List Slot) (j : Job) : List Slot :=
  slots.modify j.slot fun s => s.enter j.name (r.compileJob j)

/-- Runs jobs one after the other. -/
def runJobs (r : ReportSpec) (slots : List Slot) (jobs : List Job) : List Slot :=
  jobs.foldl r.runJob slots

/-- The fields in the slots, or the error of the first slot that has one. -/
def fields (slots : List Slot) : Except CompileError (List Sql.Expr) :=
  match slots.findSome? Slot.error with
  | some e => .error e
  | none => .ok (slots.filterMap Slot.field)

/-- Assembles the query of a report from the slots that the jobs have left. -/
def assembleFrom (r : ReportSpec) (slots : List Slot) (a : Assembler) :
    Except CompileError Sql.Query := do
  checkDimensions r.dimensions
  checkTables r.tables
  let facts := Sql.With.mk a.unionName (unionQuery r.tables)
  let texts ← dimensionTexts r.mappings r.dimensions
  let fields ← fields slots
  let dims := texts.map Sql.Expr.raw
  return .select (Sql.addWiths [] [facts]) (dims ++ fields) (some (.withRef facts)) dims
    (dims.map fun d => .order d .asc .last)

/-- Assembles the query of a report, running the jobs in the order of their slots. -/
def assemble (r : ReportSpec) (a : Assembler) : Except CompileError Sql.Query :=
  r.assembleFrom (r.runJobs r.layout.slots r.layout.jobs) a

end ReportSpec

end KpiReport
