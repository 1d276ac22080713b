import KpiReport.Definitions.Basic
import KpiReport.Fingerprint
import KpiReport.Log

/-!
# The compile service

Compiles definitions to SQL and checks formulas. Every attempt leaves its mark in the service's
counters; attempts to compile are also logged.
-/

namespace KpiReport

/-- Settings of the service. -/
structure Service where
  dialect : Option Sql.Dialect
  parallelism : Int
  unionAlias : String
  /-- Write the union of the fact tables where it is used instead of binding it to a name. -/
  inlineUnion : Bool
deriving DecidableEq, Repr

instance : Inhabited Service := ⟨⟨none, 0, "", false⟩⟩

/-- A compiled report. -/
structure CompiledReport where
  sql : String
  fingerprint : String
  dialect : String
  formulas : Nat
deriving DecidableEq, Repr, Inhabited

/-- What is known of a formula that was checked. -/
structure FormulaInfo where
  formula : String
  canonical : String
  references : List String
deriving DecidableEq, Repr, Inhabited

/-- The counters of a service. -/
structure Metrics where
  /-- Compiled queries by dialect. -/
  queries : Table Nat
  /-- Compiled formula fields. -/
  formulas : Nat
  /-- Failures by kind. -/
  errors : Table Nat
  /-- Compilations that were timed. -/
  timings : Nat
  /-- Texts that were measured, and the sum of their sizes in bytes. -/
  sizes : Nat
  sizeSum : Nat
deriving DecidableEq, Repr

namespace Metrics

/-- Counters at zero. -/
def zero : Metrics := ⟨.empty, 0, .empty, 0, 0, 0⟩

instance : Inhabited Metrics := ⟨zero⟩

/-- Adds one to a counter of a family. -/
def increment (t : Table Nat) (name : String) : Table Nat :=
  t.insert name ((t.get? name).getD 0 + 1)

/-- Counts a compiled report. -/
def countReport (m : Metrics) (r : CompiledReport) : Metrics where
  queries := increment m.queries r.dialect
  formulas := m.formulas + r.formulas
  errors := m.errors
  timings := m.timings + 1
  sizes := m.sizes + 1
  sizeSum := m.sizeSum + r.sql.utf8ByteSize

/-- Counts a failure. -/
def countError (m : Metrics) (e : CompileError) : Metrics :=
  { m with errors := increment m.errors e.kind }

/-- The counters that are not zero, under their names. -/
def shown (m : Metrics) : List (String × Nat) :=
  let family (name label : String) (t : Table Nat) :=
    t.entries.map fun p => (name ++ "\x7b" ++ label ++ "=" ++ p.1 ++ "\x7d", p.2)
  (family "kpiql_compiled_queries_count" "dialect" m.queries
    ++ family "kpiql_compile_errors_count" "kind" m.errors
    ++ [("kpiql_compiled_formulas_count", m.formulas), ("kpiql_compile_time_ms_count", m.timings),
      ("kpiql_sql_size_bytes_count", m.sizes), ("kpiql_sql_size_bytes_sum", m.sizeSum)]).filter
    (·.2 ≠ 0)

end Metrics

namespace Service

/-- The dialect of a report: that of its definitions, else that of the service. -/
def dialectOf (s : Service) (d : Definitions) : Except CompileError Sql.Dialect :=
  if d.dialect = "" then .ok (s.dialect.getD .postgres)
  else
    match Sql.Dialect.byName? d.dialect with
    | some dialect => .ok dialect
    | none => .error (.configuration (.other (Sql.Dialect.unknownMessage d.dialect)))

/-- The rendering options of the service. -/
def options (s : Service) : Sql.Options :=
  if s.inlineUnion then [Sql.Options.inlineWith] else []

/-- The number of formula fields: each formula column counts once for every dimension. -/
def countFormulas (r : ReportSpec) : Nat :=
  r.columns.foldl (fun n c =>
    match r.mappings.get? c with
    | some (.formula _) => n + r.dimensions.length
    | _ => n) 0

/-- Compiles definitions. -/
def report (s : Service) (d : Definitions) : Except CompileError CompiledReport := do
  d.validate
  let dialect ← s.dialectOf d
  let query ← d.spec.assemble ⟨s.parallelism, s.unionAlias⟩
  match query.toSql (some dialect) s.options with
  | .error e => .error (.internal (.render e))
  | .ok sql => return ⟨sql, Fingerprint.ofText sql, dialect.name, countFormulas d.spec⟩

/-- What the service keeps from one request to the next: its counters and its log. -/
structure State where
  metrics : Metrics
  log : Log
deriving Inhabited

/-- Notes the outcome of a compilation. -/
def State.note (st : State) (r : Except CompileError CompiledReport) : State :=
  match r with
  | .ok r =>
    { metrics := st.metrics.countReport r
      log := st.log.add ⟨.debug, "query compiled",
        [("fingerprint", .text r.fingerprint), ("dialect", .text r.dialect),
          ("formulas", .number r.formulas)]⟩ }
  | .error e =>
    { metrics := st.metrics.countError e
      log := match e with
        | .internal _ => st.log.error ("compile failed: " ++ e.message)
        | _ => st.log.debug ("compile rejected: " ++ e.message) }

/-- Compiles definitions, if there are any, and notes the outcome. -/
def compile (s : Service) (d : Option Definitions) (st : State) :
    Except CompileError CompiledReport × State :=
  let r := match d with
    | none => .error (.configuration .noDefinitions)
    | some d => s.report d
  (r, st.note r)

/-- Checks a formula against the declared measures and counts a failure. -/
def checkFormula (formula : String) (ms : Measures) (st : State) :
    Except CompileError FormulaInfo × State :=
  match normalize formula ms with
  | .error e => (.error e, { st with metrics := st.metrics.countError e })
  | .ok n => (.ok ⟨formula, n.canonical, n.references⟩, st)

end Service

end KpiReport
