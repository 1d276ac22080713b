import KpiReport.Assemble

/-!
# Definitions of a report

What a report is defined by: its measures, mappings, dimensions, columns and tables, and the
dialect it is written in. A list or table that is not given differs from one that is given but
empty, and validation tells the two apart.
-/

namespace KpiReport

/-- A mapping as it is written down: a column or a formula, one of them being empty. -/
structure MappingDef where
  column : String
  formula : String
deriving DecidableEq, Repr, Inhabited

/-- The definitions of a report. -/
structure Definitions where
  kpis : Option (Table String)
  mappings : Option (Table MappingDef)
  dimensions : Option (List String)
  columns : Option (List String)
  tables : Option (List String)
  dialect : String
deriving DecidableEq, Repr

namespace Definitions

/-- Definitions that say nothing. -/
def empty : Definitions := ⟨none, none, none, none, none, ""⟩

instance : Inhabited Definitions := ⟨empty⟩

/-- The declared measures. -/
def measures (d : Definitions) : Measures :=
  d.kpis.getD .empty

/-- The mapping that a definition stands for; a formula goes before a column. -/
def mappingOf (m : MappingDef) : Mapping :=
  if m.formula ≠ "" then .formula m.formula else .column m.column

/-- The mappings. -/
def mappingTable (d : Definitions) : Mappings :=
  (d.mappings.getD .empty).map fun _ m => mappingOf m

/-- Drill-down levels in the given order, the last one being terminal. -/
def drillDown : List String → List Dimension
  | [] => []
  | [name] => [⟨name, true⟩]
  | name :: names => ⟨name, false⟩ :: drillDown names

/-- What the report is assembled from. -/
def spec (d : Definitions) : ReportSpec where
  dimensions := drillDown (d.dimensions.getD [])
  columns := d.columns.getD []
  tables := d.tables.getD []
  measures := d.measures
  mappings := d.mappingTable

/-! ## Validation -/

/-- A violated constraint on the place `path`. -/
def violation (path rule : String) : String :=
  "Definitions." ++ path ++ " fails '" ++ rule ++ "'"

/-- The places of empty names in a list. -/
def unnamed (path : String) (names : List String) : List String :=
  (names.zipIdx.filter (·.1 = "")).map fun p =>
    violation (path ++ "[" ++ toString p.2 ++ "]") "required"

/-- Constraints on a list that must be given and not be empty. -/
def nonEmpty (path : String) : Option (List String) → List String
  | none => [violation path "required"]
  | some [] => [violation path "min"]
  | some names => unnamed path names

/-- The constraints that definitions violate, in the order of their parts. -/
def violations (d : Definitions) : List String :=
  let kpis := (d.measures.entries.filter fun p => p.2 ≠ "" && (Aggregation.byName? p.2).isNone)
    |>.map fun p => violation ("Kpis[" ++ p.1 ++ "].Aggregation") "oneof"
  let mappings := if d.mappings.isNone then [violation "Mappings" "required"] else []
  let dialect :=
    if ["", "postgres", "postgresql", "clickhouse"].contains d.dialect then []
    else [violation "Dialect" "oneof"]
  kpis ++ mappings ++ nonEmpty "Dimensions" d.dimensions ++ unnamed "Columns" (d.columns.getD [])
    ++ nonEmpty "Tables" d.tables ++ dialect

/-- The mappings that do not set exactly one of column and formula, least name first. -/
def ambiguous (d : Definitions) : List String :=
  let names := ((d.mappings.getD .empty).entries.filter fun p =>
    (p.2.column = "") = (p.2.formula = "")).map (·.1)
  names.mergeSort fun a b => decide (a ≤ b)

/-- Checks the definitions. -/
def validate (d : Definitions) : Except CompileError Unit :=
  match d.violations with
  | v :: vs => .error (.configuration (.invalidDefinitions (v :: vs)))
  | [] =>
    match d.ambiguous with
    | name :: _ => .error (.configuration (.ambiguousMapping name))
    | [] => .ok ()

/-- Drilling down keeps the names. -/
theorem map_name_drillDown (names : List String) :
    (drillDown names).map Dimension.name = names := by
  induction names with
  | nil => rfl
  | cons a as ih => cases as <;> simp_all [drillDown]

end Definitions

end KpiReport
