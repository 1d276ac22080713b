import KpiReport.Definitions.Basic
import KpiReport.Json.Reader

/-!
# Requests in JSON

The bodies of requests: definitions to compile, and a formula to check with the measures it may
refer to.
-/

namespace KpiReport

/-- A request to check a formula. -/
structure FormulaRequest where
  formula : String
  kpis : Option (Table String)
deriving DecidableEq, Repr

instance : Inhabited FormulaRequest := ⟨⟨"", none⟩⟩

namespace Definitions

open Json (Reader)

/-- Reads a part of a record and stores it there. -/
def part {α β : Type} (read : Reader β) (store : β → α) : Reader α := fun input => do
  let (b, r) ← read input
  return (store b, r)

/-- Reads a measure: its aggregation. -/
def kpiReader (bound room : Nat) : Reader String :=
  Json.record bound room (fun _ name =>
    match name with
    | "aggregation" => some Json.text
    | _ => none) ""

/-- Reads a mapping: its column and its formula. -/
def mappingReader (bound room : Nat) : Reader MappingDef :=
  Json.record bound room (fun m name =>
    match name with
    | "column" => some (part Json.text fun column => { m with column })
    | "formula" => some (part Json.text fun formula => { m with formula })
    | _ => none) ⟨"", ""⟩

/-- Reads definitions. A table that is given twice is the union of both. -/
def reader (bound room : Nat) : Reader Definitions :=
  Json.record bound room (fun d name =>
    match name with
    | "kpis" => some (part (Json.table bound (kpiReader bound (room - 1)) d.kpis)
        fun kpis => { d with kpis })
    | "mappings" => some (part (Json.table bound (mappingReader bound (room - 1)) d.mappings)
        fun mappings => { d with mappings })
    | "dimensions" => some (part (Json.list bound Json.text) fun dimensions =>
        { d with dimensions })
    | "columns" => some (part (Json.list bound Json.text) fun columns => { d with columns })
    | "tables" => some (part (Json.list bound Json.text) fun tables => { d with tables })
    | "dialect" => some (part Json.text fun dialect => { d with dialect })
    | _ => none) .empty

/-- The definitions in a JSON text. -/
def ofJson (input : List Char) : Except Json.Fault Definitions :=
  Json.readWhole (reader (input.length + 1) Json.maxNesting) input

end Definitions

/-- Reads a request to check a formula. -/
def FormulaRequest.reader (bound room : Nat) : Json.Reader FormulaRequest :=
  Json.record bound room (fun q name =>
    match name with
    | "formula" => some (Definitions.part Json.text fun formula => { q with formula })
    | "kpis" => some (Definitions.part
        (Json.table bound (Definitions.kpiReader bound (room - 1)) q.kpis)
        fun kpis => { q with kpis })
    | _ => none) default

/-- The request in a JSON text. -/
def FormulaRequest.ofJson (input : List Char) : Except Json.Fault FormulaRequest :=
  Json.readWhole (reader (input.length + 1) Json.maxNesting) input

end KpiReport
