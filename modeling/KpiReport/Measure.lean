import KpiReport.Aggregation
import KpiReport.Table

/-!
# What a report is made of

The measures that formulas refer to, the mappings that say what stands behind a name, and the
dimensions a report drills down through.
-/

namespace KpiReport

/-- The declared measures with the aggregation each asks for. -/
abbrev Measures := Table String

namespace Measures

/-- The name is that of a declared measure. -/
def declares (ms : Measures) (name : String) : Bool :=
  ms.contains name

/-- The aggregation of a measure; that of a name without one is the sum. -/
def aggregation (ms : Measures) (name : String) : Aggregation :=
  .ofText ((ms.get? name).getD "")

end Measures

/-- What stands behind a name: a column, a formula, or something of another kind. -/
inductive Mapping where
  | column (text : String)
  | formula (text : String)
  | other (code : Int) (text : String)
deriving DecidableEq, Repr, Inhabited

/-- The text of a mapping, whatever its kind. -/
def Mapping.text : Mapping → String
  | column t | formula t | other _ t => t

/-- The mappings of a report. -/
abbrev Mappings := Table Mapping

namespace Mappings

/-- The raw field of a measure: the column its name is mapped to, or the name itself. -/
def rawField (m : Mappings) (name : String) : String :=
  match m.get? name with
  | some (.column text) => text
  | _ => name

/-- The text behind a name, empty if there is none. -/
def textOf (m : Mappings) (name : String) : String :=
  ((m.get? name).map Mapping.text).getD ""

end Mappings

/-- A drill-down level of a report; the terminal one is the finest. -/
structure Dimension where
  name : String
  terminal : Bool
deriving DecidableEq, Repr, Inhabited

end KpiReport
