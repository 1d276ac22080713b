import KpiReport.Text.Blank
import KpiReport.Text.Lower

/-!
# Aggregations

A measure is aggregated by one of four functions. The function is given by name; case and
surrounding blanks do not matter, and a missing or unknown name means the sum.
-/

namespace KpiReport

/-- The aggregate functions of measures. -/
inductive Aggregation where
  | sum
  | avg
  | min
  | max
deriving DecidableEq, Repr, Inhabited

namespace Aggregation

/-- The name of an aggregate function. -/
def name : Aggregation → String
  | sum => "sum"
  | avg => "avg"
  | min => "min"
  | max => "max"

/-- All aggregate functions. -/
def all : List Aggregation := [sum, avg, min, max]

/-- The aggregate function with exactly this name. -/
def byName? (name : String) : Option Aggregation :=
  all.find? (·.name == name)

/-- The aggregate function that a text asks for. -/
def ofText (text : String) : Aggregation :=
  (byName? (Text.lower (Text.trim text))).getD sum

/-- Every aggregate function is found under its name. -/
theorem byName?_name (a : Aggregation) : byName? a.name = some a := by
  cases a <;> decide

end Aggregation

end KpiReport
