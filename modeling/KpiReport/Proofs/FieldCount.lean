import KpiReport.Proofs.Assembly.Names
import KpiReport.Proofs.Service

/-!
# The number of formula fields

A compiled report tells how many formula fields it has. The number is not taken from the query: it is
counted again from the columns, and by another test. The counter asks whether a column is mapped to
a formula, while the layout asks whether it is mapped to something that is no column of the tables.

* **`ReportSpec.length_sources`** — the fields of the layout: one for each dimension and each
  requested column that is computed.
* **`Service.countFormulas_eq`** — the fields of the counter: one for each dimension and each
  requested column that is mapped to a formula.
* **`Definitions.computes_spec`** — the two tests agree on what definitions are converted to, since
  no mapping of theirs is of a third kind.
* **`Service.formulas_of_compile`** — so the number told is the number of fields in the query.
-/

namespace KpiReport

/-! ## Two counts -/

namespace ReportSpec

variable (r : ReportSpec)

/-- A computed column has one field for each dimension, and all others have none. -/
theorem length_columnSources (column : Nat) (name : String) :
    (r.columnSources column name).length =
      if r.computes name then r.dimensions.length else 0 := by
  unfold columnSources
  split
  · rw [List.length_map, texts, List.length_map]
  · rfl

/-- The columns from some position on have a name for each dimension and computed column. -/
theorem length_flatMap_columnSources (names : List String) (start : Nat) :
    ((names.zipIdx start).flatMap fun p => r.columnSources p.2 p.1).length =
      r.dimensions.length * names.countP r.computes := by
  induction names generalizing start with
  | nil => rfl
  | cons name names ih =>
    -- the first column, and the rest from the next position on
    rw [List.zipIdx_cons, List.flatMap_cons, List.length_append, ih, length_columnSources,
      List.countP_cons, Nat.mul_add, Nat.add_comm]
    split <;> simp

/-- The layout has a field for each dimension and each requested column that is computed. A column
that is requested twice is counted twice. -/
theorem length_sources :
    r.sources.length = r.dimensions.length * r.columns.countP r.computes :=
  r.length_flatMap_columnSources r.columns 0

/-- The column is mapped to a formula. -/
def isFormula (name : String) : Bool :=
  match r.mappings.get? name with
  | some (.formula _) => true
  | _ => false

end ReportSpec

/-- A count that some elements raise by the same amount is that amount for each of them. -/
theorem foldl_eq_add_countP {α : Type} {f : Nat → α → Nat} {p : α → Bool} {k : Nat}
    (hf : ∀ n a, f n a = if p a then n + k else n) (as : List α) (n : Nat) :
    as.foldl f n = n + k * as.countP p := by
  induction as generalizing n with
  | nil => rfl
  | cons a as ih =>
    rw [List.foldl_cons, ih, hf, List.countP_cons, Nat.mul_add]
    split
    · rw [Nat.mul_one, Nat.add_assoc, Nat.add_comm k]
    · rfl

/-- Each formula column adds the number of dimensions to the count. The counter goes over the
requested columns as they are, repetitions included. -/
theorem Service.countFormulas_eq (r : ReportSpec) :
    countFormulas r = r.dimensions.length * r.columns.countP r.isFormula := by
  unfold countFormulas
  rw [foldl_eq_add_countP (p := r.isFormula) (k := r.dimensions.length), Nat.zero_add]
  intro n name
  unfold ReportSpec.isFormula
  cases r.mappings.get? name with
  | none => rfl
  | some m => cases m <;> rfl

/-! ## The two tests -/

namespace Definitions

variable (d : Definitions)

/-- The mapping of the column sets a formula. -/
def setsFormula (name : String) : Bool :=
  ((d.mappings.getD .empty).get? name).any fun m => m.formula ≠ ""

theorem get?_spec_mappings (name : String) :
    d.spec.mappings.get? name = ((d.mappings.getD .empty).get? name).map mappingOf :=
  Table.get?_map _ _ _

/-- A mapping that sets a formula is converted to one, even if it sets a column as well. -/
theorem isColumn_mappingOf (m : MappingDef) : (mappingOf m).isColumn = decide (m.formula = "") := by
  unfold mappingOf
  split <;> simp_all [Mapping.isColumn]

/-- A column is computed if its mapping sets a formula, and only then. -/
theorem computes_spec (name : String) : d.spec.computes name = d.setsFormula name := by
  rw [ReportSpec.computes, get?_spec_mappings, setsFormula]
  cases (d.mappings.getD .empty).get? name with
  | none => rfl
  | some m => simp [isColumn_mappingOf]

/-- It is mapped to a formula in the same case. That the two tests agree is due to there being no
mapping of a third kind. -/
theorem isFormula_spec (name : String) : d.spec.isFormula name = d.setsFormula name := by
  rw [ReportSpec.isFormula, get?_spec_mappings, setsFormula]
  -- without a mapping neither test succeeds
  cases (d.mappings.getD .empty).get? name with
  | none => rfl
  | some m =>
    by_cases h : m.formula = "" <;> simp [mappingOf, h]

theorem length_spec_dimensions : d.spec.dimensions.length = (d.dimensions.getD []).length := by
  have hnames := congrArg List.length (map_name_drillDown (d.dimensions.getD []))
  rwa [List.length_map] at hnames

end Definitions

/-! ## The report -/

namespace Service

variable {s : Service}

/-- **The number of formulas is the number of compiled fields.** A compiled report tells how many
named columns its query has, and that is one for each dimension and each requested column whose
mapping sets a formula. -/
theorem formulas_of_compile {d : Option Definitions} {st : State} {report : CompiledReport}
    (h : (s.compile d st).1 = .ok report) :
    ∃ defs dialect q, d = some defs ∧
      defs.spec.assemble ⟨s.parallelism, s.unionAlias⟩ = .ok q ∧
      q.toSql (some dialect) s.options = .ok report.sql ∧
      report.formulas = q.aliases.length ∧
      report.formulas =
        (defs.dimensions.getD []).length * (defs.columns.getD []).countP defs.setsFormula := by
  cases d with
  | none => cases h
  | some defs =>
    obtain ⟨dialect, q, hq, hsql, hcount, -⟩ := report_eq_ok h
    -- the number that the counter comes to
    have hcounter : report.formulas =
        defs.spec.dimensions.length * defs.spec.columns.countP defs.setsFormula := by
      rw [hcount, countFormulas_eq, funext defs.isFormula_spec]
    -- the number of names that the layout has given out, in the query itself
    have hlayout : q.aliases.length =
        defs.spec.dimensions.length * defs.spec.columns.countP defs.setsFormula := by
      rw [ReportSpec.aliases_of_assemble hq, List.length_map, ReportSpec.length_sources,
        funext defs.computes_spec]
    refine ⟨defs, dialect, q, rfl, hq, hsql, hcounter.trans hlayout.symm, ?_⟩
    rw [hcounter, defs.length_spec_dimensions]
    rfl

/-- A formula that is requested twice, between an unmapped column and one of the tables, at two
dimensions of which one shares its mapping with a column. -/
theorem formulas_of_compile_repeated :
    let s : Service := ⟨none, 0, "", false⟩
    let d : Definitions :=
      { kpis := none
        mappings := some (.ofList [("region", ⟨"reg", ""⟩), ("day", ⟨"d", ""⟩), ("half", ⟨"", "2"⟩)])
        dimensions := some ["region", "day"]
        columns := some ["half", "ghost", "region", "half"]
        tables := some ["sales"]
        dialect := "" }
    ∃ report, (s.compile (some d) default).1 = .ok report ∧ report.formulas = 4 := by
  intro s d
  have hvalid : d.validate = .ok () :=
    Definitions.validate_eq_ok_iff.2 ⟨by decide +kernel, by decide +kernel⟩
  have htree : Formula.GrammarTree .expr (.number .start "2") := .ofTerm (.ofFactor (.number _ _))
  have hcompile : ∀ dim : Dimension, compileFormula "2" dim d.spec.measures d.spec.mappings = _ :=
    fun dim => compileFormula_eq_compile dim _ _ (by decide +kernel) htree (by decide +kernel)
  have hmapping : d.spec.mappings.get? "half" = some (.formula "2") := rfl
  have hslots := d.spec.columnSlots_of_formula hmapping (by simp)
  -- assembling succeeds, as both fields of each occurrence can be compiled
  obtain ⟨q, hq⟩ : ∃ q, d.spec.assemble ⟨s.parallelism, s.unionAlias⟩ = .ok q := by
    rw [ReportSpec.assemble, ReportSpec.runJobs_layout]
    have hcolumns : d.spec.columns = ["half", "ghost", "region", "half"] := rfl
    have hdimensions : d.spec.dimensions = [⟨"region", false⟩, ⟨"day", true⟩] := rfl
    simp only [hcolumns, List.zipIdx_cons, List.flatMap_cons, hslots]
    simp only [hdimensions, List.map_cons, List.map_nil, ReportSpec.fieldSlot, Mapping.text,
      hcompile]
    -- names are written down, not looked at
    generalize ReportSpec.fieldAlias = names
    exact ⟨_, rfl⟩
  have hreport : errorOf? (s.report d) = none := by
    rw [s.errorOf?_report hvalid, hq]
    rfl
  obtain ⟨report, hok⟩ := errorOf?_eq_none_iff.1 hreport
  have hcompiled : (s.compile (some d) default).1 = .ok report := hok
  obtain ⟨defs, -, -, hdefs, -, -, -, hcount⟩ := formulas_of_compile hcompiled
  obtain rfl : d = defs := Option.some.inj hdefs
  exact ⟨report, hcompiled, hcount⟩

end Service

end KpiReport
