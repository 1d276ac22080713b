import KpiReport.Proofs.Assembly.Schedule
import KpiReport.Proofs.Formula.References
import Mathlib.Tactic.FinCases

/-!
# The definitions that a report reads

Measures and mappings are declared for all reports at once, and each report reads few of them. Two
sets of definitions that agree on those few give the same report, or the same error.

* **`Mappings.AgreeOn`** — of a mapping only its text is read, and whether it is one to a column of
  the tables. Formulas and mappings of any other kind are alike.
* **`Measures.AgreeOn`** — of a measure only two things are read: that it is declared, and its
  aggregate function.
* **`ReportSpec.Refers`** — the names that matter beside those of dimensions and columns: the ones
  that stand in the formulas of the requested columns.
* **`Scope.compile_congr`** — compiling a tree reads the names in it and the dimension, by induction
  on the tree. An operation that fails on its left side leaves the names on the right unread, so
  agreement is more than is needed there.
* **`ReportSpec.assemble_eq_of_agrees`** — the statement about reports, for all schedules of the
  jobs.
-/

namespace KpiReport

/-! ## Agreement -/

/-- What a report reads of a mapping. -/
def Mapping.seen (m : Mapping) : Bool × String :=
  (m.isColumn, m.text)

/-- The mappings of a name are alike as far as a report reads them. -/
def Mappings.AgreeOn (m m' : Mappings) (name : String) : Prop :=
  (m.get? name).map Mapping.seen = (m'.get? name).map Mapping.seen

/-- The declarations of a measure are alike as far as a report reads them. -/
def Measures.AgreeOn (ms ms' : Measures) (name : String) : Prop :=
  ms.declares name = ms'.declares name ∧ ms.aggregation name = ms'.aggregation name

instance (m m' : Mappings) (name : String) : Decidable (m.AgreeOn m' name) :=
  inferInstanceAs (Decidable (_ = _))

instance (ms ms' : Measures) (name : String) : Decidable (ms.AgreeOn ms' name) :=
  inferInstanceAs (Decidable (_ ∧ _))

namespace Mappings

variable {m m' : Mappings} {name : String}

theorem AgreeOn.symm (h : m.AgreeOn m' name) : m'.AgreeOn m name :=
  Eq.symm h

theorem AgreeOn.get?_none (h : m.AgreeOn m' name) (hm : m.get? name = none) :
    m'.get? name = none := by
  rw [AgreeOn, hm, Option.map_none] at h
  exact Option.map_eq_none_iff.1 h.symm

/-- Where one maps a name, the other maps it to something of the same text, and either both are
columns of the tables or none is. -/
theorem AgreeOn.exists_get? (h : m.AgreeOn m' name) {x : Mapping} (hm : m.get? name = some x) :
    ∃ x', m'.get? name = some x' ∧ x'.isColumn = x.isColumn ∧ x'.text = x.text := by
  rw [AgreeOn, hm, Option.map_some] at h
  obtain ⟨x', hx', hseen⟩ := Option.map_eq_some_iff.1 h.symm
  exact ⟨x', hx', congrArg Prod.fst hseen, congrArg Prod.snd hseen⟩

/-- To a column of the tables both map it alike. -/
theorem AgreeOn.get?_column (h : m.AgreeOn m' name) {text : String}
    (hm : m.get? name = some (.column text)) : m'.get? name = some (.column text) := by
  obtain ⟨x', hx', hcolumn, htext⟩ := h.exists_get? hm
  obtain ⟨text', rfl⟩ := Mapping.isColumn_eq_true_iff.1 hcolumn
  obtain rfl : text' = text := htext
  exact hx'

/-- The text of a dimension is the same, mapped or not. -/
theorem AgreeOn.textOf (h : m.AgreeOn m' name) : m.textOf name = m'.textOf name := by
  cases hm : m.get? name with
  | none => rw [Mappings.textOf, Mappings.textOf, hm, h.get?_none hm]
  | some x =>
    obtain ⟨x', hx', -, htext⟩ := h.exists_get? hm
    rw [Mappings.textOf, Mappings.textOf, hm, hx', Option.map_some, Option.map_some, htext]

/-- A measure that is mapped to a column is aggregated over it. -/
theorem rawField_of_column {text : String} (h : m.get? name = some (.column text)) :
    m.rawField name = text := by
  rw [rawField, h]

/-- All other measures are aggregated over a column of their own name. A formula that a measure is
mapped to is not looked into. -/
theorem rawField_of_not_column (h : ∀ text, m.get? name ≠ some (.column text)) :
    m.rawField name = name := by
  unfold rawField
  split
  · next text hm => exact absurd hm (h text)
  · rfl

/-- So the raw field of a measure is the same. -/
theorem AgreeOn.rawField (h : m.AgreeOn m' name) : m.rawField name = m'.rawField name := by
  -- mapped to a column by both, or by none
  by_cases hm : ∃ text, m.get? name = some (.column text)
  · obtain ⟨text, hm⟩ := hm
    rw [rawField_of_column hm, rawField_of_column (h.get?_column hm)]
  · have hm' : ∀ text, m'.get? name ≠ some (.column text) :=
      fun text hm' => hm ⟨text, h.symm.get?_column hm'⟩
    rw [rawField_of_not_column (not_exists.1 hm), rawField_of_not_column hm']

end Mappings

/-! ## Formulas -/

section Compiling

variable {f : String} {d : Dimension} {ms ms' : Measures} {m m' : Mappings}

/-- A reference reads the dimension and its own name. -/
theorem Scope.reference_congr {name : String} (hd : m.AgreeOn m' d.name)
    (hname : m.AgreeOn m' name) (hmeasure : ms.AgreeOn ms' name) :
    Scope.reference ⟨f, d, ms, m⟩ name = Scope.reference ⟨f, d, ms', m'⟩ name := by
  obtain ⟨hdeclares, haggregation⟩ := hmeasure
  simp only [reference, hdeclares, haggregation, hname.rawField]
  -- the level is mapped by both or by none
  cases hm : m.get? d.name with
  | none => rw [hd.get?_none hm]
  | some x =>
    obtain ⟨x', hx', -, htext⟩ := hd.exists_get? hm
    rw [hx']
    simp only [htext]

/-- A tree reads the dimension and the names in it. By induction on the tree, as the names of an
operation are those of its two operands. -/
theorem Scope.compile_congr (hd : m.AgreeOn m' d.name) {n : Formula.Node}
    (hn : ∀ name ∈ n.names, m.AgreeOn m' name ∧ ms.AgreeOn ms' name) :
    Scope.compile ⟨f, d, ms, m⟩ n = Scope.compile ⟨f, d, ms', m'⟩ n := by
  induction n with
  | number => rfl
  | hole => rfl
  | agg _ name =>
    obtain ⟨hname, hmeasure⟩ := hn name (List.mem_singleton_self name)
    rw [compile, compile]
    exact Scope.reference_congr hd hname hmeasure
  | paren _ inner ih =>
    rw [compile, compile]
    exact ih hn
  | addSub _ op l r ihl ihr | mulDiv _ op l r ihl ihr =>
    have hl := ihl fun name h => hn name (List.mem_append_left _ h)
    have hr := ihr fun name h => hn name (List.mem_append_right _ h)
    rw [compile, compile, hl, hr]
    rfl

/-- A formula reads the dimension and its references. One that does not parse reads nothing, and
fails alike under all definitions. -/
theorem compileFormula_congr (hd : m.AgreeOn m' d.name)
    (hf : ∀ n, Formula.parse f = .ok n → ∀ name ∈ n.references,
      m.AgreeOn m' name ∧ ms.AgreeOn ms' name) :
    compileFormula f d ms m = compileFormula f d ms' m' := by
  rw [compileFormula, compileFormula]
  cases hparse : parseFormula f with
  | error e => rfl
  | ok n =>
    apply Scope.compile_congr hd
    intro name hname
    apply hf n (parseFormula_eq_ok_iff.1 hparse)
    rw [Formula.Node.references_eq]
    exact Formula.mem_firstOccurrences.2 hname

end Compiling

/-! ## Reports -/

namespace ReportSpec

/-- The name stands in a formula that is requested and parses. -/
def Refers (r : ReportSpec) (name : String) : Prop :=
  ∃ c ∈ r.columns, ∃ m n, r.mappings.get? c = some m ∧ m.isColumn = false ∧
    Formula.parse m.text = .ok n ∧ name ∈ n.references

/-- Two reports ask for the same, and their definitions agree on all names that are read. -/
structure Agrees (r r' : ReportSpec) : Prop where
  dimensions : r.dimensions = r'.dimensions
  columns : r.columns = r'.columns
  tables : r.tables = r'.tables
  /-- On the names of dimensions and columns the mappings agree. -/
  dimension : ∀ d ∈ r.dimensions, r.mappings.AgreeOn r'.mappings d.name
  column : ∀ c ∈ r.columns, r.mappings.AgreeOn r'.mappings c
  /-- On the names in formulas both mappings and measures agree. -/
  reference : ∀ name, r.Refers name →
    r.mappings.AgreeOn r'.mappings name ∧ r.measures.AgreeOn r'.measures name

/-- The texts of the dimensions are read off the mappings of these, up to the first that has
none. -/
theorem dimensionTexts_congr {m m' : Mappings} {ds : List Dimension}
    (h : ∀ d ∈ ds, m.AgreeOn m' d.name) : dimensionTexts m ds = dimensionTexts m' ds := by
  induction ds with
  | nil => rfl
  | cons d ds ih =>
    obtain ⟨hd, hds⟩ := List.forall_mem_cons.1 h
    rw [dimensionTexts, dimensionTexts, ih hds]
    cases hm : m.get? d.name with
    | none => rw [hd.get?_none hm]
    | some x =>
      obtain ⟨x', hx', -, htext⟩ := hd.exists_get? hm
      rw [hx']
      simp only [htext]

namespace Agrees

variable {r r' : ReportSpec}

/-- A column leaves the same slots behind. Which of the three kinds it is of can be seen from either
set of definitions. -/
theorem columnSlots_eq (h : r.Agrees r') {name : String} (hname : name ∈ r.columns)
    (column : Nat) : r.columnSlots column name = r'.columnSlots column name := by
  obtain hmap | ⟨text, hmap⟩ | ⟨m, hmap, hm⟩ := r.mapping_cases name
  · have hmap' : r'.mappings.get? name = none := (h.column name hname).get?_none hmap
    rw [r.columnSlots_of_unmapped hmap, r'.columnSlots_of_unmapped hmap']
  · have hmap' : r'.mappings.get? name = some (.column text) :=
      (h.column name hname).get?_column hmap
    rw [r.columnSlots_of_column hmap, r'.columnSlots_of_column hmap']
  · obtain ⟨m', hmap', hcolumn, htext⟩ := (h.column name hname).exists_get? hmap
    have hformula : m.isColumn = false := Mapping.isColumn_eq_false_iff.2 hm
    have hm' : ∀ text, m' ≠ .column text :=
      Mapping.isColumn_eq_false_iff.1 (hcolumn.trans hformula)
    rw [r.columnSlots_of_formula hmap hm, r'.columnSlots_of_formula hmap' hm', htext,
      ← h.dimensions]
    apply List.map_congr_left
    intro d hd
    have hagree : r.mappings.AgreeOn r'.mappings d.name := h.dimension d hd
    -- the formula reads the dimension and the names in it, and on these both agree
    have hcompile : compileFormula m.text d r.measures r.mappings =
        compileFormula m.text d r'.measures r'.mappings := by
      apply compileFormula_congr hagree
      intro n hn x hx
      exact h.reference x ⟨name, hname, m, n, hmap, hformula, hn, hx⟩
    rw [fieldSlot, fieldSlot, hcompile, hagree.textOf]

theorem runJobs_layout_eq (h : r.Agrees r') :
    r.runJobs r.layout.slots r.layout.jobs = r'.runJobs r'.layout.slots r'.layout.jobs := by
  rw [runJobs_layout, runJobs_layout, ← h.columns]
  apply List.flatMap_congr
  intro p hp
  exact h.columnSlots_eq (List.fst_mem_of_mem_zipIdx hp) p.2

/-- What is put together from the slots reads the dimensions and the tables only. -/
theorem assembleFrom_eq (h : r.Agrees r') (slots : List Slot) (a : Assembler) :
    r.assembleFrom slots a = r'.assembleFrom slots a := by
  rw [assembleFrom, assembleFrom, ← h.dimensions, ← h.tables, dimensionTexts_congr h.dimension]

end Agrees

/-- A run that has ended leaves the slots of the jobs one after the other. -/
theorem slots_of_finished {r : ReportSpec} {limit : Nat} {c : Crew}
    (hc : Crew.Runs r limit (.ofLayout r.layout) c) (hfin : c.Finished) :
    c.slots = r.runJobs r.layout.slots r.layout.jobs := by
  obtain ⟨order, hperm, hslots⟩ := (hc.sound Crew.sound_ofLayout).exists_order hfin
  rw [hslots, r.runJobs_perm r.nodup_slots_jobs hperm]

/-- **Only the definitions that a report reads can influence it.** Where two sets of definitions
agree on them, the query or the error is the same, however the jobs are scheduled in either run. -/
theorem assemble_eq_of_agrees {r r' : ReportSpec} (h : r.Agrees r') (a : Assembler) :
    r.assemble a = r'.assemble a ∧
      ∀ c c' : Crew, Crew.Runs r a.workers (.ofLayout r.layout) c → c.Finished →
        Crew.Runs r' a.workers (.ofLayout r'.layout) c' → c'.Finished →
        r.assembleFrom c.slots a = r'.assembleFrom c'.slots a := by
  have hslots := h.runJobs_layout_eq
  constructor
  · rw [assemble, assemble, hslots]
    exact h.assembleFrom_eq _ a
  · -- both crews leave the slots of the sequential run
    intro c c' hc hfin hc' hfin'
    rw [slots_of_finished hc hfin, slots_of_finished hc' hfin', hslots]
    exact h.assembleFrom_eq _ a

/-- Names that are not read can be mapped to anything, a formula may be of any kind, and an
aggregate function may be spelled in any way. -/
theorem assemble_eq_of_agrees_unread :
    let r : ReportSpec :=
      { dimensions := [⟨"region", false⟩, ⟨"day", true⟩]
        columns := ["ghost", "units", "ratio"]
        tables := ["sales"]
        measures := .ofList [("a", "")]
        mappings := .ofList [("region", .column "reg"), ("day", .column "d"), ("units", .column "n"),
          ("ratio", .formula "(a)/2")] }
    let r' : ReportSpec :=
      { r with
        measures := .ofList [("b", "max"), ("a", " SUM ")]
        mappings := .ofList [("unread", .formula "(("), ("ratio", .other 7 "(a)/2"),
          ("units", .column "n"), ("day", .column "d"), ("region", .column "reg")] }
    r.Agrees r' ∧ r.mappings ≠ r'.mappings ∧ r.measures ≠ r'.measures ∧
      r.assemble .sequential = r'.assemble .sequential ∧
      ∃ c c', Crew.Runs r 1 (.ofLayout r.layout) c ∧ Crew.Runs r' 1 (.ofLayout r'.layout) c' ∧
        r.assembleFrom c.slots .sequential = r'.assembleFrom c'.slots .sequential := by
  intro r r'
  -- the two sets agree on the names of the dimensions, of the columns, and on `a`
  have hagrees : r.Agrees r' := by
    refine ⟨rfl, rfl, rfl, by decide +kernel, by decide +kernel, ?_⟩
    rintro name ⟨c, hc, m, n, hmap, hformula, hn, hname⟩
    -- the only formula is that of the last column, and there is one name in it
    have htext : m.text = "(a)/2" := by
      fin_cases hc
      · cases hmap
      · cases hmap
        cases hformula
      · cases hmap
        rfl
    have hnames : Formula.namesOf "(a)/2" = ["a"] := by decide +kernel
    rw [Formula.Node.references_eq, Formula.mem_firstOccurrences, Formula.names_eq_namesOf hn,
      htext, hnames] at hname
    obtain rfl : name = "a" := List.mem_singleton.1 hname
    exact ⟨by decide +kernel, by decide +kernel⟩
  obtain ⟨heq, hcrews⟩ := assemble_eq_of_agrees hagrees .sequential
  obtain ⟨c, hc, hfin⟩ := Crew.exists_finished r Nat.one_pos (.ofLayout r.layout)
  obtain ⟨c', hc', hfin'⟩ := Crew.exists_finished r' Nat.one_pos (.ofLayout r'.layout)
  exact ⟨hagrees, by decide, by decide, heq, c, c', hc, hc', hcrews c c' hc hfin hc' hfin'⟩

end ReportSpec

end KpiReport
