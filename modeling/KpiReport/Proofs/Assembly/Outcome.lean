import KpiReport.Proofs.Agreement
import KpiReport.Proofs.Assembly.Query

/-!
# When a report is refused, and why

A report goes through four checks: its dimensions have to be a drill-down path, its tables have to
be there and have names, every dimension needs a mapping, and every formula it asks for has to pass
the check of formulas. The first check that fails decides the error.

* **`ReportSpec.Verdict`** — the outcome that the four checks lead to. The formulas are checked one
  column after the other and without a dimension; nothing is said of slots and jobs.
* **`ReportSpec.assemble_verdict`** — that is the outcome of assembling.
* **`ReportSpec.assemble_outcome`** — the same, with what it rests on: past the third check no slot
  can fail for its dimension or for an internal reason, and a formula fails at all dimensions or at
  none.

Past the third check a formula fails at a dimension as it fails the check of formulas
(`errorOf?_compileFormula`), so all slots of its column hold the same error, and the first slot with
an error is in the first column with one (`findSome?_error_slots`).
-/

namespace KpiReport

namespace ReportSpec

/-! ## Statement -/

/-- The dimensions are no drill-down path: there is none, a terminal one has others after it, or the
last one is not terminal. -/
def BrokenPath (ds : List Dimension) : Prop :=
  ds = [] ∨ (∃ d ∈ ds.dropLast, d.terminal = true) ∨ ∃ d ∈ ds.getLast?, d.terminal = false

/-- There is no table, or one without a name. -/
def BrokenTables (ts : List String) : Prop :=
  ts = [] ∨ "" ∈ ts

variable (r : ReportSpec)

/-- The first dimension without a mapping. -/
def firstUnmapped? : Option Dimension :=
  r.dimensions.find? fun d => !r.mappings.contains d.name

/-- What the check of formulas has against a column. Only a column that is mapped, and not to a
column of the tables, is a formula. -/
def columnError? (name : String) : Option CompileError :=
  match r.mappings.get? name with
  | none => none
  | some (.column _) => none
  | some m => errorOf? (normalize m.text r.measures)

/-- What the check of formulas has against the first column that does not pass it. -/
def firstColumnError? : Option CompileError :=
  r.columns.findSome? r.columnError?

/-- The outcome of the four checks, each of them made only after those before it have passed. -/
inductive Verdict : Except CompileError Sql.Query → Prop where
  | path {fault : ConfigurationFault} (h : BrokenPath r.dimensions) :
      Verdict (.error (.configuration fault))
  | tables {fault : ConfigurationFault} (hpath : ¬ BrokenPath r.dimensions)
      (h : BrokenTables r.tables) : Verdict (.error (.configuration fault))
  | unmapped {d : Dimension} (hpath : ¬ BrokenPath r.dimensions) (htables : ¬ BrokenTables r.tables)
      (h : r.firstUnmapped? = some d) : Verdict (.error (.unmappedDimension d.name))
  | formula {e : CompileError} (hpath : ¬ BrokenPath r.dimensions)
      (htables : ¬ BrokenTables r.tables) (hmapped : r.firstUnmapped? = none)
      (h : r.firstColumnError? = some e) : Verdict (.error e)
  | query {q : Sql.Query} (hpath : ¬ BrokenPath r.dimensions) (htables : ¬ BrokenTables r.tables)
      (hmapped : r.firstUnmapped? = none) (h : r.firstColumnError? = none) : Verdict (.ok q)

/-- The error of a column comes from the check of a formula. -/
theorem normalize_of_columnError? {r : ReportSpec} {name : String} {e : CompileError}
    (h : r.columnError? name = some e) : ∃ f, normalize f r.measures = .error e := by
  unfold columnError? at h
  split at h
  · simp at h
  · simp at h
  · exact ⟨_, errorOf?_eq_some_iff.1 h⟩

/-! ## Dimensions and tables -/

/-- The dimensions pass their check exactly if they are a drill-down path. The three ways in which
they can fail it are looked for in this order, and each has a fault of its own. -/
theorem checkDimensions_cases (ds : List Dimension) :
    (¬ BrokenPath ds ∧ checkDimensions ds = .ok ()) ∨
      (BrokenPath ds ∧ ∃ fault, checkDimensions ds = .error (.configuration fault)) := by
  unfold checkDimensions
  cases hlast : ds.getLast? with
  -- no dimension at all
  | none => exact .inr ⟨.inl (List.getLast?_eq_none_iff.1 hlast), _, rfl⟩
  | some last =>
    have hne : ds ≠ [] := by
      rintro rfl
      simp at hlast
    cases hfind : ds.dropLast.findIdx? (·.terminal) with
    -- a terminal dimension with others after it
    | some i =>
      obtain ⟨hi, hterminal, -⟩ := List.findIdx?_eq_some_iff_getElem.1 hfind
      exact .inr ⟨.inr (.inl ⟨_, List.getElem_mem hi, hterminal⟩), _, rfl⟩
    | none =>
      have hearly : ∀ d ∈ ds.dropLast, d.terminal = false := List.findIdx?_eq_none_iff.1 hfind
      -- the path is whole if its last dimension is terminal
      cases hterminal : last.terminal with
      | false =>
        refine .inr ⟨.inr (.inr ⟨last, hlast, hterminal⟩), .lastNotTerminal last.name, ?_⟩
        simp [hterminal]
      | true =>
        refine .inl ⟨?_, by simp [hterminal]⟩
        rintro (hnil | ⟨d, hd, hdt⟩ | ⟨d, hd, hdt⟩)
        · exact hne hnil
        · simp [hearly d hd] at hdt
        · obtain rfl : last = d := Option.some.inj (hlast.symm.trans hd)
          simp [hterminal] at hdt

/-- The tables pass theirs exactly if there are some and all of them have names. Of several without
a name the first is reported. -/
theorem checkTables_cases (ts : List String) :
    (¬ BrokenTables ts ∧ checkTables ts = .ok ()) ∨
      (BrokenTables ts ∧ ∃ fault, checkTables ts = .error (.configuration fault)) := by
  unfold checkTables
  cases ts with
  | nil => exact .inr ⟨.inl rfl, _, rfl⟩
  | cons t ts =>
    simp only [List.isEmpty_cons, Bool.false_eq_true, if_false]
    cases hfind : (t :: ts).findIdx? (· = "") with
    -- a table without a name
    | some i =>
      obtain ⟨hi, hempty, -⟩ := List.findIdx?_eq_some_iff_getElem.1 hfind
      refine .inr ⟨.inr ?_, _, rfl⟩
      rw [← of_decide_eq_true hempty]
      exact List.getElem_mem hi
    | none =>
      refine .inl ⟨?_, rfl⟩
      have hnamed := List.findIdx?_eq_none_iff.1 hfind
      rintro (hnil | hempty)
      · simp at hnil
      · exact absurd rfl (of_decide_eq_false (hnamed "" hempty))

/-- The first dimension without a mapping decides the error about dimensions. -/
theorem errorOf?_dimensionTexts (m : Mappings) (ds : List Dimension) :
    errorOf? (dimensionTexts m ds) =
      (ds.find? fun d => !m.contains d.name).map fun d => .unmappedDimension d.name := by
  induction ds with
  | nil => rfl
  | cons d ds ih =>
    rw [dimensionTexts, List.find?_cons, Table.contains]
    cases m.get? d.name with
    | none => rfl
    | some md =>
      simp only [Option.isSome_some, Bool.not_true]
      rw [← ih, errorOf?_bind (o := none) fun _ _ => rfl, Option.or_none]

/-! ## Slots -/

variable {r}

theorem error_fieldSlot (column : Nat) (f : String) (d : Dimension) :
    (r.fieldSlot column f d).error = errorOf? (compileFormula f d r.measures r.mappings) := by
  unfold fieldSlot
  cases compileFormula f d r.measures r.mappings <;> rfl

theorem contains_of_mem (hmapped : r.firstUnmapped? = none) {d : Dimension}
    (hd : d ∈ r.dimensions) : r.mappings.contains d.name = true := by
  simpa using List.find?_eq_none.1 hmapped d hd

/-- Where all dimensions are mapped, each slot of a column has the error of the column. It is the
same in all of them, since the levels are no obstacle and the formula is one. -/
theorem error_of_mem_columnSlots (hmapped : r.firstUnmapped? = none) {column : Nat} {name : String}
    {s : Slot} (hs : s ∈ r.columnSlots column name) : s.error = r.columnError? name := by
  obtain h | ⟨text, h⟩ | ⟨m, h, hm⟩ := r.mapping_cases name
  · rw [r.columnSlots_of_unmapped h] at hs
    simp at hs
  · rw [r.columnSlots_of_column h, List.mem_singleton] at hs
    rw [hs, columnError?, h]
    rfl
  · rw [r.columnSlots_of_formula h hm] at hs
    obtain ⟨d, hd, rfl⟩ := List.mem_map.1 hs
    -- at a mapped dimension the formula fails as it fails the check
    have hcheck := errorOf?_compileFormula (f := m.text) d r.measures r.mappings
      (.inr (contains_of_mem hmapped hd))
    rw [error_fieldSlot, hcheck, columnError?, h]
    cases m with
    | column text => exact absurd rfl (hm text)
    | formula text => rfl
    | other code text => rfl

/-- A column that is refused has a slot to say so, because there is a dimension. And if it is not
refused, none of its slots holds an error. -/
theorem findSome?_error_columnSlots (hne : r.dimensions ≠ []) (hmapped : r.firstUnmapped? = none)
    (column : Nat) (name : String) :
    (r.columnSlots column name).findSome? Slot.error = r.columnError? name := by
  cases herror : r.columnError? name with
  | none =>
    refine List.findSome?_eq_none_iff.2 fun s hs => ?_
    rw [error_of_mem_columnSlots hmapped hs, herror]
  | some e =>
    -- the column is a formula, and there is a dimension to compile it for
    obtain ⟨s, slots, hslots⟩ : ∃ s slots, r.columnSlots column name = s :: slots := by
      obtain h | ⟨text, h⟩ | ⟨m, h, hm⟩ := r.mapping_cases name
      · simp [columnError?, h] at herror
      · exact ⟨_, _, r.columnSlots_of_column h column⟩
      · rw [r.columnSlots_of_formula h hm]
        obtain ⟨d, ds, hds⟩ := List.exists_cons_of_ne_nil hne
        exact ⟨_, _, by rw [hds, List.map_cons]⟩
    have hs : s.error = some e := by
      rw [← herror]
      exact error_of_mem_columnSlots hmapped (hslots ▸ List.mem_cons_self)
    rw [hslots, List.findSome?_cons, hs]

/-- Searching a list of lists is searching for a list in which the search succeeds. -/
theorem findSome?_flatMap {α β γ : Type} (p : β → Option γ) (f : α → List β) (l : List α) :
    (l.flatMap f).findSome? p = l.findSome? fun a => (f a).findSome? p := by
  induction l with
  | nil => rfl
  | cons a l ih =>
    rw [List.flatMap_cons, List.findSome?_append, List.findSome?_cons, ih]
    cases (f a).findSome? p <;> rfl

/-- The first slot with an error is in the first column with one. Slots and jobs are out of the way
here, and what is left is a search through the columns. -/
theorem findSome?_error_slots (hne : r.dimensions ≠ []) (hmapped : r.firstUnmapped? = none) :
    (r.runJobs r.layout.slots r.layout.jobs).findSome? Slot.error = r.firstColumnError? := by
  rw [r.runJobs_layout, findSome?_flatMap]
  simp only [findSome?_error_columnSlots hne hmapped]
  calc r.columns.zipIdx.findSome? (fun p => r.columnError? p.1)
      = (r.columns.zipIdx.map Prod.fst).findSome? r.columnError? := by
        rw [List.findSome?_map]
        rfl
    _ = r.firstColumnError? := by rw [List.zipIdx_map_fst, firstColumnError?]

/-! ## The outcome -/

variable (r)

theorem errorOf?_fields (slots : List Slot) :
    errorOf? (fields slots) = slots.findSome? Slot.error := by
  rw [fields]
  cases slots.findSome? Slot.error <;> rfl

/-- The four checks are made one after the other, and each of them only if those before it have
passed. -/
theorem errorOf?_assembleFrom (slots : List Slot) (a : Assembler) :
    errorOf? (r.assembleFrom slots a) =
      (errorOf? (checkDimensions r.dimensions)).or
        ((errorOf? (checkTables r.tables)).or
          ((r.firstUnmapped?.map fun d => .unmappedDimension d.name).or
            (slots.findSome? Slot.error))) := by
  unfold assembleFrom
  refine errorOf?_bind fun _ _ => errorOf?_bind fun _ _ => ?_
  rw [firstUnmapped?, ← errorOf?_dimensionTexts, ← errorOf?_fields]
  refine errorOf?_bind fun texts _ => ?_
  rw [errorOf?_bind (o := none) fun _ _ => rfl, Option.or_none]

theorem ne_nil_of_not_brokenPath {ds : List Dimension} (h : ¬ BrokenPath ds) : ds ≠ [] :=
  fun hnil => h (.inl hnil)

/-- The outcome of assembling is the verdict of the four checks. By cases on each check in turn: one
that passes drops out of the search for the first error, and one that fails ends it. -/
theorem assemble_verdict (a : Assembler) : r.Verdict (r.assemble a) := by
  have herror := r.errorOf?_assembleFrom (r.runJobs r.layout.slots r.layout.jobs) a
  rw [← assemble] at herror
  -- a check that fails decides the error; one that passes leaves it to the checks after it
  obtain ⟨hpath, hdims⟩ | ⟨hpath, fault, hdims⟩ := checkDimensions_cases r.dimensions
  · obtain ⟨htables, hts⟩ | ⟨htables, fault, hts⟩ := checkTables_cases r.tables
    · rw [hdims, hts] at herror
      cases hmapped : r.firstUnmapped? with
      | some d =>
        rw [hmapped] at herror
        rw [errorOf?_eq_some_iff.1 herror]
        exact .unmapped hpath htables hmapped
      | none =>
        rw [hmapped, findSome?_error_slots (ne_nil_of_not_brokenPath hpath) hmapped] at herror
        cases hcolumn : r.firstColumnError? with
        | some e =>
          rw [hcolumn] at herror
          rw [errorOf?_eq_some_iff.1 herror]
          exact .formula hpath htables hmapped hcolumn
        | none =>
          rw [hcolumn] at herror
          obtain ⟨q, hq⟩ := errorOf?_eq_none_iff.1 herror
          rw [hq]
          exact .query hpath htables hmapped hcolumn
    · rw [hdims, hts] at herror
      rw [errorOf?_eq_some_iff.1 herror]
      exact .tables hpath htables
  · rw [hdims] at herror
    rw [errorOf?_eq_some_iff.1 herror]
    exact .path hpath

/-- **Assembling fails exactly when it should.** Its outcome is the verdict of the four checks. Past
the first three, no slot holds an error about a dimension or an internal one, and a formula that
fails at one dimension fails at every dimension. -/
theorem assemble_outcome (a : Assembler) :
    r.Verdict (r.assemble a) ∧
    (¬ BrokenPath r.dimensions → r.firstUnmapped? = none →
      (∀ s ∈ r.runJobs r.layout.slots r.layout.jobs, ∀ e, s.error = some e →
        (∀ name, e ≠ .unmappedDimension name) ∧ ∀ fault, e ≠ .internal fault) ∧
      ∀ f, (∃ d ∈ r.dimensions, ∃ e, compileFormula f d r.measures r.mappings = .error e) ↔
        ∀ d ∈ r.dimensions, ∃ e, compileFormula f d r.measures r.mappings = .error e) := by
  refine ⟨r.assemble_verdict a, fun hpath hmapped => ⟨?_, ?_⟩⟩
  · intro s hs e he
    rw [r.runJobs_layout] at hs
    obtain ⟨p, -, hs⟩ := List.mem_flatMap.1 hs
    rw [error_of_mem_columnSlots hmapped hs] at he
    -- the error of a slot is that of a check, and so it is about the text or about a name
    obtain ⟨f, hf⟩ := normalize_of_columnError? he
    obtain ⟨line, column, detail, rfl⟩ | ⟨name, rfl⟩ := normalize_error_cases r.measures hf
    · exact ⟨nofun, nofun⟩
    · exact ⟨nofun, nofun⟩
  · intro f
    -- at every dimension the formula fails as it fails the check
    have hcheck : ∀ d ∈ r.dimensions,
        (∃ e, compileFormula f d r.measures r.mappings = .error e) ↔
          ∃ e, normalize f r.measures = .error e := by
      intro d hd
      have hsame := errorOf?_compileFormula (f := f) d r.measures r.mappings
        (.inr (contains_of_mem hmapped hd))
      simp only [← errorOf?_eq_some_iff, hsame]
    constructor
    · rintro ⟨d, hd, hfail⟩ d' hd'
      exact (hcheck d' hd').2 ((hcheck d hd).1 hfail)
    · intro hall
      obtain ⟨d, ds, hds⟩ := List.exists_cons_of_ne_nil (ne_nil_of_not_brokenPath hpath)
      have hd : d ∈ r.dimensions := hds ▸ List.mem_cons_self
      exact ⟨d, hd, hall d hd⟩

/-- The second of three columns is a formula with an undeclared name, and so is the third: the error
is that of the second, at both levels. -/
theorem assemble_outcome_second :
    let r : ReportSpec :=
      { dimensions := [⟨"region", false⟩, ⟨"day", true⟩]
        columns := ["ghost", "second", "third"]
        tables := ["sales"]
        measures := .ofList [("a", "")]
        mappings := .ofList [("region", .column "reg"), ("day", .column "d"),
          ("second", .formula "(a)/(b)"), ("third", .other 7 "(c)")] }
    let a : Assembler := ⟨-1, ""⟩
    ¬ BrokenPath r.dimensions ∧ ¬ BrokenTables r.tables ∧ r.firstUnmapped? = none ∧
      r.assemble a = .error (.undefinedKpi "b" "(a)/(b)") ∧
      ∀ d ∈ r.dimensions, ∃ e, compileFormula "(a)/(b)" d r.measures r.mappings = .error e := by
  intro r a
  have hpath : ¬ BrokenPath r.dimensions := by simp [BrokenPath, r]
  have htables : ¬ BrokenTables r.tables := by simp [BrokenTables, r]
  have hmapped : r.firstUnmapped? = none := by decide
  have htree : Formula.GrammarTree .expr (.mulDiv .start "/" (.agg .start "a") (.agg .start "b")) :=
    .ofTerm (.mulDiv _ (by decide) (.ofFactor (.agg _ _)) (.agg _ _))
  obtain ⟨n, hn, -⟩ :=
    Formula.parse_complete (f := "(a)/(b)") (by decide +kernel) htree (by decide +kernel)
  have hnames : Formula.namesOf "(a)/(b)" = ["a", "b"] := by decide +kernel
  have hcheck : errorOf? (normalize "(a)/(b)" r.measures) = some (.undefinedKpi "b" "(a)/(b)") := by
    rw [errorOf?_normalize _ hn, hnames]
    rfl
  have hcolumn : r.firstColumnError? = some (.undefinedKpi "b" "(a)/(b)") := by
    have hghost : r.columnError? "ghost" = none := rfl
    have hsecond : r.columnError? "second" = some (.undefinedKpi "b" "(a)/(b)") := hcheck
    simp only [firstColumnError?, r, List.findSome?_cons]
    rw [hghost, hsecond]
  obtain ⟨hverdict, hrest⟩ := r.assemble_outcome a
  obtain ⟨-, hfails⟩ := hrest hpath hmapped
  -- the verdict is the one about formulas, since no other check fails
  have houtcome : r.assemble a = .error (.undefinedKpi "b" "(a)/(b)") := by
    generalize r.assemble a = o at hverdict
    cases hverdict with
    | path h => exact absurd h hpath
    | tables _ h => exact absurd h htables
    | unmapped _ _ h => simp [hmapped] at h
    | formula _ _ _ h => rw [Option.some.inj (h.symm.trans hcolumn)]
    | query _ _ _ h => simp [hcolumn] at h
  have hday : compileFormula "(a)/(b)" ⟨"day", true⟩ r.measures r.mappings =
      .error (.undefinedKpi "b" "(a)/(b)") := by
    rw [← errorOf?_eq_some_iff, errorOf?_compileFormula _ _ _ (.inl rfl), hcheck]
  exact ⟨hpath, htables, hmapped, houtcome, (hfails _).1 ⟨⟨"day", true⟩, by simp [r], _, hday⟩⟩

end ReportSpec

end KpiReport
