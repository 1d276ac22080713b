import KpiReport.Proofs.Assembly.Outcome
import KpiReport.Proofs.Assembly.Text
import KpiReport.Service

/-!
# The errors of the compile service

A report passes through validation, the choice of a dialect, assembling and writing. What one stage
has made sure of is tested again by the next, and these second tests never fail.

* **`Definitions.validate_eq_ok`** — what definitions look like that validation has accepted. Their
  dialect is a known one, their dimensions are a drill-down path and their tables have names.
* **`ReportSpec.renders_of_assemble`** — an assembled query can be written: it has a column for each
  dimension, its binding has a name, and compiled formulas hold no empty number.
* **`Service.errorOf?_report`** — so validation and assembling are left as the only sources of
  errors, and of the errors of assembling those about mappings and formulas.
* **`Service.compile_safe`** — the service reports no internal error, and configuration errors from
  validation only.
* **`Service.fingerprint_of_report`** — a report is long enough for the hash that its fingerprint is
  taken with.
-/

namespace KpiReport

/-! ## Validation -/

namespace Definitions

/-- Validation accepts definitions or reports a configuration error. -/
theorem validate_cases (d : Definitions) :
    d.validate = .ok () ∨ ∃ fault, d.validate = .error (.configuration fault) := by
  unfold validate
  split
  · exact .inr ⟨_, rfl⟩
  · split
    · exact .inr ⟨_, rfl⟩
    · exact .inl rfl

/-- Validation accepts definitions where it finds nothing: no constraint is violated, and every
mapping sets one of column and formula. -/
theorem validate_eq_ok_iff {d : Definitions} :
    d.validate = .ok () ↔ d.violations = [] ∧ d.ambiguous = [] := by
  unfold validate
  split
  · next hv => simp [hv]
  · next hv =>
    split
    · next ha => simp [ha]
    · next ha => simp [hv, ha]

/-- A list in which no place was found to be empty has no empty name. -/
theorem not_mem_of_unnamed {path : String} {names : List String} (h : unnamed path names = []) :
    "" ∉ names := by
  intro hmem
  obtain ⟨i, hi, hname⟩ := List.getElem_of_mem hmem
  have hp : (names[i], i) ∈ names.zipIdx := by
    rw [List.mem_zipIdx_iff_getElem?]
    exact List.getElem?_eq_getElem hi
  have hnone := List.filter_eq_nil_iff.1 (List.map_eq_nil_iff.1 h) _ hp
  exact hnone (decide_eq_true hname)

/-- A list that passes is given, has a name in it, and has no empty name. -/
theorem eq_some_of_nonEmpty {path : String} {names? : Option (List String)}
    (h : nonEmpty path names? = []) : ∃ names, names? = some names ∧ names ≠ [] ∧ "" ∉ names := by
  cases names? with
  | none => simp [nonEmpty] at h
  | some names =>
    -- an empty list violates the constraint on its length
    cases names with
    | nil => simp [nonEmpty] at h
    | cons name names => exact ⟨name :: names, rfl, by simp, not_mem_of_unnamed h⟩

/-- What validation makes sure of, as far as the later stages ask for it: there are dimensions and
tables, all of these have names, and the dialect is one of four texts. -/
theorem validate_eq_ok {d : Definitions} (h : d.validate = .ok ()) :
    (∃ names, d.dimensions = some names ∧ names ≠ []) ∧
      (∃ names, d.tables = some names ∧ names ≠ [] ∧ "" ∉ names) ∧
      d.dialect ∈ ["", "postgres", "postgresql", "clickhouse"] := by
  have hviolations : d.violations = [] := (validate_eq_ok_iff.1 h).1
  simp only [violations, List.append_eq_nil_iff] at hviolations
  obtain ⟨⟨⟨⟨⟨-, -⟩, hdimensions⟩, -⟩, htables⟩, hdialect⟩ := hviolations
  obtain ⟨names, hnames, hne, -⟩ := eq_some_of_nonEmpty hdimensions
  refine ⟨⟨names, hnames, hne⟩, eq_some_of_nonEmpty htables, ?_⟩
  -- the last of the constraints is about the dialect
  split at hdialect
  · next hmem => exact List.contains_iff_mem.1 hmem
  · simp at hdialect

/-- Drilling down makes the last dimension terminal, and no other. -/
theorem drillDown_concat (names : List String) (last : String) :
    drillDown (names ++ [last]) = names.map (⟨·, false⟩) ++ [⟨last, true⟩] := by
  induction names with
  | nil => rfl
  | cons name names ih =>
    rw [List.map_cons, List.cons_append, List.cons_append, ← ih]
    cases names <;> rfl

/-- Drilling down through names gives a path, ended by its only terminal dimension. So the check of
the dimensions never fails for definitions. -/
theorem not_brokenPath_drillDown {names : List String} (h : names ≠ []) :
    ¬ ReportSpec.BrokenPath (drillDown names) := by
  obtain ⟨init, last, rfl⟩ := (List.eq_nil_or_concat' names).resolve_left h
  rw [drillDown_concat]
  -- no dimension, a terminal one too early, or a last one that is not terminal
  rintro (hnil | ⟨d, hd, hterminal⟩ | ⟨d, hd, hterminal⟩)
  · simp at hnil
  · rw [List.dropLast_concat] at hd
    obtain ⟨name, -, rfl⟩ := List.mem_map.1 hd
    simp at hterminal
  · rw [List.getLast?_concat] at hd
    obtain rfl := Option.some.inj hd
    simp at hterminal

end Definitions

/-! ## The service -/

/-- The status code and the kind of an error agree on whose fault it is. -/
theorem CompileError.code_eq_iff (e : CompileError) : e.code = 400 ↔ e.kind ≠ internalKind := by
  cases e <;> simp [code, kind, internalKind]

namespace Service

variable (s : Service)

/-- The names of dialects that validation lets through are known. -/
theorem dialectOf_eq_ok {d : Definitions}
    (h : d.dialect ∈ ["", "postgres", "postgresql", "clickhouse"]) :
    ∃ dialect, s.dialectOf d = .ok dialect := by
  unfold dialectOf
  simp only [List.mem_cons, List.not_mem_nil, or_false] at h
  rcases h with h | h | h | h
  · exact ⟨_, if_pos h⟩
  all_goals
    rw [h]
    exact ⟨_, rfl⟩

/-- Past validation, a report is refused exactly when it is not assembled. Its dialect is known, and
what was assembled can be written; so two of the four stages cannot fail. -/
theorem errorOf?_report {d : Definitions} (h : d.validate = .ok ()) :
    errorOf? (s.report d) = errorOf? (d.spec.assemble ⟨s.parallelism, s.unionAlias⟩) := by
  have hstages : errorOf? (s.report d) =
      (errorOf? d.validate).or ((errorOf? (s.dialectOf d)).or
        ((errorOf? (d.spec.assemble ⟨s.parallelism, s.unionAlias⟩)).or none)) := by
    unfold report
    refine errorOf?_bind fun _ _ => errorOf?_bind fun dialect _ => errorOf?_bind fun q hq => ?_
    -- what is left is to write the query, which never fails
    obtain ⟨text, htext⟩ := ReportSpec.renders_of_assemble hq dialect.quoteIdent s.options
    have hsql : q.toSql (some dialect) s.options = .ok text := htext
    rw [hsql]
    rfl
  obtain ⟨-, -, hknown⟩ := Definitions.validate_eq_ok h
  obtain ⟨dialect, hdialect⟩ := s.dialectOf_eq_ok hknown
  rw [hstages, h, hdialect, Option.or_none]
  rfl

/-- What a compiled report is made of: an assembled query, written in some dialect with the options
of the service, and the count and fingerprint that go with it. -/
theorem report_eq_ok {s : Service} {d : Definitions} {report : CompiledReport}
    (h : s.report d = .ok report) :
    ∃ dialect q, d.spec.assemble ⟨s.parallelism, s.unionAlias⟩ = .ok q ∧
      q.toSql (some dialect) s.options = .ok report.sql ∧
      report.formulas = countFormulas d.spec ∧ report.fingerprint = Fingerprint.ofText report.sql := by
  unfold Service.report at h
  -- the stages succeed one after the other
  obtain ⟨-, -, h⟩ := bind_eq_ok_iff.1 h
  obtain ⟨dialect, -, h⟩ := bind_eq_ok_iff.1 h
  obtain ⟨q, hq, h⟩ := bind_eq_ok_iff.1 h
  split at h
  · cases h
  · next sql hsql =>
    cases h
    exact ⟨dialect, q, hq, hsql, rfl, rfl⟩

/-- **Every report has a fingerprint of its text.** The text is longer than the 64 bytes up to which
the hash would take another form, because the service never leaves the union out of it. -/
theorem fingerprint_of_report {s : Service} {d : Definitions} {report : CompiledReport}
    (h : s.report d = .ok report) :
    64 < report.sql.utf8ByteSize ∧ report.fingerprint = Fingerprint.ofText report.sql ∧
      report.fingerprint.length = 16 := by
  obtain ⟨dialect, q, hq, hsql, -, hfingerprint⟩ := report_eq_ok h
  have hunion : s.options.hidesWith = s.options.inlines ∧ s.options.isBare = false := by
    unfold options
    split <;> decide
  refine ⟨ReportSpec.size_of_render hq hunion.1 hunion.2 hsql, hfingerprint, ?_⟩
  rw [hfingerprint, Fingerprint.length_ofText]

/-- The definitions are there and pass validation. -/
def Accepts (d : Option Definitions) : Prop :=
  ∃ defs, d = some defs ∧ defs.validate = .ok ()

/-- Definitions that are not accepted lead to a configuration error. -/
theorem compile_of_not_accepts {d : Option Definitions} (h : ¬ Accepts d) (st : State) :
    ∃ fault, (s.compile d st).1 = .error (.configuration fault) := by
  cases d with
  | none => exact ⟨_, rfl⟩
  | some defs =>
    obtain hok | ⟨fault, hfault⟩ := defs.validate_cases
    · exact absurd ⟨defs, rfl, hok⟩ h
    · refine ⟨fault, ?_⟩
      have hreport : s.report defs = .error (.configuration fault) := by
        rw [report, hfault]
        rfl
      exact hreport

/-- Definitions that are accepted lead to an error about a formula or a dimension, if to any. The
first two checks of assembling are those that validation has made already. -/
theorem compile_of_accepts {d : Option Definitions} (h : Accepts d) {st : State} {e : CompileError}
    (he : (s.compile d st).1 = .error e) :
    (∃ f line column detail, e = .malformed f line column detail) ∨
      (∃ name f, e = .undefinedKpi name f) ∨ ∃ name, e = .unmappedDimension name := by
  obtain ⟨defs, rfl, hvalid⟩ := h
  obtain ⟨⟨names, hnames, hne⟩, ⟨tables, htables, htne, hnamed⟩, -⟩ :=
    Definitions.validate_eq_ok hvalid
  -- the dimensions and the tables pass the checks that assembling makes again
  have hpath : ¬ ReportSpec.BrokenPath defs.spec.dimensions := by
    have hspec : defs.spec.dimensions = Definitions.drillDown names := by
      rw [Definitions.spec, hnames]
      rfl
    rw [hspec]
    exact Definitions.not_brokenPath_drillDown hne
  have hunion : ¬ ReportSpec.BrokenTables defs.spec.tables := by
    have hspec : defs.spec.tables = tables := by
      rw [Definitions.spec, htables]
      rfl
    rw [hspec]
    rintro (hnil | hempty)
    · exact htne hnil
    · exact hnamed hempty
  have hassemble : defs.spec.assemble ⟨s.parallelism, s.unionAlias⟩ = .error e := by
    have hreport : s.report defs = .error e := he
    rw [← errorOf?_eq_some_iff, ← s.errorOf?_report hvalid]
    exact errorOf?_eq_some_iff.2 hreport
  -- so two ways to fail are left, and the check of formulas has two errors of its own
  have hverdict := defs.spec.assemble_verdict ⟨s.parallelism, s.unionAlias⟩
  rw [hassemble] at hverdict
  cases hverdict with
  | path h => exact absurd h hpath
  | tables _ h => exact absurd h hunion
  | unmapped _ _ h => exact .inr (.inr ⟨_, rfl⟩)
  | formula _ _ _ h =>
    obtain ⟨name, -, hname⟩ := List.exists_of_findSome?_eq_some h
    obtain ⟨f, hf⟩ := ReportSpec.normalize_of_columnError? hname
    obtain ⟨line, column, detail, rfl⟩ | ⟨name, rfl⟩ := normalize_error_cases _ hf
    · exact .inl ⟨_, _, _, _, rfl⟩
    · exact .inr (.inl ⟨_, _, rfl⟩)

theorem kind_of_accepts {d : Option Definitions} (h : Accepts d) {st : State} {e : CompileError}
    (he : (s.compile d st).1 = .error e) :
    e.kind ∈ ["syntax_error", "undefined_kpi", "unmapped_dimension"] := by
  obtain ⟨_, _, _, _, rfl⟩ | ⟨_, _, rfl⟩ | ⟨_, rfl⟩ := s.compile_of_accepts h he
  all_goals simp [CompileError.kind]

/-- **The service is safe.** Whatever it is asked to compile and however it is set, it returns a
report or an error of the input. A configuration error means that the definitions are not accepted,
and accepted ones are refused for a formula or a dimension only.

No branch is taken that would lead to an internal error: parsed formulas have a compiled form or an
error of the input in every scope, and an assembled query has a text however identifiers are
quoted. -/
theorem compile_safe (d : Option Definitions) (st : State) :
    ((∃ report, (s.compile d st).1 = .ok report) ∨
      ∃ e, (s.compile d st).1 = .error e ∧ e.code = 400 ∧ e.kind ≠ CompileError.internalKind) ∧
    ((∃ e, (s.compile d st).1 = .error e ∧ e.kind = "configuration_error") ↔ ¬ Accepts d) ∧
    (Accepts d → ∀ e, (s.compile d st).1 = .error e →
      e.kind ∈ ["syntax_error", "undefined_kpi", "unmapped_dimension"]) ∧
    (∀ f n, Formula.parse f = .ok n →
      ∀ (scope : Scope) fault, scope.compile n ≠ .error (.internal fault)) ∧
    ∀ (r : ReportSpec) a q, r.assemble a = .ok q → q.Renders := by
  have hinput : ∀ e, (s.compile d st).1 = .error e → e.kind ≠ CompileError.internalKind := by
    intro e he hkind
    -- accepted definitions fail for a formula or a dimension, all others in validation
    by_cases haccepts : Accepts d
    · have hmem := s.kind_of_accepts haccepts he
      rw [hkind] at hmem
      exact absurd hmem (by decide)
    · obtain ⟨fault, hfault⟩ := s.compile_of_not_accepts haccepts st
      obtain rfl : e = .configuration fault := Except.error.inj (he.symm.trans hfault)
      simp [CompileError.kind, CompileError.internalKind] at hkind
  refine ⟨?_, ⟨?_, ?_⟩, fun haccepts e he => s.kind_of_accepts haccepts he, ?_,
    fun _ _ _ h => ReportSpec.renders_of_assemble h⟩
  · cases hresult : (s.compile d st).1 with
    | ok report => exact .inl ⟨report, rfl⟩
    | error e =>
      have hkind := hinput e hresult
      exact .inr ⟨e, rfl, e.code_eq_iff.2 hkind, hkind⟩
  · rintro ⟨e, he, hkind⟩ haccepts
    have hmem := s.kind_of_accepts haccepts he
    rw [hkind] at hmem
    exact absurd hmem (by decide)
  · intro hrefused
    obtain ⟨fault, hfault⟩ := s.compile_of_not_accepts hrefused st
    exact ⟨_, hfault, rfl⟩
  · intro f n hn scope fault
    exact Scope.compile_ne_internal hn fault

/-- A level without a mapping is refused as such, and missing definitions as a configuration. Where
both levels are mapped there is a query, and it can be written. -/
theorem compile_safe_unmapped :
    let s : Service := ⟨some .clickhouse, -1, "facts", true⟩
    let d (mappings : Table MappingDef) : Definitions :=
      ⟨none, some mappings, some ["region", "day"], none, some ["sales"], ""⟩
    let unmapped := d (.ofList [("day", ⟨"d", ""⟩)])
    let mapped := d (.ofList [("region", ⟨"reg", ""⟩), ("day", ⟨"d", ""⟩)])
    let a : Assembler := ⟨-1, "facts"⟩
    (Accepts (some unmapped) ∧
      ∃ e, (s.compile (some unmapped) default).1 = .error e ∧
        e.kind ∈ ["syntax_error", "undefined_kpi", "unmapped_dimension"]) ∧
    (¬ Accepts none ∧
      ∃ e, (s.compile none default).1 = .error e ∧ e.kind = "configuration_error") ∧
    (∃ q, mapped.spec.assemble a = .ok q ∧ q.Renders) ∧
    ∃ n, Formula.parse "(a)" = .ok n ∧
      ∀ (scope : Scope) fault, scope.compile n ≠ .error (.internal fault) := by
  intro s d unmapped mapped a
  have hvalid : unmapped.validate = .ok () :=
    Definitions.validate_eq_ok_iff.2 ⟨by decide +kernel, by decide +kernel⟩
  have haccepts : Accepts (some unmapped) := ⟨unmapped, rfl, hvalid⟩
  -- the first dimension has no mapping
  have herror : (s.compile (some unmapped) default).1 = .error (.unmappedDimension "region") := by
    have hassemble : errorOf? (unmapped.spec.assemble a) = some (.unmappedDimension "region") := by
      rfl
    exact errorOf?_eq_some_iff.1 ((s.errorOf?_report hvalid).trans hassemble)
  have hnone : ¬ Accepts none := by
    rintro ⟨defs, hdefs, -⟩
    cases hdefs
  -- with both dimensions mapped there is a query
  obtain ⟨q, hq⟩ : ∃ q, mapped.spec.assemble a = .ok q := ⟨_, rfl⟩
  have htree : Formula.GrammarTree .expr (.agg .start "a") := .ofTerm (.ofFactor (.agg _ _))
  obtain ⟨n, hn, -⟩ :=
    Formula.parse_complete (f := "(a)") (by decide +kernel) htree (by decide +kernel)
  obtain ⟨-, -, hkinds, hparsed, hassembled⟩ := s.compile_safe (some unmapped) default
  obtain ⟨-, hconfiguration, -⟩ := s.compile_safe none default
  exact ⟨⟨haccepts, _, herror, hkinds haccepts _ herror⟩, ⟨hnone, hconfiguration.2 hnone⟩,
    ⟨q, hq, hassembled _ _ _ hq⟩, n, hn, hparsed _ _ hn⟩

end Service

end KpiReport
