import KpiReport.Proofs.Assembly.Query
import KpiReport.Proofs.Formula.Lexemes
import Mathlib

/-!
# What the names of output columns tell

A formula is put out once for each dimension, under a name made of the position of its column and
the mapped text of the dimension. The position is a decimal number of any length and the text is
arbitrary, so nothing but the `~` between them says where the one ends and the other begins.

* **`readAlias`** — reads a name back: the digits in front of the first `~` and all that follows it.
  Digits are no `~`, so it does not matter what the text is made of (`readAlias_fieldAlias`).
* **`ReportSpec.sources`** — the positions and texts that the names of a report are made of, in the
  order of the output.
* **`ReportSpec.nodup_sources_iff`** — positions set columns apart, and within a column the texts
  have to do it.
* **`ReportSpec.aliases_readBack`** — the statement about assembled queries.

The decimal digits of a number read back by `Nat.toNat?_repr`, which only the whole library brings
along; nothing else here needs it.
-/

namespace KpiReport

/-- The names under which the output columns of a query appear, as far as they have any. -/
def Sql.Query.aliases (q : Sql.Query) : List String :=
  q.columns.filterMap Sql.Expr.outputName?

/-- The column and the dimension text that the name of an output column was made of. The digits end
at the first `~`, and all that follows it is text, even if there are more of them. -/
def readAlias (name : String) : Option (Nat × String) :=
  let cs := name.toList.drop "kpi_".length
  match cs.dropWhile Char.isDigit with
  | '~' :: text => do
    let column ← (String.ofList (cs.takeWhile Char.isDigit)).toNat?
    return (column, String.ofList text)
  | _ => none

namespace ReportSpec

theorem toList_fieldAlias (column : Nat) (text : String) :
    (fieldAlias column text).toList.drop "kpi_".length =
      Nat.toDigits 10 column ++ '~' :: text.toList := by
  simp only [fieldAlias, String.toList_append, Nat.toString_eq_repr, Nat.toList_repr,
    List.append_assoc]
  rfl

/-- A name is read back as what it was made of, whatever the text of the dimension is. The digits of
the position are no `~`, so the first one is that behind them. -/
theorem readAlias_fieldAlias (column : Nat) (text : String) :
    readAlias (fieldAlias column text) = some (column, text) := by
  have hdigits : ∀ c ∈ Nat.toDigits 10 column, c.isDigit = true := fun c hc =>
    Nat.isDigit_of_mem_toDigits (by decide) (by decide) hc
  have hstop : ∀ c ∈ ('~' :: text.toList).head?, c.isDigit = false := by
    intro c hc
    obtain rfl : '~' = c := Option.some.inj hc
    decide
  obtain ⟨htake, hdrop⟩ := Formula.takeWhile_append_of_stop hdigits hstop
  -- the digits in front of the first `~` are those of the position
  have hnumber : (String.ofList (Nat.toDigits 10 column)).toNat? = some column := by
    rw [← Nat.repr_eq_ofList_toDigits]
    exact Nat.toNat?_repr column
  rw [readAlias, toList_fieldAlias]
  simp only [htake, hdrop, hnumber, String.ofList_toList]
  rfl

theorem fieldAlias_injective : Function.Injective fun p : Nat × String => fieldAlias p.1 p.2 := by
  intro p p' h
  have hread : readAlias (fieldAlias p.1 p.2) = readAlias (fieldAlias p'.1 p'.2) :=
    congrArg readAlias h
  rw [readAlias_fieldAlias, readAlias_fieldAlias] at hread
  exact Option.some.inj hread

/-! ## Where names come from -/

variable (r : ReportSpec)

/-- The column is mapped, and not to a column of the tables. -/
def computes (name : String) : Bool :=
  (r.mappings.get? name).any fun m => !m.isColumn

/-- The mapped texts of the dimensions. -/
def texts : List String :=
  r.dimensions.map fun d => r.mappings.textOf d.name

/-- What the names at a column are made of: its position, and the texts one by one. -/
def columnSources (column : Nat) (name : String) : List (Nat × String) :=
  if r.computes name then r.texts.map (Prod.mk column) else []

/-- What the names of all columns are made of. -/
def sources : List (Nat × String) :=
  r.columns.zipIdx.flatMap fun p => r.columnSources p.2 p.1

/-- The field is the formula of the column at that position, compiled for a dimension with that
text. -/
def IsField (source : Nat × String) (e : Sql.Expr) : Prop :=
  ∃ name m d, r.columns[source.1]? = some name ∧ r.mappings.get? name = some m ∧
    m.isColumn = false ∧ d ∈ r.dimensions ∧ r.mappings.textOf d.name = source.2 ∧
    compileFormula m.text d r.measures r.mappings = .ok e

variable {r}

/-- A name at a column is made of the position of that column. -/
theorem fst_of_mem_columnSources {column : Nat} {name : String} {s : Nat × String}
    (hs : s ∈ r.columnSources column name) : s.1 = column := by
  unfold columnSources at hs
  split at hs
  · obtain ⟨text, -, rfl⟩ := List.mem_map.1 hs
    rfl
  · cases hs

/-- At one column the names are different if the texts of the dimensions are, or if it has none. -/
theorem nodup_columnSources_iff {column : Nat} {name : String} :
    (r.columnSources column name).Nodup ↔ (r.computes name = true → r.texts.Nodup) := by
  unfold columnSources
  cases r.computes name with
  | false => simp
  | true =>
    rw [if_pos rfl, List.nodup_map_iff (Prod.mk_right_injective column)]
    simp

/-- Two columns have different positions, so only names at the same one can be the same. As soon as
one column is computed, the texts of the dimensions have to be different. -/
theorem nodup_sources_iff :
    r.sources.Nodup ↔ (∀ name ∈ r.columns, r.computes name = false) ∨ r.texts.Nodup := by
  have hpositions : (r.columns.zipIdx.map Prod.snd).Nodup := by
    rw [List.zipIdx_map_snd]
    exact List.nodup_range'
  -- names at different columns have nothing in common
  have hapart : r.columns.zipIdx.Pairwise
      (Function.onFun List.Disjoint fun p => r.columnSources p.2 p.1) := by
    apply (List.pairwise_map.1 hpositions).imp
    intro p p' hne s hs hs'
    exact hne ((fst_of_mem_columnSources hs).symm.trans (fst_of_mem_columnSources hs'))
  rw [sources, List.nodup_flatMap, and_iff_left hapart]
  simp only [nodup_columnSources_iff]
  constructor
  · intro h
    -- if the texts repeat, no column may be computed
    by_cases htexts : r.texts.Nodup
    · exact .inr htexts
    · refine .inl fun name hname => ?_
      rw [← List.zipIdx_map_fst 0 r.columns] at hname
      obtain ⟨p, hp, rfl⟩ := List.mem_map.1 hname
      exact Bool.eq_false_iff.2 fun hcomputes => htexts (h p hp hcomputes)
  · rintro (hnone | htexts) p hp hcomputes
    · rw [hnone p.1 (List.fst_mem_of_mem_zipIdx hp)] at hcomputes
      cases hcomputes
    · exact htexts

/-! ## The names of a query -/

/-- Slots without errors have the names that their column gives. For a formula these are one for
each dimension; all other columns are put out under no name of their own. -/
theorem outputNames_columnSlots {column : Nat} {name : String}
    (h : ∀ s ∈ r.columnSlots column name, s.error = none) :
    ((r.columnSlots column name).filterMap Slot.field).filterMap Sql.Expr.outputName? =
      (r.columnSources column name).map fun p => fieldAlias p.1 p.2 := by
  obtain hmap | ⟨text, hmap⟩ | ⟨m, hmap, hm⟩ := r.mapping_cases name
  · rw [r.columnSlots_of_unmapped hmap, columnSources, computes, hmap]
    rfl
  · rw [r.columnSlots_of_column hmap, columnSources, computes, hmap]
    rfl
  · have hcomputes : r.computes name = true := by
      rw [computes, hmap, Option.any_some, Mapping.isColumn_eq_false_iff.2 hm]
      rfl
    rw [r.columnSlots_of_formula hmap hm] at h ⊢
    -- each slot holds one field, named for its dimension
    have hname : ∀ d ∈ r.dimensions, (r.fieldSlot column m.text d).field.bind
        Sql.Expr.outputName? = some (fieldAlias column (r.mappings.textOf d.name)) := by
      intro d hd
      obtain ⟨e, -, hfield⟩ := field_fieldSlot (h _ (List.mem_map_of_mem hd))
      rw [hfield]
      rfl
    rw [columnSources, if_pos hcomputes, texts, List.filterMap_filterMap, List.filterMap_map,
      List.map_map, List.map_map, ← List.filterMap_eq_map]
    exact List.filterMap_congr hname

/-- The names of an assembled query are those that the layout has given out, in its order. The
dimensions stand in front and have none. -/
theorem aliases_of_assemble {a : Assembler} {q : Sql.Query} (h : r.assemble a = .ok q) :
    q.aliases = r.sources.map fun p => fieldAlias p.1 p.2 := by
  obtain ⟨-, -, texts, es, -, hes, rfl⟩ := assembleFrom_eq_ok_iff.1 h
  obtain ⟨herror, rfl⟩ := fields_eq_ok_iff.1 hes
  rw [r.runJobs_layout] at herror ⊢
  -- the dimensions in front have no names
  have hdims : (texts.map Sql.Expr.raw).filterMap Sql.Expr.outputName? = [] := by
    rw [List.filterMap_map]
    exact List.filterMap_eq_nil_iff.2 fun _ _ => rfl
  rw [Sql.Query.aliases, Sql.Query.columns, List.filterMap_append, hdims, List.nil_append,
    List.filterMap_flatMap, List.filterMap_flatMap, sources, List.map_flatMap]
  apply List.flatMap_congr
  intro p hp
  apply outputNames_columnSlots
  intro s hs
  exact herror s (List.mem_flatMap_of_mem hp hs)

/-- A named column of an assembled query is the field that its name tells. It comes from the slot of
one column and one dimension, and its name was made of just these. -/
theorem isField_of_assemble {a : Assembler} {q : Sql.Query} (h : r.assemble a = .ok q)
    {e : Sql.Expr} {name : String} (he : .column e name ∈ q.columns) :
    ∃ source, readAlias name = some source ∧ r.IsField source e := by
  obtain ⟨-, -, texts, es, -, hes, rfl⟩ := assembleFrom_eq_ok_iff.1 h
  obtain ⟨herror, rfl⟩ := fields_eq_ok_iff.1 hes
  -- the items of the dimensions have no names
  rcases List.mem_append.1 he with hdim | hfield
  · obtain ⟨text, -, hraw⟩ := List.mem_map.1 hdim
    cases hraw
  · obtain ⟨s, hs, hfield⟩ := List.mem_filterMap.1 hfield
    have hnone : s.error = none := herror s hs
    rw [r.runJobs_layout] at hs
    obtain ⟨⟨column, i⟩, hp, hs⟩ := List.mem_flatMap.1 hs
    have hcolumn : r.columns[i]? = some column := List.mem_zipIdx_iff_getElem?.1 hp
    -- only a formula has named fields, one for each dimension
    obtain hmap | ⟨text, hmap⟩ | ⟨m, hmap, hm⟩ := r.mapping_cases column
    · rw [r.columnSlots_of_unmapped hmap] at hs
      cases hs
    · rw [r.columnSlots_of_column hmap] at hs
      obtain rfl := List.mem_singleton.1 hs
      cases hfield
    · rw [r.columnSlots_of_formula hmap hm] at hs
      obtain ⟨d, hd, rfl⟩ := List.mem_map.1 hs
      obtain ⟨e', he', hfield'⟩ := field_fieldSlot hnone
      cases hfield.symm.trans hfield'
      have hformula : m.isColumn = false := Mapping.isColumn_eq_false_iff.2 hm
      exact ⟨_, readAlias_fieldAlias i _, column, m, d, hcolumn, hmap, hformula, hd, rfl, he'⟩

/-- **Output names identify their field.** Every name of an assembled query is made of a column and
a dimension text, which can be read back from it and are those of the field. The names are different
from each other if and only if no column is put out as a formula or the dimensions have different
texts. -/
theorem aliases_readBack {a : Assembler} {q : Sql.Query} (h : r.assemble a = .ok q) :
    q.aliases = r.sources.map (fun p => fieldAlias p.1 p.2) ∧
      (∀ column text, readAlias (fieldAlias column text) = some (column, text)) ∧
      (∀ e name, .column e name ∈ q.columns →
        ∃ source, readAlias name = some source ∧ r.IsField source e) ∧
      (q.aliases.Nodup ↔
        (∀ name ∈ r.columns, r.computes name = false) ∨ r.texts.Nodup) := by
  have haliases : q.aliases = r.sources.map fun p => fieldAlias p.1 p.2 := aliases_of_assemble h
  refine ⟨haliases, readAlias_fieldAlias, fun e name he => isField_of_assemble h he, ?_⟩
  rw [haliases, List.nodup_map_iff fieldAlias_injective]
  exact nodup_sources_iff

/-- A column that is asked for twice, at dimensions with a digit and a `~` in their texts. All four
names are different, and the first `~` ends the position in each. -/
theorem aliases_readBack_tilde :
    let r : ReportSpec :=
      { dimensions := [⟨"region", false⟩, ⟨"day", true⟩]
        columns := ["half", "half"]
        tables := ["sales"]
        measures := .empty
        mappings := .ofList [("region", .column "0~1"), ("day", .column "~"), ("half", .formula "2")] }
    ∃ q, r.assemble .sequential = .ok q ∧
      q.aliases = ["kpi_0~0~1", "kpi_0~~", "kpi_1~0~1", "kpi_1~~"] ∧
      readAlias "kpi_0~0~1" = some (0, "0~1") ∧ q.aliases.Nodup := by
  intro r
  have htree : Formula.GrammarTree .expr (.number .start "2") := .ofTerm (.ofFactor (.number _ _))
  have hcompile : ∀ d : Dimension, compileFormula "2" d r.measures r.mappings = _ := fun d =>
    compileFormula_eq_compile d _ _ (by decide +kernel) htree (by decide +kernel)
  have hmapping : r.mappings.get? "half" = some (.formula "2") := rfl
  have hslots := r.columnSlots_of_formula hmapping (by simp)
  obtain ⟨q, hq⟩ : ∃ q, r.assemble .sequential = .ok q := by
    rw [assemble, runJobs_layout]
    simp only [r, List.zipIdx_cons, List.flatMap_cons, hslots]
    simp only [r, List.map_cons, List.map_nil, fieldSlot, Mapping.text, hcompile]
    -- names are written down, not looked at
    generalize fieldAlias = names
    exact ⟨_, rfl⟩
  obtain ⟨haliases, hread, -, hnodup⟩ := aliases_readBack hq
  refine ⟨q, hq, ?_, hread 0 "0~1", hnodup.2 (.inr (by decide))⟩
  rw [haliases]
  decide +kernel

end ReportSpec

end KpiReport
