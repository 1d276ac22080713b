import KpiReport.Proofs.Assembly.Slots
import Mathlib.Data.List.Forall2

/-!
# The parts of an assembled query

The slots of a report are allocated, filled and put behind the dimensions in three passes. This
module says what the query is that comes out of them when none fails.

* **`ReportSpec.ColumnItems`** — what one requested column contributes to the output: nothing, the
  column behind it, or its formula at every level under a name of its own.
* **`ReportSpec.QueryParts`** — all clauses of the query.
* **`ReportSpec.exists_queryParts`** — every query that is assembled has them.

`ReportSpec.runJobs_layout` does away with slot numbers and jobs; what is left is that slots without
errors hold the items of their column (`exists_columnItems`).
-/

namespace KpiReport

namespace ReportSpec

/-! ## Statement -/

/-- The items that the column `name` contributes at the place `position` among the requested
columns. -/
inductive ColumnItems (r : ReportSpec) (position : Nat) (name : String) : List Sql.Expr → Prop where
  | unmapped (h : r.mappings.get? name = none) : ColumnItems r position name []
  | column {text : String} (h : r.mappings.get? name = some (.column text)) :
      ColumnItems r position name [.raw text]
  /-- One item for each dimension, the position counting the unmapped columns too. -/
  | formula {m : Mapping} {items : List Sql.Expr} (h : r.mappings.get? name = some m)
      (hm : ∀ text, m ≠ .column text)
      (hitems : List.Forall₂ (fun d item => ∃ e md,
        compileFormula m.text d r.measures r.mappings = .ok e ∧
          r.mappings.get? d.name = some md ∧
          item = .column e ("kpi_" ++ toString position ++ "~" ++ md.text)) r.dimensions items) :
      ColumnItems r position name items

/-- The clauses of the query `q` of a report: `dims` are the items of the dimensions, `items` those
of each requested column and `facts` is the union of the tables. -/
structure QueryParts (r : ReportSpec) (a : Assembler) (q : Sql.Query) (dims : List Sql.Expr)
    (items : List (List Sql.Expr)) (facts : Sql.With) : Prop where
  dimensions : List.Forall₂ (fun d item => ∃ m,
    r.mappings.get? d.name = some m ∧ item = .raw m.text) r.dimensions dims
  columns : List.Forall₂ (fun p es => r.ColumnItems p.2 p.1 es) r.columns.zipIdx items
  /-- Every slot is filled in the end, and with the item that is put out. -/
  filled : (r.runJobs r.layout.slots r.layout.jobs).map Slot.field = items.flatten.map some
  query : q = .select [facts] (dims ++ items.flatten) (some (.withRef facts)) dims
    (dims.map fun d => .order d .asc .last)
  grouping : q.groupBy = q.columns.take r.dimensions.length
  name : facts.name = if a.unionAlias = "" then "facts" else a.unionAlias
  union : facts.query.members? =
    some (r.tables.map fun t => .select [] [.raw "*"] (some (.raw t)) [] [])

/-! ## Dimensions and tables -/

/-- The dimensions have texts when all of them are mapped, and these are the mapped texts in the
same order. -/
theorem dimensionTexts_eq_ok_iff {m : Mappings} {ds : List Dimension} {texts : List String} :
    dimensionTexts m ds = .ok texts ↔
      List.Forall₂ (fun d text => ∃ md, m.get? d.name = some md ∧ text = md.text) ds texts := by
  induction ds generalizing texts with
  | nil => simp [dimensionTexts, eq_comm]
  | cons d ds ih =>
    rw [List.forall₂_cons_left_iff]
    -- without a mapping of the first dimension there are no texts
    cases hd : m.get? d.name with
    | none => simp [dimensionTexts, hd]
    | some md =>
      rw [dimensionTexts, hd]
      constructor
      · intro h
        obtain ⟨rest, hrest, h⟩ := bind_eq_ok_iff.1 h
        exact ⟨md.text, rest, ⟨md, rfl, rfl⟩, ih.1 hrest, (Except.ok.inj h).symm⟩
      · rintro ⟨_, rest, ⟨_, hmd, rfl⟩, hrest, rfl⟩
        obtain rfl := Option.some.inj hmd
        exact bind_eq_ok_iff.2 ⟨rest, ih.2 hrest, rfl⟩

theorem ne_nil_of_checkTables {ts : List String} (h : checkTables ts = .ok ()) : ts ≠ [] := by
  rintro rfl
  exact absurd h (by simp [checkTables])

theorem members?_unionQuery {ts : List String} (h : ts ≠ []) :
    (unionQuery ts).members? = some (ts.map tableQuery) := by
  obtain ⟨t, ts, rfl⟩ := List.exists_cons_of_ne_nil h
  rfl

/-- The union binds nothing, so nothing is added along with it. -/
theorem addWiths_unionQuery (name : String) (ts : List String) :
    Sql.addWiths [] [.mk name (unionQuery ts)] = [.mk name (unionQuery ts)] := by
  have hneeds : (unionQuery ts).withs = [] := by
    cases ts <;> rfl
  rw [Sql.addWiths, Sql.addWith, Sql.addNeeds_eq, hneeds]
  rfl

/-! ## Slots without errors -/

theorem fields_eq_ok_iff {slots : List Slot} {es : List Sql.Expr} :
    fields slots = .ok es ↔
      (∀ s ∈ slots, s.error = none) ∧ slots.filterMap Slot.field = es := by
  rw [fields, ← List.findSome?_eq_none_iff]
  cases slots.findSome? Slot.error <;> simp

variable {r : ReportSpec}

/-- A slot of a formula without an error holds the compiled formula. -/
theorem field_fieldSlot {column : Nat} {f : String} {d : Dimension}
    (h : (r.fieldSlot column f d).error = none) :
    ∃ e, compileFormula f d r.measures r.mappings = .ok e ∧
      (r.fieldSlot column f d).field =
        some (.column e (fieldAlias column (r.mappings.textOf d.name))) := by
  unfold fieldSlot at h ⊢
  cases hc : compileFormula f d r.measures r.mappings with
  | error e => simp [hc, Slot.enter] at h
  | ok e => exact ⟨e, rfl, rfl⟩

/-- One item for each element, when each element has one. -/
theorem exists_forall₂ {α β : Type} {R : α → β → Prop} {xs : List α} (h : ∀ x ∈ xs, ∃ y, R x y) :
    ∃ ys, List.Forall₂ R xs ys := by
  induction xs with
  | nil => exact ⟨[], .nil⟩
  | cons x xs ih =>
    obtain ⟨y, hy⟩ := h x List.mem_cons_self
    obtain ⟨ys, hys⟩ := ih fun x' hx' => h x' (List.mem_cons_of_mem x hx')
    exact ⟨y :: ys, .cons hy hys⟩

/-- Lists that agree element by element under two maps have the same image. -/
theorem map_eq_map_of_forall₂ {α β γ : Type} {f : α → γ} {g : β → γ} {xs : List α} {ys : List β}
    (h : List.Forall₂ (fun x y => f x = g y) xs ys) : xs.map f = ys.map g := by
  rw [← List.forall₂_eq_eq_eq, List.forall₂_map_left_iff, List.forall₂_map_right_iff]
  exact h

/-- If the slots of a column have no errors, they hold its items: none, the one column, or a field
for each dimension. -/
theorem exists_columnItems (hdims : ∀ d ∈ r.dimensions, ∃ md, r.mappings.get? d.name = some md)
    {column : Nat} {name : String} (h : ∀ s ∈ r.columnSlots column name, s.error = none) :
    ∃ items, r.ColumnItems column name items ∧
      (r.columnSlots column name).map Slot.field = items.map some := by
  obtain hmap | ⟨text, hmap⟩ | ⟨m, hmap, hm⟩ := r.mapping_cases name
  · refine ⟨[], .unmapped hmap, ?_⟩
    rw [r.columnSlots_of_unmapped hmap]
    rfl
  · refine ⟨[.raw text], .column hmap, ?_⟩
    rw [r.columnSlots_of_column hmap]
    rfl
  · rw [r.columnSlots_of_formula hmap hm] at h ⊢
    -- at each dimension the slot and the item that belongs there
    have hat : ∀ d ∈ r.dimensions, ∃ item,
        (∃ e md, compileFormula m.text d r.measures r.mappings = .ok e ∧
          r.mappings.get? d.name = some md ∧
          item = .column e ("kpi_" ++ toString column ++ "~" ++ md.text)) ∧
        (r.fieldSlot column m.text d).field = some item := by
      intro d hd
      obtain ⟨md, hmd⟩ := hdims d hd
      obtain ⟨e, he, hfield⟩ := field_fieldSlot (h _ (List.mem_map_of_mem hd))
      have htext : r.mappings.textOf d.name = md.text := by
        rw [Mappings.textOf, hmd]
        rfl
      rw [htext] at hfield
      exact ⟨_, ⟨e, md, he, hmd, rfl⟩, hfield⟩
    obtain ⟨items, hitems⟩ := exists_forall₂ hat
    refine ⟨items, .formula hmap hm (hitems.imp fun d item h => h.1), ?_⟩
    rw [List.map_map]
    exact map_eq_map_of_forall₂ (hitems.imp fun d item h => h.2)

/-- If no slot has an error, the slots hold the items of one column after the other. Nothing is said
here of which job filled which slot; `runJobs_layout` has done away with that. -/
theorem exists_items (hdims : ∀ d ∈ r.dimensions, ∃ md, r.mappings.get? d.name = some md)
    (h : ∀ s ∈ r.runJobs r.layout.slots r.layout.jobs, s.error = none) :
    ∃ items, List.Forall₂ (fun p es => r.ColumnItems p.2 p.1 es) r.columns.zipIdx items ∧
      (r.runJobs r.layout.slots r.layout.jobs).map Slot.field = items.flatten.map some := by
  rw [r.runJobs_layout] at h ⊢
  -- the slots of each column hold its items
  have hat : ∀ p ∈ r.columns.zipIdx, ∃ es, r.ColumnItems p.2 p.1 es ∧
      (r.columnSlots p.2 p.1).map Slot.field = es.map some := by
    intro p hp
    apply exists_columnItems hdims
    intro s hs
    exact h s (List.mem_flatMap_of_mem hp hs)
  obtain ⟨items, hitems⟩ := exists_forall₂ hat
  refine ⟨items, hitems.imp fun p es h => h.1, ?_⟩
  have hfields := map_eq_map_of_forall₂ (hitems.imp fun p es h => h.2)
  rw [List.map_flatMap, List.flatMap_def, hfields, ← List.map_flatten]

/-! ## The query -/

/-- What it takes for a query to be assembled, and what it is then: the checks pass, and the rest is
put together from the texts and the fields. -/
theorem assembleFrom_eq_ok_iff {slots : List Slot} {a : Assembler} {q : Sql.Query} :
    r.assembleFrom slots a = .ok q ↔
      checkDimensions r.dimensions = .ok () ∧ checkTables r.tables = .ok () ∧
        ∃ texts es, dimensionTexts r.mappings r.dimensions = .ok texts ∧ fields slots = .ok es ∧
          let facts := Sql.With.mk a.unionName (unionQuery r.tables)
          let dims := texts.map Sql.Expr.raw
          q = .select [facts] (dims ++ es) (some (.withRef facts)) dims
            (dims.map fun d => .order d .asc .last) := by
  simp only [assembleFrom, addWiths_unionQuery]
  constructor
  · intro h
    obtain ⟨_, hdims, h⟩ := bind_eq_ok_iff.1 h
    obtain ⟨_, htables, h⟩ := bind_eq_ok_iff.1 h
    obtain ⟨texts, htexts, h⟩ := bind_eq_ok_iff.1 h
    obtain ⟨es, hes, h⟩ := bind_eq_ok_iff.1 h
    exact ⟨hdims, htables, texts, es, htexts, hes, (Except.ok.inj h).symm⟩
  · rintro ⟨hdims, htables, texts, es, htexts, hes, rfl⟩
    rw [hdims, htables, htexts, hes]
    rfl

/-- **The layout of an assembled query.** Its clauses are those of `QueryParts`. That the query was
assembled tells that the dimensions are mapped and that no slot has an error; the rest is how the
parts were put together. -/
theorem exists_queryParts {a : Assembler} {q : Sql.Query} (h : r.assemble a = .ok q) :
    ∃ dims items facts, r.QueryParts a q dims items facts := by
  obtain ⟨-, htables, texts, es, htexts, hes, hq⟩ := assembleFrom_eq_ok_iff.1 h
  obtain ⟨herror, rfl⟩ := fields_eq_ok_iff.1 hes
  have hdims := dimensionTexts_eq_ok_iff.1 htexts
  -- the dimensions are all mapped here, so the names of the fields have no empty parts
  have hmapped : ∀ d ∈ r.dimensions, ∃ md, r.mappings.get? d.name = some md := by
    have hand := hdims.imp fun d text h => And.intro (h.imp fun _ hm => hm.1) h
    exact ((List.forall₂_and_left _ _).1 hand).1
  -- what the slots hold, column by column
  obtain ⟨items, hitems, hfilled⟩ := exists_items hmapped herror
  -- collecting the fields drops none of them
  have hes : (r.runJobs r.layout.slots r.layout.jobs).filterMap Slot.field = items.flatten := by
    calc (r.runJobs r.layout.slots r.layout.jobs).filterMap Slot.field
        = ((r.runJobs r.layout.slots r.layout.jobs).map Slot.field).filterMap id := by
          rw [List.filterMap_map]
          rfl
      _ = (items.flatten.map some).filterMap id := by rw [hfilled]
      _ = items.flatten := by
          rw [List.filterMap_map]
          exact List.filterMap_some
  rw [hes] at hq
  refine ⟨texts.map .raw, items, .mk a.unionName (unionQuery r.tables), ?_, hitems, hfilled, hq,
    ?_, rfl, members?_unionQuery (ne_nil_of_checkTables htables)⟩
  · rw [List.forall₂_map_right_iff]
    refine hdims.imp fun d text => ?_
    rintro ⟨m, hm, rfl⟩
    exact ⟨m, hm, rfl⟩
  · have hlength : (texts.map Sql.Expr.raw).length = r.dimensions.length := by
      rw [List.length_map, hdims.length_eq]
    rw [hq]
    exact (List.take_left' hlength).symm

/-- An unmapped column, a plain one and a formula over two levels and two tables. The fields of the
formula are named by its position, which counts the unmapped column. -/
theorem exists_queryParts_ratio :
    let r : ReportSpec :=
      { dimensions := [⟨"region", false⟩, ⟨"day", true⟩]
        columns := ["ghost", "units", "ratio"]
        tables := ["sales", "returns"]
        measures := .ofList [("a", "")]
        mappings := .ofList [("region", .column "reg"), ("day", .column "d"), ("units", .column "n"),
          ("ratio", .formula "(a)/2")] }
    let a : Assembler := ⟨4, "rows"⟩
    let facts : Sql.With := .mk "rows" (.unionAll (tableQuery "sales") [tableQuery "returns"])
    let q : Sql.Query :=
      .select [facts]
        [.raw "reg", .raw "d", .raw "n",
          .column (.binary "/" (.window (.aggregate "sum" (.aggregate "sum" (.raw "a")))
            [.raw "reg"]) (.num "2")) "kpi_2~reg",
          .column (.binary "/" (.aggregate "sum" (.raw "a")) (.num "2")) "kpi_2~d"]
        (some (.withRef facts)) [.raw "reg", .raw "d"]
        [.order (.raw "reg") .asc .last, .order (.raw "d") .asc .last]
    r.assemble a = .ok q ∧ ∃ dims items facts, r.QueryParts a q dims items facts := by
  intro r a facts q
  have htree : Formula.GrammarTree .expr
      (.mulDiv .start "/" (.agg .start "a") (.number .start "2")) :=
    .ofTerm (.mulDiv _ (by decide) (.ofFactor (.agg _ _)) (.number _ _))
  have hcompile : ∀ d : Dimension, compileFormula "(a)/2" d r.measures r.mappings = _ := fun d =>
    compileFormula_eq_compile d _ _ (by decide +kernel) htree (by decide +kernel)
  have hmapping : r.mappings.get? "ratio" = some (.formula "(a)/2") := rfl
  -- the slots of the formula hold what it is compiled to at the two levels
  have hratio := r.columnSlots_of_formula hmapping (by simp) 2
  have hq : r.assemble a = .ok q := by
    rw [assemble, runJobs_layout]
    simp only [r, List.zipIdx_cons, List.flatMap_cons, Nat.reduceAdd, hratio]
    simp only [r, List.map_cons, List.map_nil, fieldSlot, Mapping.text, hcompile]
    rfl
  exact ⟨hq, exists_queryParts hq⟩

end ReportSpec

end KpiReport
