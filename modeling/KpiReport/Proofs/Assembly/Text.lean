import KpiReport.Proofs.Assembly.Query
import KpiReport.Proofs.Sql.Rendering

/-!
# The text of an assembled query

An assembled query binds the union of the fact tables and reads from it. Options move the text of
the union to the one place or the other, and nothing else in the query has a reference that could
be written in two ways.

* **`ReportSpec.render_unionQuery`** — the union has one text, in every dialect and with every
  option: its tables have no bindings to show or to hide.
* **`ReportSpec.exists_text`** — the text of the query for all options at once. Around the place
  that it reads from, all of it is the same.
* **`ReportSpec.toSql_inline_eq`** — so the query with its union inlined and the query with its
  union bound in front are one text around the two ways to name the union.
* **`ReportSpec.size_of_render`** — either text is longer than 64 bytes, whatever the report: the
  words that stand in every query make up that much.
-/

namespace KpiReport

/-- A compiled tree has one text under all options. By induction on the tree: there is no reference
to a binding in it, and no query. -/
theorem Scope.steady_of_compile {s : Scope} {n : Formula.Node} {e : Sql.Expr}
    (h : s.compile n = .ok e) : e.Steady := by
  induction n generalizing e with
  | number pos text =>
    obtain ⟨htext, rfl⟩ := compile_number_eq_ok_iff.1 h
    exact .num htext
  | addSub pos op l r ihl ihr =>
    obtain ⟨el, er, o, hl, hr, -, rfl⟩ := compile_addSub_eq_ok_iff.1 h
    exact (ihl hl).binary (ihr hr) o
  | mulDiv pos op l r ihl ihr =>
    obtain ⟨el, er, o, hl, hr, -, rfl⟩ := compile_mulDiv_eq_ok_iff.1 h
    exact (ihl hl).binary (ihr hr) o
  | paren pos inner ih =>
    rw [compile_paren] at h
    exact ih h
  | agg pos name =>
    have hbase : ∀ fn text, (Sql.Expr.aggregate fn (.raw text)).Steady := fun fn text =>
      (Sql.Expr.Steady.raw text).aggregate fn
    obtain ⟨-, ⟨-, rfl⟩ | ⟨-, m, -, rfl⟩⟩ := compile_agg_eq_ok_iff.1 h
    · exact hbase _ _
    · refine ((hbase _ _).aggregate _).window ?_
      simp [Sql.Expr.Steady.raw]
  | hole what => simp [compile] at h

/-- The union has a name, the default one if none is asked for. Without one it could not be
written. -/
theorem Assembler.unionName_ne_empty (a : Assembler) : a.unionName ≠ "" := by
  unfold unionName
  split
  · decide
  · assumption

namespace ReportSpec

variable {r : ReportSpec}

/-! ## The union of the tables -/

/-- The text of the union of some tables. -/
def unionText (tables : List String) : String :=
  " UNION ALL ".intercalate (tables.map ("SELECT * FROM " ++ ·))

/-- A table is read by a query without bindings, so options have no say in its text. -/
theorem render_tableQuery (quote : String → String) (o : Sql.Options) (t : String) :
    (tableQuery t).render quote o = .ok ("SELECT * FROM " ++ t) := by
  have hcolumns : Sql.Expr.renderAll quote o [.raw "*"] = .ok ["*"] := rfl
  rw [tableQuery, Sql.Query.render_select_hidden (.inr rfl) (List.cons_ne_nil _ _) hcolumns rfl rfl
    rfl]
  simp [Sql.selectText]

/-- The same for all tables. -/
theorem renderAll_tableQuery (quote : String → String) (o : Sql.Options) (ts : List String) :
    Sql.Query.renderAll quote o (ts.map tableQuery) =
      .ok (ts.map ("SELECT * FROM " ++ ·)) := by
  induction ts with
  | nil => rfl
  | cons t ts ih =>
    rw [List.map_cons, Sql.Query.renderAll, render_tableQuery, ih]
    rfl

/-- The union is written alike with every option, and nothing in it is quoted. -/
theorem render_unionQuery (quote : String → String) (o : Sql.Options) {ts : List String}
    (h : ts ≠ []) : (unionQuery ts).render quote o = .ok (unionText ts) := by
  obtain ⟨t, ts, rfl⟩ := List.exists_cons_of_ne_nil h
  rw [unionQuery, Sql.Query.render, render_tableQuery, renderAll_tableQuery]
  rfl

/-! ## The clauses -/

/-- The field in a slot is steady: it is a column of the tables or a compiled formula. Neither has a
reference to the union in it, which is the one thing that options are about. -/
theorem steady_of_mem_columnSlots {column : Nat} {name : String} {s : Slot} {e : Sql.Expr}
    (hs : s ∈ r.columnSlots column name) (he : s.field = some e) : e.Steady := by
  obtain h | ⟨text, h⟩ | ⟨m, h, hm⟩ := r.mapping_cases name
  · rw [r.columnSlots_of_unmapped h] at hs
    simp at hs
  · rw [r.columnSlots_of_column h, List.mem_singleton] at hs
    subst hs
    obtain rfl := Option.some.inj he
    exact .raw text
  · rw [r.columnSlots_of_formula h hm] at hs
    obtain ⟨d, -, rfl⟩ := List.mem_map.1 hs
    rw [fieldSlot] at he
    cases hc : compileFormula m.text d r.measures r.mappings with
    | error e' => simp [hc, Slot.enter, Slot.vacant] at he
    | ok e' =>
      rw [hc] at he
      obtain rfl := Option.some.inj he
      -- the slot has no error, so it holds a compiled tree
      obtain ⟨n, -, hn⟩ := compileFormula_eq_ok_iff.1 hc
      exact (Scope.steady_of_compile hn).column _

/-- The levels are written as they are. -/
theorem renderAll_raw (quote : String → String) (o : Sql.Options) (texts : List String) :
    Sql.Expr.renderAll quote o (texts.map .raw) = .ok texts := by
  induction texts with
  | nil => rfl
  | cons text texts ih =>
    rw [List.map_cons, Sql.Expr.renderAll, Sql.Expr.render, ih]
    rfl

/-- So are they in the ordering, with the direction behind each. -/
theorem renderAll_order_raw (quote : String → String) (o : Sql.Options) (texts : List String) :
    Sql.Expr.renderAll quote o ((texts.map Sql.Expr.raw).map fun d => .order d .asc .last) =
      .ok (texts.map (· ++ " asc nulls last")) := by
  induction texts with
  | nil => rfl
  | cons text texts ih =>
    rw [List.map_cons, List.map_cons, Sql.Expr.renderAll, Sql.Expr.render, Sql.Expr.render, ih]
    simp [bind, Except.bind, pure, Except.pure, Sql.Direction.text, Sql.Nulls.text,
      String.append_assoc]

/-! ## The query -/

/-- How the union is named where the query reads from it: by its alias, or by its text, which has
the alias after it unless it is to stand bare. -/
def sourceText (union name : String) (o : Sql.Options) : String :=
  if o.inlines then "(" ++ union ++ ")" ++ (if o.isBare then "" else " as " ++ name) else name

/-- The binding of the union, in front of the query. -/
def bindingText (union name : String) (o : Sql.Options) : String :=
  if o.hidesWith then "" else "WITH " ++ name ++ " as (" ++ union ++ ") "

/-- Inlined on its own, the union stands in brackets with its name behind. -/
theorem sourceText_inline (union name : String) :
    sourceText union name [Sql.Options.inlineWith] = "(" ++ union ++ ") as " ++ name := by
  have hinline : Sql.Options.inlines [Sql.Options.inlineWith] = true := rfl
  have hbare : Sql.Options.isBare [Sql.Options.inlineWith] = false := rfl
  have hmark : ")" ++ " as " = ") as " := rfl
  rw [sourceText, hinline, hbare, ← hmark]
  simp only [if_true, Bool.false_eq_true, if_false, String.append_assoc]

/-- **The text of an assembled query.** The columns and the levels have one text each for all
options; these only decide where the union is written. -/
theorem exists_text {a : Assembler} {q : Sql.Query} (h : r.assemble a = .ok q)
    (quote : String → String) :
    ∃ columns levels, dimensionTexts r.mappings r.dimensions = .ok levels ∧ levels ≠ [] ∧ ∀ o,
      Sql.Expr.renderAll quote o q.columns = .ok columns ∧
      q.render quote o = .ok (bindingText (unionText r.tables) (quote a.unionName) o ++
        Sql.selectText columns (sourceText (unionText r.tables) (quote a.unionName) o) levels
          (levels.map (· ++ " asc nulls last"))) := by
  obtain ⟨hdims, htables, levels, es, hlevels, hes, hq⟩ := assembleFrom_eq_ok_iff.1 h
  have hunion := fun o => render_unionQuery quote o (ne_nil_of_checkTables htables)
  -- a path has at least one dimension, and so the query has a column
  have hne : levels ≠ [] := by
    rintro rfl
    have hnil : r.dimensions = [] :=
      List.forall₂_nil_right_iff.1 (dimensionTexts_eq_ok_iff.1 hlevels)
    rw [hnil] at hdims
    simp [checkDimensions] at hdims
  -- the columns are the levels and then what the slots hold
  have hsteady : ∀ e ∈ levels.map Sql.Expr.raw ++ es, e.Steady := by
    intro e he
    rcases List.mem_append.1 he with he | he
    · obtain ⟨text, -, rfl⟩ := List.mem_map.1 he
      exact .raw text
    · rw [← (fields_eq_ok_iff.1 hes).2, r.runJobs_layout] at he
      obtain ⟨s, hs, hse⟩ := List.mem_filterMap.1 he
      obtain ⟨p, -, hs⟩ := List.mem_flatMap.1 hs
      exact steady_of_mem_columnSlots hs hse
  obtain ⟨columns, hcolumns⟩ := Sql.Expr.Steady.renderAll quote hsteady
  refine ⟨columns, levels, hlevels, hne, fun o => ?_⟩
  -- the union is named where it is bound, and written out where it is inlined
  have hsource : (Sql.Expr.withRef (.mk a.unionName (unionQuery r.tables))).render quote o =
      .ok (sourceText (unionText r.tables) (quote a.unionName) o) := by
    rw [Sql.Expr.render, if_neg a.unionName_ne_empty, hunion, sourceText]
    split <;> rfl
  have hcs : levels.map Sql.Expr.raw ++ es ≠ [] := by simp [hne]
  subst hq
  refine ⟨hcolumns o, ?_⟩
  cases ho : o.hidesWith with
  | true =>
    rw [Sql.Query.render_select_hidden (.inl ho) hcs (hcolumns o) hsource
      (renderAll_raw quote o levels) (renderAll_order_raw quote o levels), bindingText, if_pos ho,
      String.empty_append]
  | false =>
    -- the union is the only binding, and has none of its own
    have hbinding : Sql.With.renderAll quote (o ++ [Sql.Options.skipWith])
        [.mk a.unionName (unionQuery r.tables)] =
          .ok [quote a.unionName ++ " as (" ++ unionText r.tables ++ ")"] := by
      rw [Sql.With.renderAll, Sql.With.render, hunion]
      rfl
    rw [Sql.Query.render_select_shown ho (List.cons_ne_nil _ _) hbinding hcs (hcolumns o) hsource
      (renderAll_raw quote o levels) (renderAll_order_raw quote o levels), bindingText, ho]
    simp [String.append_assoc]

/-- **An assembled query can be written**, in every dialect and with every option. -/
theorem renders_of_assemble {a : Assembler} {q : Sql.Query} (h : r.assemble a = .ok q) :
    q.Renders := by
  intro quote o
  obtain ⟨columns, levels, -, -, htext⟩ := exists_text h quote
  exact ⟨_, (htext o).2⟩

/-- **Inlined or bound, the query is the same.** In each dialect both texts exist, and they are one
text around the place that the query reads from: there stands the union under its name, or the name
alone with the union bound to it in front. -/
theorem toSql_inline_eq {a : Assembler} {q : Sql.Query} (h : r.assemble a = .ok q)
    (d : Sql.Dialect) :
    ∃ columns levels, dimensionTexts r.mappings r.dimensions = .ok levels ∧
      (∀ o, Sql.Expr.renderAll d.quoteIdent o q.columns = .ok columns) ∧
      let name := d.quoteIdent (if a.unionAlias = "" then "facts" else a.unionAlias)
      let union := " UNION ALL ".intercalate (r.tables.map ("SELECT * FROM " ++ ·))
      let around := fun source => "SELECT " ++ ", ".intercalate columns ++ " FROM " ++ source
        ++ (" GROUP BY " ++ ", ".intercalate levels)
        ++ (" ORDER BY " ++ ", ".intercalate (levels.map (· ++ " asc nulls last")))
      q.toSql d [Sql.Options.inlineWith] = .ok (around ("(" ++ union ++ ") as " ++ name)) ∧
      q.toSql d [] = .ok ("WITH " ++ name ++ " as (" ++ union ++ ") " ++ around name) := by
  obtain ⟨columns, levels, hlevels, hne, htext⟩ := exists_text h d.quoteIdent
  have hlevelsEmpty : levels.isEmpty = false := by simpa using hne
  have horderEmpty : (levels.map (· ++ " asc nulls last")).isEmpty = false := by simpa using hne
  refine ⟨columns, levels, hlevels, fun o => (htext o).1, ?_, ?_⟩
  · refine (htext [Sql.Options.inlineWith]).2.trans ?_
    rw [Sql.selectText, hlevelsEmpty, horderEmpty, sourceText_inline]
    exact congrArg Except.ok String.empty_append
  · refine (htext []).2.trans ?_
    rw [Sql.selectText, hlevelsEmpty, horderEmpty]
    rfl

/-- Two tables under an alias with a backtick in it, read for a formula at one level. The backtick
is escaped in both texts, and all three times that the alias is written. -/
theorem toSql_inline_eq_ratio :
    let r : ReportSpec :=
      { dimensions := [⟨"day", true⟩]
        columns := ["ratio"]
        tables := ["sales", "returns"]
        measures := .ofList [("a", "")]
        mappings := .ofList [("day", .column "d"), ("ratio", .formula "(a)/2")] }
    let a : Assembler := ⟨0, "all\x60s"⟩
    let facts : Sql.With := .mk "all\x60s" (.unionAll (tableQuery "sales") [tableQuery "returns"])
    let q : Sql.Query :=
      .select [facts] [.raw "d", .column (.binary "/" (.aggregate "sum" (.raw "a")) (.num "2"))
        "kpi_0~d"] (some (.withRef facts)) [.raw "d"] [.order (.raw "d") .asc .last]
    let union := "SELECT * FROM sales UNION ALL SELECT * FROM returns"
    r.assemble a = .ok q ∧ ∃ before after,
      q.toSql (some .clickhouse) [Sql.Options.inlineWith] =
        .ok (before ++ ("(" ++ union ++ ") as \x60all\\\x60s\x60") ++ after) ∧
      q.toSql (some .clickhouse) [] =
        .ok ("WITH \x60all\\\x60s\x60 as (" ++ union ++ ") "
          ++ (before ++ "\x60all\\\x60s\x60" ++ after)) := by
  intro r a facts q union
  have htree : Formula.GrammarTree .expr
      (.mulDiv .start "/" (.agg .start "a") (.number .start "2")) :=
    .ofTerm (.mulDiv _ (by decide) (.ofFactor (.agg _ _)) (.number _ _))
  have hcompile : ∀ d : Dimension, compileFormula "(a)/2" d r.measures r.mappings = _ := fun d =>
    compileFormula_eq_compile d _ _ (by decide +kernel) htree (by decide +kernel)
  have hmapping : r.mappings.get? "ratio" = some (.formula "(a)/2") := rfl
  have hratio := r.columnSlots_of_formula hmapping (by simp) 0
  have hq : r.assemble a = .ok q := by
    rw [assemble, runJobs_layout]
    simp only [r, List.zipIdx_cons, List.flatMap_cons, hratio]
    simp only [r, List.map_cons, List.map_nil, fieldSlot, Mapping.text, hcompile]
    rfl
  -- one text around both ways to name the union
  obtain ⟨columns, levels, -, -, hinline, hbound⟩ := toSql_inline_eq hq .clickhouse
  refine ⟨hq, "SELECT " ++ ", ".intercalate columns ++ " FROM ",
    " GROUP BY " ++ ", ".intercalate levels
      ++ (" ORDER BY " ++ ", ".intercalate (levels.map (· ++ " asc nulls last"))), ?_, ?_⟩
  · rw [hinline]
    simp only [a, String.append_assoc]
    rfl
  · rw [hbound]
    simp only [a, String.append_assoc]
    rfl

/-! ## The length of the text

Nothing is known of the names in a query: any of them can be empty. So what is counted are the words
around them. -/

/-- Joining texts leaves out none of the first one. -/
theorem size_le_intercalate (sep s : String) (l : List String) :
    s.utf8ByteSize ≤ (sep.intercalate (s :: l)).utf8ByteSize := by
  cases l with
  | nil => exact Nat.le_of_eq (congrArg _ String.intercalate_singleton.symm)
  | cons t l =>
    rw [String.intercalate_cons_cons, String.utf8ByteSize_append, String.utf8ByteSize_append]
    omega

/-- The union names a table at least, after the words that it is read with. -/
theorem size_unionText {tables : List String} (h : tables ≠ []) :
    14 ≤ (unionText tables).utf8ByteSize := by
  obtain ⟨t, ts, rfl⟩ := List.exists_cons_of_ne_nil h
  have hfirst := size_le_intercalate " UNION ALL " ("SELECT * FROM " ++ t)
    (ts.map ("SELECT * FROM " ++ ·))
  rw [String.utf8ByteSize_append] at hfirst
  have hwords : "SELECT * FROM ".utf8ByteSize = 14 := by decide
  rw [unionText, List.map_cons]
  omega

/-- A select that groups and sorts by the same levels, apart from its source. The five words in it
that no name can take away make up 48 bytes. -/
theorem size_selectText (columns : List String) (source : String) {levels : List String}
    (h : levels ≠ []) :
    48 + source.utf8ByteSize ≤ (Sql.selectText columns source levels
      (levels.map (· ++ " asc nulls last"))).utf8ByteSize := by
  obtain ⟨level, rest, rfl⟩ := List.exists_cons_of_ne_nil h
  have horder := size_le_intercalate ", " (level ++ " asc nulls last")
    (rest.map (· ++ " asc nulls last"))
  rw [String.utf8ByteSize_append] at horder
  simp only [Sql.selectText, List.map_cons, List.isEmpty_cons, Bool.false_eq_true, if_false,
    String.utf8ByteSize_append]
  have hselect : "SELECT ".utf8ByteSize = 7 := by decide
  have hfrom : " FROM ".utf8ByteSize = 6 := by decide
  have hgroup : " GROUP BY ".utf8ByteSize = 10 := by decide
  have horderBy : " ORDER BY ".utf8ByteSize = 10 := by decide
  have hlast : " asc nulls last".utf8ByteSize = 15 := by decide
  omega

/-- **Reports are long.** The text of an assembled query has more than 64 bytes wherever the union
is written: bound in front of it, or inlined under its name. With the union left out the text could
be shorter. -/
theorem size_of_render {a : Assembler} {q : Sql.Query} (h : r.assemble a = .ok q)
    {quote : String → String} {o : Sql.Options} (hunion : o.hidesWith = o.inlines)
    (hnamed : o.isBare = false) {text : String} (htext : q.render quote o = .ok text) :
    64 < text.utf8ByteSize := by
  obtain ⟨columns, levels, -, hne, hrender⟩ := exists_text h quote
  obtain ⟨-, htables, -⟩ := assembleFrom_eq_ok_iff.1 h
  have hsize := size_unionText (ne_nil_of_checkTables htables)
  obtain rfl := Except.ok.inj ((hrender o).2.symm.trans htext)
  rw [String.utf8ByteSize_append]
  have hselect := size_selectText columns
    (sourceText (unionText r.tables) (quote a.unionName) o) hne
  cases ho : o.inlines with
  -- the union is inlined, in brackets and with its name behind
  | true =>
    have hopen : "(".utf8ByteSize = 1 := by decide
    have hclose : ")".utf8ByteSize = 1 := by decide
    have has : " as ".utf8ByteSize = 4 := by decide
    have hsource : 20 ≤ (sourceText (unionText r.tables) (quote a.unionName) o).utf8ByteSize := by
      simp only [sourceText, ho, hnamed, if_true, Bool.false_eq_true, if_false,
        String.utf8ByteSize_append]
      omega
    omega
  -- the union is bound in front, and the name alone stands in its place
  | false =>
    have hwith : "WITH ".utf8ByteSize = 5 := by decide
    have has : " as (".utf8ByteSize = 5 := by decide
    have hclose : ") ".utf8ByteSize = 2 := by decide
    have hbinding : 26 ≤ (bindingText (unionText r.tables) (quote a.unionName) o).utf8ByteSize := by
      simp only [bindingText, hunion.trans ho, Bool.false_eq_true, if_false,
        String.utf8ByteSize_append]
      omega
    omega

end ReportSpec

end KpiReport
