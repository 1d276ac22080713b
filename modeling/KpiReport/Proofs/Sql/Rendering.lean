import KpiReport.Sql.Render

/-!
# What can be written, and what options change in it

Writing an expression fails for a number without digits, a query without columns, and a reference
to a binding without a name. Options decide whether the bindings of a query are written and what
stands in the place of a reference to one.

An expression without references has one text for each way of quoting, whichever options are set:
it is *steady*. The lemmas below go through the kinds of expression that have no references of
their own, and `Expr.Steady.renderAll` through lists of them. A query is written as its clauses
(`selectText`), with its bindings in front of them where these are shown
(`Query.render_select_shown`) and without them where they are hidden
(`Query.render_select_hidden`).
-/

namespace KpiReport.Sql

/-- The query has a text, however identifiers are quoted and whichever options are set. -/
def Query.Renders (q : Query) : Prop :=
  ∀ quote o, ∃ text, q.render quote o = .ok text

/-- The expression has one text for each way of quoting, whichever options are set. The text is
found before the options are known, so two renderings of one expression can be compared. -/
def Expr.Steady (e : Expr) : Prop :=
  ∀ quote, ∃ text, ∀ o, e.render quote o = .ok text

/-! ## Expressions -/

namespace Expr.Steady

theorem raw (text : String) : (Expr.raw text).Steady := by
  intro quote
  exact ⟨text, fun o => by rw [Expr.render]⟩

theorem num {text : String} (h : text ≠ "") : (Expr.num text).Steady := by
  intro quote
  exact ⟨text, fun o => by rw [Expr.render, if_neg h]⟩

theorem binary {l r : Expr} (hl : l.Steady) (hr : r.Steady) (op : String) :
    (Expr.binary op l r).Steady := by
  intro quote
  obtain ⟨lt, hlt⟩ := hl quote
  obtain ⟨rt, hrt⟩ := hr quote
  refine ⟨"(" ++ lt ++ " " ++ op ++ " " ++ rt ++ ")", fun o => ?_⟩
  rw [Expr.render, hlt, hrt]
  rfl

theorem aggregate {e : Expr} (h : e.Steady) (fn : String) : (Expr.aggregate fn e).Steady := by
  intro quote
  obtain ⟨text, htext⟩ := h quote
  refine ⟨fn ++ "(" ++ text ++ ")", fun o => ?_⟩
  rw [Expr.render, htext]
  rfl

/-- A list of steady expressions has the same texts under all options. By induction on the list, as
the texts are found one by one. -/
theorem renderAll (quote : String → String) {es : List Expr} (h : ∀ e ∈ es, e.Steady) :
    ∃ texts, ∀ o, Expr.renderAll quote o es = .ok texts := by
  induction es with
  | nil => exact ⟨[], fun o => by rw [Expr.renderAll]⟩
  | cons e es ih =>
    obtain ⟨text, htext⟩ := h e List.mem_cons_self quote
    obtain ⟨texts, htexts⟩ := ih fun e' he' => h e' (List.mem_cons_of_mem e he')
    refine ⟨text :: texts, fun o => ?_⟩
    rw [Expr.renderAll, htext, htexts]
    rfl

/-- A window is written behind its function, with the expressions to partition by if there are
any. -/
theorem window {fn : Expr} {ps : List Expr} (hfn : fn.Steady) (hps : ∀ p ∈ ps, p.Steady) :
    (Expr.window fn ps).Steady := by
  intro quote
  obtain ⟨text, htext⟩ := hfn quote
  -- without expressions to partition by the brackets are empty
  cases ps with
  | nil =>
    refine ⟨text ++ " over ()", fun o => ?_⟩
    rw [Expr.render, htext]
    rfl
  | cons p ps =>
    obtain ⟨pt, hpt⟩ := hps p List.mem_cons_self quote
    obtain ⟨texts, htexts⟩ := renderAll quote fun e he => hps e (List.mem_cons_of_mem p he)
    refine ⟨text ++ " over (partition by " ++ ", ".intercalate (pt :: texts) ++ ")", fun o => ?_⟩
    rw [Expr.render, htext, hpt, htexts]
    rfl

/-- An output column asks for references without aliases, which a steady expression has none of. -/
theorem column {e : Expr} (h : e.Steady) (name : String) : (Expr.column e name).Steady := by
  intro quote
  obtain ⟨text, htext⟩ := h quote
  refine ⟨if name = "" then text else text ++ " as " ++ quote name, fun o => ?_⟩
  rw [Expr.render, htext]
  rfl

end Expr.Steady

/-! ## Queries -/

/-- The text of a query without its bindings, from the texts of its columns, of what it reads from,
and of its grouping and ordering. -/
def selectText (columns : List String) (source : String) (groupBy orderBy : List String) : String :=
  "SELECT " ++ ", ".intercalate columns ++ " FROM " ++ source
    ++ (if groupBy.isEmpty then "" else " GROUP BY " ++ ", ".intercalate groupBy)
    ++ (if orderBy.isEmpty then "" else " ORDER BY " ++ ", ".intercalate orderBy)

section Select

variable {quote : String → String} {o : Options} {withs : List With}
  {columns groupBy orderBy : List Expr} {source : Expr} {cs gs os : List String} {src : String}

/-- A query whose bindings are hidden, or that has none, is written as its clauses. It has to have a
column. -/
theorem Query.render_select_hidden (ho : o.hidesWith = true ∨ withs = []) (hne : columns ≠ [])
    (hcs : Expr.renderAll quote o columns = .ok cs) (hsrc : source.render quote o = .ok src)
    (hgs : Expr.renderAll quote o groupBy = .ok gs)
    (hos : Expr.renderAll quote o orderBy = .ok os) :
    (Query.select withs columns (some source) groupBy orderBy).render quote o =
      .ok (selectText cs src gs os) := by
  -- nothing is written in front of the clauses
  have hhide : (o.hidesWith || withs.isEmpty) = true := by
    rcases ho with ho | rfl <;> simp [*]
  have hempty : columns.isEmpty = false := by simpa using hne
  rw [Query.render, hhide, hempty, hcs, Expr.renderSource, hsrc, hgs, hos]
  simp only [if_true, if_false, Bool.false_eq_true, bind, Except.bind, pure, Except.pure,
    String.empty_append, selectText, String.append_assoc]

/-- A query whose bindings are shown is written as these, and then as its clauses. The bindings are
written with their own bindings hidden. -/
theorem Query.render_select_shown {ws : List String} (ho : o.hidesWith = false) (hws : withs ≠ [])
    (hwiths : With.renderAll quote (o ++ [Options.skipWith]) withs = .ok ws) (hne : columns ≠ [])
    (hcs : Expr.renderAll quote o columns = .ok cs) (hsrc : source.render quote o = .ok src)
    (hgs : Expr.renderAll quote o groupBy = .ok gs)
    (hos : Expr.renderAll quote o orderBy = .ok os) :
    (Query.select withs columns (some source) groupBy orderBy).render quote o =
      .ok ("WITH " ++ ", ".intercalate ws ++ " " ++ selectText cs src gs os) := by
  -- the bindings are written in front of the clauses
  have hshow : (o.hidesWith || withs.isEmpty) = false := by simp [ho, hws]
  have hempty : columns.isEmpty = false := by simpa using hne
  rw [Query.render, hshow, hempty, hwiths, hcs, Expr.renderSource, hsrc, hgs, hos]
  simp only [if_false, Bool.false_eq_true, bind, Except.bind, pure, Except.pure, selectText,
    String.append_assoc]

end Select

end KpiReport.Sql
