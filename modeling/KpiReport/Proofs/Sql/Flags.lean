import KpiReport.Sql.Render

/-!
# Options are flags

Options travel down a tree as a list of codes. An output column and the bindings of a query make the
list longer, an inlined reference makes it shorter, and so two lists that say the same at the root
are soon different lists. What they say stays the same.

* **`Options.Alike`** — two lists give the same answers: whether bindings are hidden, whether
  references are inlined, and whether inlined references are bare.
* **`Options.Alike.append`, `Options.Alike.dropBareRef`** — what is done to a list on the way down
  keeps this.
* **`Query.render_eq_of_alike`** — so a query has one text, or one error, under both.
* **`Expr.render_flags`** — the same said of the codes that stand in a list. In which order, how
  often and along with which others they stand there does not matter, and hiding the bindings adds
  nothing to inlining the references.
-/

namespace KpiReport.Sql

/-! ## What a list of options says -/

namespace Options

/-- The lists give the same answers. These three questions are the only ones that rendering asks of
a list of options. -/
structure Alike (o o' : Options) : Prop where
  hidesWith : o.hidesWith = o'.hidesWith
  inlines : o.inlines = o'.inlines
  isBare : o.isBare = o'.isBare

section Codes

variable (o : Options) (i : Int)

theorem inlines_iff : o.inlines = true ↔ inlineWith ∈ o := by
  simp [inlines]

theorem isBare_iff : o.isBare = true ↔ bareRef ∈ o := by
  simp [isBare]

/-- Bindings are hidden if one of two codes is in the list: the one that asks for it, and the one
that inlines references. -/
theorem hidesWith_iff : o.hidesWith = true ↔ skipWith ∈ o ∨ inlineWith ∈ o := by
  simp only [hidesWith, List.any_eq_true, Bool.or_eq_true, beq_iff_eq]
  -- one question, two codes that answer it with yes
  constructor
  · rintro ⟨i, hi, rfl | rfl⟩
    · exact .inl hi
    · exact .inr hi
  · rintro (h | h)
    · exact ⟨_, h, .inl rfl⟩
    · exact ⟨_, h, .inr rfl⟩

/-- What one more code at the end of a list adds to the first of the three answers; the two lemmas
below are about the others. Output columns and the bindings of a query put codes there. -/
theorem hidesWith_concat :
    hidesWith (o ++ [i]) = (o.hidesWith || (i == skipWith || i == inlineWith)) := by
  simp [hidesWith]

theorem inlines_concat : inlines (o ++ [i]) = (o.inlines || i == inlineWith) := by
  simp [inlines]

theorem isBare_concat : isBare (o ++ [i]) = (o.isBare || i == bareRef) := by
  simp [isBare]

/-- An inlined reference drops one code from the list, every time that it stands there, and no
other. So the answers that do not ask for it stay the same, and the third one is no. -/
theorem mem_dropBareRef {i : Int} (hi : i ≠ bareRef) : i ∈ o.filter (· != bareRef) ↔ i ∈ o := by
  simp [hi]

theorem hidesWith_dropBareRef : hidesWith (o.filter (· != bareRef)) = o.hidesWith := by
  rw [Bool.eq_iff_iff, hidesWith_iff, hidesWith_iff, mem_dropBareRef o (by decide),
    mem_dropBareRef o (by decide)]

theorem inlines_dropBareRef : inlines (o.filter (· != bareRef)) = o.inlines := by
  rw [Bool.eq_iff_iff, inlines_iff, inlines_iff, mem_dropBareRef o (by decide)]

theorem isBare_dropBareRef : isBare (o.filter (· != bareRef)) = false := by
  simp [isBare]

end Codes

namespace Alike

variable {o o' : Options}

/-- A code that is added to both lists says the same in both, whatever else stands in them. -/
theorem append (h : o.Alike o') (i : Int) : Alike (o ++ [i]) (o' ++ [i]) where
  hidesWith := by rw [hidesWith_concat, hidesWith_concat, h.hidesWith]
  inlines := by rw [inlines_concat, inlines_concat, h.inlines]
  isBare := by rw [isBare_concat, isBare_concat, h.isBare]

/-- Below an inlined reference neither list asks for bare references, and nothing else is lost. -/
theorem dropBareRef (h : o.Alike o') :
    Alike (o.filter (· != bareRef)) (o'.filter (· != bareRef)) where
  hidesWith := by rw [hidesWith_dropBareRef, hidesWith_dropBareRef, h.hidesWith]
  inlines := by rw [inlines_dropBareRef, inlines_dropBareRef, h.inlines]
  isBare := by rw [isBare_dropBareRef, isBare_dropBareRef]

end Alike

end Options

/-! ## The text under options that say the same -/

mutual

/-- An expression has one text, or one error, under options that say the same. The five statements
of this section are proved together, along the trees of queries, expressions and bindings. -/
theorem Expr.render_eq_of_alike (quote : String → String) {o o' : Options} (h : o.Alike o')
    (e : Expr) : e.render quote o = e.render quote o' := by
  match e with
  | .raw text => rw [Expr.render, Expr.render]
  | .num text => rw [Expr.render, Expr.render]
  | .binary op l r =>
    rw [Expr.render, Expr.render, l.render_eq_of_alike quote h, r.render_eq_of_alike quote h]
  | .aggregate fn arg => rw [Expr.render, Expr.render, arg.render_eq_of_alike quote h]
  | .window fn [] => rw [Expr.render, Expr.render, fn.render_eq_of_alike quote h]
  | .window fn (p :: ps) =>
    rw [Expr.render, Expr.render, fn.render_eq_of_alike quote h, p.render_eq_of_alike quote h,
      Expr.renderAll_eq_of_alike quote h ps]
  | .column e name =>
    -- the expression of a column is written with one more code in both lists
    rw [Expr.render, Expr.render, e.render_eq_of_alike quote (h.append _)]
  | .order e direction nulls => rw [Expr.render, Expr.render, e.render_eq_of_alike quote h]
  | .binding w => rw [Expr.render, Expr.render, w.render_eq_of_alike quote h]
  | .withRef (.mk name q) =>
    -- the query of an inlined reference is written without the code for bare ones
    rw [Expr.render, Expr.render, q.render_eq_of_alike quote h.dropBareRef, h.inlines, h.isBare]
  | .query q => rw [Expr.render, Expr.render, q.render_eq_of_alike quote h]

/-- The same for the expressions of a list, in their order. -/
theorem Expr.renderAll_eq_of_alike (quote : String → String) {o o' : Options} (h : o.Alike o')
    (es : List Expr) : Expr.renderAll quote o es = Expr.renderAll quote o' es := by
  match es with
  | [] => rw [Expr.renderAll, Expr.renderAll]
  | e :: es =>
    rw [Expr.renderAll, Expr.renderAll, e.render_eq_of_alike quote h,
      Expr.renderAll_eq_of_alike quote h es]

/-- The same for what a query reads from, if anything. -/
theorem Expr.renderSource_eq_of_alike (quote : String → String) {o o' : Options}
    (h : o.Alike o') (e : Option Expr) :
    Expr.renderSource quote o e = Expr.renderSource quote o' e := by
  match e with
  | none => rw [Expr.renderSource, Expr.renderSource]
  | some e => rw [Expr.renderSource, Expr.renderSource, e.render_eq_of_alike quote h]

/-- The same for a binding, which is written with the options of its query. -/
theorem With.render_eq_of_alike (quote : String → String) {o o' : Options} (h : o.Alike o')
    (w : With) : w.render quote o = w.render quote o' := by
  match w with
  | .mk name q => rw [With.render, With.render, q.render_eq_of_alike quote h]

/-- The same for all bindings of a query. -/
theorem With.renderAll_eq_of_alike (quote : String → String) {o o' : Options} (h : o.Alike o')
    (ws : List With) : With.renderAll quote o ws = With.renderAll quote o' ws := by
  match ws with
  | [] => rw [With.renderAll, With.renderAll]
  | w :: ws =>
    rw [With.renderAll, With.renderAll, w.render_eq_of_alike quote h,
      With.renderAll_eq_of_alike quote h ws]

/-- **A query has one text, or one error, under options that say the same.** -/
theorem Query.render_eq_of_alike (quote : String → String) {o o' : Options} (h : o.Alike o')
    (q : Query) : q.render quote o = q.render quote o' := by
  match q with
  | .select withs columns source groupBy orderBy =>
    -- bindings are written with one more code, and are left out under both lists or under none
    rw [Query.render, Query.render, h.hidesWith,
      With.renderAll_eq_of_alike quote (h.append _) withs,
      Expr.renderAll_eq_of_alike quote h columns, Expr.renderSource_eq_of_alike quote h source,
      Expr.renderAll_eq_of_alike quote h groupBy, Expr.renderAll_eq_of_alike quote h orderBy]
  | .unionAll q qs =>
    rw [Query.render, Query.render, q.render_eq_of_alike quote h,
      Query.renderAll_eq_of_alike quote h qs]

/-- The same for the members of a union. -/
theorem Query.renderAll_eq_of_alike (quote : String → String) {o o' : Options} (h : o.Alike o')
    (qs : List Query) : Query.renderAll quote o qs = Query.renderAll quote o' qs := by
  match qs with
  | [] => rw [Query.renderAll, Query.renderAll]
  | q :: qs =>
    rw [Query.renderAll, Query.renderAll, q.render_eq_of_alike quote h,
      Query.renderAll_eq_of_alike quote h qs]

end

/-! ## The codes that matter -/

namespace Options

/-- Lists with the same of the three codes that mean something say the same. Codes that mean
nothing, repetitions and the order are not looked at. -/
theorem alike_of_mem_iff {o o' : Options} (hskip : skipWith ∈ o ↔ skipWith ∈ o')
    (hinline : inlineWith ∈ o ↔ inlineWith ∈ o') (hbare : bareRef ∈ o ↔ bareRef ∈ o') :
    o.Alike o' where
  hidesWith := by rw [Bool.eq_iff_iff, hidesWith_iff, hidesWith_iff, hskip, hinline]
  inlines := by rw [Bool.eq_iff_iff, inlines_iff, inlines_iff, hinline]
  isBare := by rw [Bool.eq_iff_iff, isBare_iff, isBare_iff, hbare]

/-- Bindings are hidden where references are inlined, whether or not that is asked for too. -/
theorem alike_of_inlines {o o' : Options} (hinline : inlineWith ∈ o)
    (hadded : ∀ i, i ∈ o' ↔ i = skipWith ∨ i ∈ o) : o'.Alike o := by
  have hinline' : inlineWith ∈ o' := (hadded _).2 (.inr hinline)
  have hbare : bareRef ∈ o' ↔ bareRef ∈ o := by
    rw [hadded]
    exact or_iff_right (by decide)
  -- bindings are hidden and references inlined under both; bare is asked for by both or none
  refine ⟨?_, ?_, ?_⟩
  · rw [o.hidesWith_iff.2 (.inr hinline), o'.hidesWith_iff.2 (.inr hinline')]
  · rw [o.inlines_iff.2 hinline, o'.inlines_iff.2 hinline']
  · rw [Bool.eq_iff_iff, isBare_iff, isBare_iff, hbare]

end Options

/-- **Options act as a set of three flags.** Two lists that agree on the three codes that mean
something lead to the same text or to the same error, however identifiers are quoted. In a list that
inlines references, hiding the bindings changes nothing, wherever and however often it is added. -/
theorem Expr.render_flags (e : Expr) (quote : String → String) (o o' : Options) :
    ((Options.skipWith ∈ o ↔ Options.skipWith ∈ o') →
      (Options.inlineWith ∈ o ↔ Options.inlineWith ∈ o') →
      (Options.bareRef ∈ o ↔ Options.bareRef ∈ o') →
        e.render quote o = e.render quote o') ∧
    (Options.inlineWith ∈ o → (∀ i, i ∈ o' ↔ i = Options.skipWith ∨ i ∈ o) →
      e.render quote o' = e.render quote o) := by
  constructor
  · intro hskip hinline hbare
    exact e.render_eq_of_alike quote (Options.alike_of_mem_iff hskip hinline hbare)
  · intro hinline hadded
    exact e.render_eq_of_alike quote (Options.alike_of_inlines hinline hadded)

/-- A select that reads from a select bound in front of it, under codes in another order, and with
its bindings hidden a second time. -/
theorem Expr.render_flags_nested :
    let inner : With := .mk "t" (.select [] [.num "1"] none [] [])
    let outer : With := .mk "u" (.select [inner] [.raw "*"] (some (.withRef inner)) [] [])
    let e : Expr := .query
      (.select [outer] [.column (.withRef outer) "c"] (some (.withRef outer)) [] [])
    let quote := Dialect.postgres.quoteIdent
    e.render quote [5, 9, 2, 5] = e.render quote [2, 5] ∧
      e.render quote [2, 1] = e.render quote [2] ∧
      e.render quote [2] = .ok
        "SELECT (SELECT * FROM (SELECT 1) as \"t\") as \"c\" FROM (SELECT * FROM (SELECT 1) as \"t\") as \"u\"" := by
  intro inner outer e quote
  refine ⟨?_, ?_, ?_⟩
  · exact (e.render_flags quote [5, 9, 2, 5] [2, 5]).1 (by decide) (by decide) (by decide)
  · refine (e.render_flags quote [2] [2, 1]).2 (by decide) ?_
    intro i
    simp [Options.skipWith, or_comm]
  · rfl

end KpiReport.Sql
