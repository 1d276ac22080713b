import KpiReport.Proofs.Canonical

/-!
# The text of a compiled formula decides its expression

Every operation is written in brackets and every aggregate as a call, so the SQL text of a formula
can be read in one way only. What is left of the formula in it is its *outline*: brackets and
positions are gone, multiplication has one spelling, and each reference has become an aggregation
and a raw field.

* **`Scope.expr_outline`** — a formula is compiled to the expression of its outline.
* **`Outline.render_expr`** — that expression is written as the text of the outline, in every
  dialect and with every option.
* **`Outline.text_append_inj`** — the text of an outline, with more text after it, decides the
  outline and where it ends. A number ends before a character that does not continue it, a
  function name before its bracket, a raw field before the bracket that closes the call. The
  partition is the same text in all windows, so nothing has to be known about it.
* **`toSql_inj`** — so two formulas have the same text only if they have the same expression, and
  that only if they have the same outline.
-/

namespace KpiReport

open Formula (Breaks GrammarTree IsIdentifier IsNumeral Level Node Tier namesOf)

/-! ## Outlines -/

/-- What is left of a formula in its SQL text: no brackets, no positions, and for each reference
what it stands for. -/
inductive Outline where
  | number (text : String)
  | operation (tier : Tier) (op : String) (left right : Outline)
  | reference (kind : Aggregation) (field : String)
  | hole (what : Formula.Hole)
deriving DecidableEq, Repr

/-- The outline of a tree: brackets are dropped, multiplication is spelled `*`, and a reference is
replaced by the aggregation of its measure and the raw field behind it. -/
def Formula.Node.outline (ms : Measures) (m : Mappings) : Node → Outline
  | number _ text => .number text
  | addSub _ op l r => .operation .sum op (l.outline ms m) (r.outline ms m)
  | mulDiv _ op l r =>
    .operation .product (Formula.respellSign op) (l.outline ms m) (r.outline ms m)
  | paren _ inner => inner.outline ms m
  | agg _ name => .reference (ms.aggregation name) (m.rawField name)
  | hole what => .hole what

/-- The operators of a tier in SQL. -/
def Formula.Tier.operators : Tier → List String
  | .sum => ["+", "-"]
  | .product => ["*", "/"]

namespace Outline

/-- The numbers, operators and raw fields of an outline are spelled as such. -/
def Spelled : Outline → Prop
  | number text => IsNumeral text.toList
  | operation t op l r => op ∈ t.operators ∧ l.Spelled ∧ r.Spelled
  | reference _ field => IsIdentifier field.toList
  | hole _ => False

/-- The expression of an outline. References are windows over the partition if there is one, and
plain aggregates at the terminal level. A hole has no expression. -/
def expr (partition : Option String) : Outline → Sql.Expr
  | number text => .num text
  | operation _ op l r => .binary op (l.expr partition) (r.expr partition)
  | reference kind field =>
    let base := Sql.Expr.aggregate kind.name (.raw field)
    match partition with
    | none => base
    | some p => .window (.aggregate kind.name base) [.raw p]
  | hole _ => .raw ""

/-- The text of an outline. -/
def text (partition : Option String) : Outline → String
  | number text => text
  | operation _ op l r => "(" ++ l.text partition ++ " " ++ op ++ " " ++ r.text partition ++ ")"
  | reference kind field =>
    let base := kind.name ++ "(" ++ field ++ ")"
    match partition with
    | none => base
    | some p => kind.name ++ "(" ++ base ++ ")" ++ " over (partition by " ++ p ++ ")"
  | hole _ => ""

end Outline

/-! ## Compiling to an outline -/

/-- The text that references are partitioned by; none at the terminal level. -/
def Scope.partition (s : Scope) : Option String :=
  if s.dimension.terminal then none else some (s.mappings.textOf s.dimension.name)

namespace Scope

variable {s : Scope}

theorem eq_of_sumOp {op o : String} (h : s.sumOp op = .ok o) : o = op := by
  unfold sumOp at h
  split at h
  · exact (Except.ok.inj h).symm
  · cases h

theorem eq_of_productOp {op o : String} (h : s.productOp op = .ok o) :
    o = Formula.respellSign op := by
  unfold productOp at h
  unfold Formula.respellSign
  split at h
  · next hop =>
    rw [if_pos hop]
    exact (Except.ok.inj h).symm
  · next hop =>
    rw [if_neg hop]
    split at h
    · exact (Except.ok.inj h).symm
    · cases h

/-- A tree is compiled to the expression of its outline. All that the outline leaves out, compiling
leaves out as well. -/
theorem expr_outline {n : Node} {e : Sql.Expr} (h : s.compile n = .ok e) :
    e = (n.outline s.measures s.mappings).expr s.partition := by
  induction n generalizing e with
  | number pos text => exact (compile_number_eq_ok_iff.1 h).2
  | addSub pos op l r ihl ihr =>
    obtain ⟨el, er, o, hl, hr, ho, rfl⟩ := compile_addSub_eq_ok_iff.1 h
    rw [eq_of_sumOp ho, ihl hl, ihr hr]
    rfl
  | mulDiv pos op l r ihl ihr =>
    obtain ⟨el, er, o, hl, hr, ho, rfl⟩ := compile_mulDiv_eq_ok_iff.1 h
    rw [eq_of_productOp ho, ihl hl, ihr hr]
    rfl
  | paren pos inner ih =>
    rw [compile_paren] at h
    exact ih h
  -- at the terminal level an aggregate, above it a window over the column of the level
  | agg pos name =>
    obtain ⟨-, ⟨hd, rfl⟩ | ⟨hd, md, hmd, rfl⟩⟩ := compile_agg_eq_ok_iff.1 h
    · rw [partition, hd]
      rfl
    · rw [partition, hd, Mappings.textOf, hmd]
      rfl
  | hole what => simp [compile] at h

end Scope

/-! ## Writing an outline -/

namespace Outline

variable {p : Option String} {o : Outline}

/-- The expression of an outline is written as its text, in all dialects and with all options. There
is no name in it to be quoted, and no query. -/
theorem render_expr (ho : o.Spelled) (quote : String → String) (opts : Sql.Options) :
    (o.expr p).render quote opts = .ok (o.text p) := by
  induction o with
  | number text =>
    have htext : text ≠ "" := by
      rintro rfl
      obtain ⟨c, r, hcr, -⟩ := IsNumeral.exists_cons ho
      exact absurd hcr (by simp)
    rw [expr, Sql.Expr.render, if_neg htext, Outline.text]
  | operation t op l r ihl ihr =>
    rw [expr, Sql.Expr.render, ihl ho.2.1, ihr ho.2.2]
    rfl
  | reference kind field =>
    cases p with
    | none => rfl
    | some p => rfl
  | hole what => exact ho.elim

/-! ## Reading it back -/

/-- Two words of one class of characters, each followed by the same character outside of it, are
the same word. -/
theorem append_cons_inj {q : Char → Bool} {as bs xs ys : List Char} {c : Char}
    (ha : ∀ x ∈ as, q x = true) (hb : ∀ x ∈ bs, q x = true) (hc : q c = false)
    (h : as ++ c :: xs = bs ++ c :: ys) : as = bs ∧ xs = ys := by
  have hstop : ∀ zs : List Char, ∀ x ∈ (c :: zs).head?, q x = false := by
    intro zs x hx
    obtain rfl := Option.some.inj hx
    exact hc
  -- each word is what can be taken of its class from the start of the text
  obtain ⟨hta, hda⟩ := Formula.takeWhile_append_of_stop ha (hstop xs)
  obtain ⟨htb, hdb⟩ := Formula.takeWhile_append_of_stop hb (hstop ys)
  rw [h] at hta hda
  exact ⟨hta.symm.trans htb, (List.cons.inj (hda.symm.trans hdb)).2⟩

theorem isIdentChar_of_mem_name {kind : Aggregation} {c : Char} (hc : c ∈ kind.name.toList) :
    Formula.isIdentChar c = true := by
  have hall : kind.name.toList.all Formula.isIdentChar = true := by cases kind <;> decide
  exact List.all_eq_true.1 hall c hc

theorem isIdentChar_of_mem {cs : List Char} (h : IsIdentifier cs) {c : Char} (hc : c ∈ cs) :
    Formula.isIdentChar c = true := by
  obtain ⟨a, r, rfl, ha, hr⟩ := h
  rcases List.mem_cons.1 hc with rfl | hc
  · exact Formula.isIdentChar_of_isIdentStart ha
  · exact hr c hc

theorem name_inj {kind kind' : Aggregation} (h : kind.name = kind'.name) : kind = kind' := by
  have hsome := Aggregation.byName?_name kind
  rw [h, Aggregation.byName?_name] at hsome
  exact (Option.some.inj hsome).symm

/-- The operators are single characters, and no two are the same. -/
theorem operator_append_inj {t t' : Tier} {op op' : String} {xs ys : List Char}
    (hop : op ∈ t.operators) (hop' : op' ∈ t'.operators)
    (h : op.toList ++ xs = op'.toList ++ ys) : t = t' ∧ op = op' ∧ xs = ys := by
  -- two operators in each tier, all four of them different
  cases t <;> cases t' <;>
    simp only [Formula.Tier.operators, List.mem_cons, List.not_mem_nil, or_false] at hop hop'
  all_goals
    rcases hop with rfl | rfl <;> rcases hop' with rfl | rfl
    all_goals simp_all

theorem toList_text_operation (t : Tier) (op : String) (l r : Outline) (rest : List Char) :
    ((operation t op l r).text p).toList ++ rest =
      '(' :: ((l.text p).toList ++ ' ' ::
        (op.toList ++ ' ' :: ((r.text p).toList ++ ')' :: rest))) := by
  simp [text]

theorem toList_text_reference (kind : Aggregation) (field : String) (rest : List Char) :
    ((reference kind field).text none).toList ++ rest =
      kind.name.toList ++ '(' :: (field.toList ++ ')' :: rest) := by
  simp [text]

/-- A window repeats the function name, and has the same text after each raw field. -/
theorem toList_text_window (kind : Aggregation) (field p : String) (rest : List Char) :
    ((reference kind field).text (some p)).toList ++ rest =
      kind.name.toList ++ '(' :: (kind.name.toList ++ '(' :: (field.toList ++ ')' ::
        ((")" ++ " over (partition by " ++ p ++ ")").toList ++ rest))) := by
  simp [text]

/-- What the text of an outline starts with tells what kind of outline it is. -/
inductive Starts : Outline → Char → Prop where
  | digit {text : String} {c : Char} (hc : Formula.isDigit c = true) : Starts (.number text) c
  | bracket {t : Tier} {op : String} {l r : Outline} : Starts (.operation t op l r) '('
  | letter {kind : Aggregation} {field : String} {c : Char} (hc : Formula.isIdentStart c = true) :
      Starts (.reference kind field) c

/-- An outline starts with a digit, a bracket or a letter. The text behind it has no say in that,
since no outline is written as the empty text. -/
theorem exists_starts (p : Option String) (ho : o.Spelled) (rest : List Char) :
    ∃ c r, (o.text p).toList ++ rest = c :: r ∧ Starts o c := by
  cases o with
  | number text =>
    obtain ⟨c, r, hcr, hc⟩ := IsNumeral.exists_cons ho
    exact ⟨c, r ++ rest, by rw [Outline.text, hcr, List.cons_append], .digit hc⟩
  | operation => exact ⟨_, _, toList_text_operation _ _ _ _ _, .bracket⟩
  | reference kind field =>
    -- the name of the function comes first, at whichever level
    obtain ⟨c, r, hcr, hc⟩ : ∃ c r, kind.name.toList = c :: r ∧ Formula.isIdentStart c = true := by
      cases kind <;> exact ⟨_, _, rfl, rfl⟩
    cases p with
    | none => exact ⟨c, _, by rw [toList_text_reference, hcr, List.cons_append], .letter hc⟩
    | some p => exact ⟨c, _, by rw [toList_text_window, hcr, List.cons_append], .letter hc⟩
  | hole => exact ho.elim

/-- Two outlines with one text start with the same character, so they are of the same kind. -/
theorem starts_of_append {o' : Outline} (ho : o.Spelled) (ho' : o'.Spelled)
    {rest rest' : List Char} (h : (o.text p).toList ++ rest = (o'.text p).toList ++ rest') :
    ∃ c, Starts o c ∧ Starts o' c := by
  obtain ⟨c, r, hcr, hc⟩ := exists_starts p ho rest
  obtain ⟨c', r', hcr', hc'⟩ := exists_starts p ho' rest'
  rw [hcr, hcr'] at h
  obtain rfl := (List.cons.inj h).1
  exact ⟨c, hc, hc'⟩

theorem not_isDigit_and_isIdentStart {c : Char} (hd : Formula.isDigit c = true)
    (hi : Formula.isIdentStart c = true) : False := by
  rw [Formula.isDigit_of_isIdentStart hi] at hd
  cases hd

/-- Two references with one text have the same function and the same raw field. The function name
ends before its bracket, and the field before the bracket behind it. -/
theorem reference_append_inj {kind kind' : Aggregation} {field field' : String}
    (hf : IsIdentifier field.toList) (hf' : IsIdentifier field'.toList) {rest rest' : List Char}
    (h : ((reference kind field).text p).toList ++ rest =
      ((reference kind' field').text p).toList ++ rest') :
    reference kind field = reference kind' field' ∧ rest = rest' := by
  have hname : ∀ (k : Aggregation), ∀ c ∈ k.name.toList, Formula.isIdentChar c = true :=
    fun k c => isIdentChar_of_mem_name
  have hfield : ∀ xs ys, field.toList ++ ')' :: xs = field'.toList ++ ')' :: ys →
      field = field' ∧ xs = ys := by
    intro xs ys hxy
    obtain ⟨hfields, hxs⟩ := append_cons_inj (fun c => isIdentChar_of_mem hf)
      (fun c => isIdentChar_of_mem hf') (by decide) hxy
    exact ⟨String.toList_inj.1 hfields, hxs⟩
  cases p with
  | none =>
    rw [toList_text_reference, toList_text_reference] at h
    -- a function, a bracket, and the field
    obtain ⟨hkind, h⟩ := append_cons_inj (hname kind) (hname kind') (by decide) h
    obtain ⟨rfl, hrest⟩ := hfield _ _ h
    rw [name_inj (String.toList_inj.1 hkind)]
    exact ⟨rfl, hrest⟩
  | some p =>
    rw [toList_text_window, toList_text_window] at h
    obtain ⟨hkind, h⟩ := append_cons_inj (hname kind) (hname kind') (by decide) h
    obtain rfl := name_inj (String.toList_inj.1 hkind)
    obtain ⟨-, h⟩ := append_cons_inj (hname kind) (hname kind) (by decide) h
    obtain ⟨rfl, htail⟩ := hfield _ _ h
    -- from here on the two windows are the same text, whatever the partition is
    exact ⟨rfl, List.append_cancel_left htail⟩

/-- A text that starts with a blank or a bracket does not continue a number. -/
theorem breaks_cons {c : Char} (hc : Formula.isIdentChar c = false) (hdot : c ≠ '.')
    (rest : List Char) : Breaks (c :: rest) := by
  intro x hx
  obtain rfl := Option.some.inj hx
  exact ⟨hc, hdot⟩

/-- Two numbers with the same text are the same: each ends where its digits do. -/
theorem number_append_inj {text text' : String} (hn : IsNumeral text.toList)
    (hn' : IsNumeral text'.toList) {rest rest' : List Char} (hrest : Breaks rest)
    (hrest' : Breaks rest') (h : text.toList ++ rest = text'.toList ++ rest') :
    text = text' ∧ rest = rest' := by
  have htexts : text.toList = text'.toList := by
    rw [← Formula.numeral_append hn hrest, h, Formula.numeral_append hn' hrest']
  rw [htexts] at h
  exact ⟨String.toList_inj.1 htexts, List.append_cancel_left h⟩

/-- **The text of an outline decides it**, and where it ends, if what follows does not continue a
number. By induction on the one outline: the other is of the same kind, and then part by part. -/
theorem text_append_inj {o o' : Outline} (ho : o.Spelled) (ho' : o'.Spelled)
    {rest rest' : List Char} (hrest : Breaks rest) (hrest' : Breaks rest')
    (h : (o.text p).toList ++ rest = (o'.text p).toList ++ rest') : o = o' ∧ rest = rest' := by
  induction o generalizing o' rest rest' with
  | number text =>
    obtain ⟨c, hc, hc'⟩ := starts_of_append ho ho' h
    obtain ⟨hd⟩ := hc
    -- the other outline starts with the same digit, so it is a number too
    cases hc' with
    | digit =>
      obtain ⟨rfl, hrests⟩ := number_append_inj ho ho' hrest hrest' h
      exact ⟨rfl, hrests⟩
    | bracket => exact absurd hd (by decide)
    | letter hi => exact (not_isDigit_and_isIdentStart hd hi).elim
  | operation t op l r ihl ihr =>
    obtain ⟨c, hc, hc'⟩ := starts_of_append ho ho' h
    obtain rfl : c = '(' := by cases hc; rfl
    cases hc' with
    | digit hd => exact absurd hd (by decide)
    | bracket =>
      rw [toList_text_operation, toList_text_operation] at h
      -- the left operand ends before a blank and the right one before the closing bracket
      have hblank : ∀ xs, Breaks (' ' :: xs) := breaks_cons (by decide) (by decide)
      have hclose : ∀ xs, Breaks (')' :: xs) := breaks_cons (by decide) (by decide)
      obtain ⟨rfl, hop⟩ := ihl ho.2.1 ho'.2.1 (hblank _) (hblank _) (List.cons.inj h).2
      obtain ⟨rfl, rfl, hright⟩ := operator_append_inj ho.1 ho'.1 (List.cons.inj hop).2
      obtain ⟨rfl, hend⟩ := ihr ho.2.2 ho'.2.2 (hclose _) (hclose _) (List.cons.inj hright).2
      exact ⟨rfl, (List.cons.inj hend).2⟩
    | letter hi => exact absurd hi (by decide)
  | reference kind field =>
    obtain ⟨c, hc, hc'⟩ := starts_of_append ho ho' h
    -- both start with a letter, so both are references
    obtain hi : Formula.isIdentStart c = true := by cases hc; assumption
    cases hc' with
    | digit hd => exact (not_isDigit_and_isIdentStart hd hi).elim
    | bracket => exact absurd hi (by decide)
    | letter => exact reference_append_inj ho ho' h
  | hole what => exact ho.elim

/-- With nothing behind it, the text decides the outline. -/
theorem text_inj {o o' : Outline} (ho : o.Spelled) (ho' : o'.Spelled) :
    o.text p = o'.text p ↔ o = o' := by
  have hend : Breaks [] := by simp [Breaks]
  constructor
  · intro h
    exact (text_append_inj ho ho' hend hend (congrArg (·.toList ++ []) h)).1
  · rintro rfl
    rfl

end Outline

/-! ## Formulas -/

theorem respellSign_mem_operators {op : String} (h : op ∈ Formula.productSigns) :
    Formula.respellSign op ∈ Tier.product.operators := by
  simp only [Formula.productSigns, List.mem_cons, List.not_mem_nil, or_false] at h
  rcases h with rfl | rfl | rfl <;> decide

/-- A name without a column is its own raw field. -/
theorem isIdentifier_rawField {m : Mappings} {name : String} (hname : IsIdentifier name.toList)
    (hcolumn : ∀ text, m.get? name = some (.column text) → IsIdentifier text.toList) :
    IsIdentifier (m.rawField name).toList := by
  unfold Mappings.rawField
  split
  · next text htext => exact hcolumn text htext
  · exact hname

/-- The outline of a tree is spelled as it should be if the columns of its names are. Numbers and
names come from the scanner; only a column text could be anything. -/
theorem Formula.GrammarTree.spelled_outline {l : Level} {n : Node} (hn : GrammarTree l n)
    (hlex : n.Lexical) (ms : Measures) {m : Mappings}
    (hcolumns : ∀ name ∈ n.names, ∀ text, m.get? name = some (.column text) →
      IsIdentifier text.toList) : (n.outline ms m).Spelled := by
  induction hn with
  | number => exact hlex
  | agg pos name => exact isIdentifier_rawField hlex (hcolumns name (List.mem_singleton_self name))
  | paren _ _ ih => exact ih hlex hcolumns
  | ofFactor _ ih => exact ih hlex hcolumns
  | ofTerm _ ih => exact ih hlex hcolumns
  | mulDiv _ hop _ _ ihl ihr =>
    exact ⟨respellSign_mem_operators hop,
      ihl hlex.1 fun name hname => hcolumns name (List.mem_append_left _ hname),
      ihr hlex.2 fun name hname => hcolumns name (List.mem_append_right _ hname)⟩
  | addSub _ hop _ _ ihl ihr =>
    exact ⟨hop,
      ihl hlex.1 fun name hname => hcolumns name (List.mem_append_left _ hname),
      ihr hlex.2 fun name hname => hcolumns name (List.mem_append_right _ hname)⟩

/-- A compiled formula, through its outline. -/
theorem compileFormula_outline {f : String} {d : Dimension} {ms : Measures} {m : Mappings}
    {e : Sql.Expr} (h : compileFormula f d ms m = .ok e)
    (hcolumns : ∀ name ∈ namesOf f, ∀ text, m.get? name = some (.column text) →
      IsIdentifier text.toList) :
    ∃ n, Formula.parse f = .ok n ∧ (n.outline ms m).Spelled ∧
      e = (n.outline ms m).expr (Scope.partition ⟨f, d, ms, m⟩) := by
  obtain ⟨n, hn, he⟩ := compileFormula_eq_ok_iff.1 h
  rw [← Formula.names_eq_namesOf hn] at hcolumns
  have hspelled :=
    (Formula.parse_sound hn).1.spelled_outline (Formula.lexical_of_parse hn) ms hcolumns
  exact ⟨n, hn, hspelled, Scope.expr_outline he⟩

/-- **The text of a formula decides its expression.** Two formulas compiled at one level, the
columns of whose names are identifiers, can both be written, in each dialect and with all options;
the texts are the same only if the expressions are, and these only if the trees have the same
outline. The text of the partition can be any. -/
theorem toSql_inj {f g : String} {d : Dimension} {ms : Measures} {m : Mappings} {e e' : Sql.Expr}
    (hf : compileFormula f d ms m = .ok e) (hg : compileFormula g d ms m = .ok e')
    (hfields : ∀ name ∈ namesOf f, ∀ text, m.get? name = some (.column text) →
      IsIdentifier text.toList)
    (hfields' : ∀ name ∈ namesOf g, ∀ text, m.get? name = some (.column text) →
      IsIdentifier text.toList) (dialect : Option Sql.Dialect) (opts : Sql.Options) :
    ∃ n n' text text', Formula.parse f = .ok n ∧ Formula.parse g = .ok n' ∧
      e.toSql dialect opts = .ok text ∧ e'.toSql dialect opts = .ok text' ∧
      (text = text' ↔ e = e') ∧ (e = e' ↔ n.outline ms m = n'.outline ms m) := by
  -- both are written as the texts of their outlines, over one partition
  obtain ⟨n, hn, hspelled, rfl⟩ := compileFormula_outline hf hfields
  obtain ⟨n', hn', hspelled', rfl⟩ := compileFormula_outline hg hfields'
  have hpartition : Scope.partition ⟨f, d, ms, m⟩ = Scope.partition ⟨g, d, ms, m⟩ := rfl
  rw [hpartition]
  generalize Scope.partition ⟨g, d, ms, m⟩ = p
  have htext := Outline.render_expr (p := p) hspelled (dialect.getD .postgres).quoteIdent opts
  have htext' := Outline.render_expr (p := p) hspelled' (dialect.getD .postgres).quoteIdent opts
  -- equal outlines have equal expressions, and equal expressions equal texts
  have hback : (n.outline ms m).expr p = (n'.outline ms m).expr p →
      n.outline ms m = n'.outline ms m := by
    intro h
    rw [h, htext'] at htext
    exact ((Outline.text_inj hspelled hspelled').1 (Except.ok.inj htext).symm)
  refine ⟨n, n', _, _, hn, hn', htext, htext', ?_, hback, fun h => by rw [h]⟩
  rw [Outline.text_inj hspelled hspelled']
  exact ⟨fun h => by rw [h], hback⟩

/-- Two groupings of the same words, above the terminal level, where the text of the partition looks
like the end of one window and the start of another. -/
theorem toSql_inj_grouping :
    let d : Dimension := ⟨"city", false⟩
    let ms : Measures := .ofList [("a", ""), ("b", "avg")]
    let m : Mappings :=
      .ofList [("city", .column "x) - sum(sum(a)) over (partition by x"), ("b", .column "raw_b")]
    ∃ e e', compileFormula "(a) - ((b) × 2)" d ms m = .ok e ∧
      compileFormula "((a) - (b)) × 2" d ms m = .ok e' ∧
      (∀ name ∈ namesOf "(a) - ((b) × 2)" ++ namesOf "((a) - (b)) × 2", ∀ text,
        m.get? name = some (.column text) → IsIdentifier text.toList) ∧
      ∃ text text', e.toSql none [] = .ok text ∧ e'.toSql none [] = .ok text' ∧
        text ≠ text' := by
  intro d ms m
  have hf := compileFormula_eq_compile (f := "(a) - ((b) × 2)")
    (n := .addSub .start "-" (.agg .start "a")
      (.paren .start (.mulDiv .start "×" (.agg .start "b") (.number .start "2"))))
    d ms m (by decide +kernel)
    (.addSub _ (by decide) (.ofTerm (.ofFactor (.agg _ _)))
      (.ofFactor (.paren _ (.ofTerm (.mulDiv _ (by decide) (.ofFactor (.agg _ _))
        (.number _ _))))))
    (by decide +kernel)
  have hg := compileFormula_eq_compile (f := "((a) - (b)) × 2")
    (n := .mulDiv .start "×"
      (.paren .start (.addSub .start "-" (.agg .start "a") (.agg .start "b")))
      (.number .start "2"))
    d ms m (by decide +kernel)
    (.ofTerm (.mulDiv _ (by decide) (.ofFactor (.paren _ (.addSub _ (by decide)
      (.ofTerm (.ofFactor (.agg _ _))) (.ofFactor (.agg _ _))))) (.number _ _)))
    (by decide +kernel)
  have hcolumns : ∀ name, ∀ text, (name = "a" ∨ name = "b") →
      m.get? name = some (.column text) → IsIdentifier text.toList := by
    rintro name text (rfl | rfl) htext
    · have hnone : m.get? "a" = none := rfl
      rw [hnone] at htext
      cases htext
    · have hsome : m.get? "b" = some (.column "raw_b") := rfl
      rw [hsome] at htext
      cases htext
      exact ⟨'r', "aw_b".toList, rfl, by decide, List.all_eq_true.1 (by decide)⟩
  have hnames : ∀ name ∈ namesOf "(a) - ((b) × 2)" ++ namesOf "((a) - (b)) × 2",
      name = "a" ∨ name = "b" := by decide +kernel
  have hfields := fun name hname text => hcolumns name text (hnames name hname)
  obtain ⟨n, n', text, text', -, -, htext, htext', hiff, -⟩ :=
    toSql_inj (hf.trans rfl) (hg.trans rfl)
      (fun name hname => hfields name (List.mem_append_left _ hname))
      (fun name hname => hfields name (List.mem_append_right _ hname)) none []
  refine ⟨_, _, hf.trans rfl, hg.trans rfl, hfields, text, text', htext, htext', ?_⟩
  intro h
  exact absurd (Sql.Expr.binary.inj (hiff.1 h)).1 (by decide)

end KpiReport
