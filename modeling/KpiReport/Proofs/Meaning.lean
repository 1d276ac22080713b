import KpiReport.Proofs.Compile
import KpiReport.Proofs.Formula.Acceptance
import KpiReport.Proofs.Formula.Reading

/-!
# Compiling keeps the meaning of a formula

A formula is read as a sequence of words (`Formula.reading`), its SQL expression is evaluated along
its tree (`Sql.Expr.value`), and both give the same value (`compileFormula_value`). Numbers,
operations, aggregates and windows may stand for anything at all, and no algebraic law is used: the
two agree because the operations are the same ones, applied to the same operands in the same order.
-/

namespace KpiReport

universe u

open Formula (Arithmetic GrammarTree Level Node Token applyReading reading scan)

/-! ## Values of SQL expressions -/

/-- What SQL expressions are made of: the arithmetic, the aggregate of a raw field, and the
aggregate of an aggregate as a window over a partition. No law is asked of any of them. -/
structure Interpretation (α : Type u) extends Arithmetic α where
  aggregate (kind raw : String) : α
  window (outer inner raw partition : String) : α

/-- The operation of an SQL operator. -/
def Interpretation.operator {α : Type u} (i : Interpretation α) : String → Option (α → α → α)
  | "+" => some i.add
  | "-" => some i.sub
  | "*" => some i.mul
  | "/" => some i.div
  | _ => none

/-- The value of an SQL expression; only those have one that formulas are compiled to. -/
def Sql.Expr.value {α : Type u} (i : Interpretation α) : Sql.Expr → Option α
  | .num text => some (i.number text)
  | .binary op l r => applyReading (i.operator op) (l.value i) (r.value i)
  | .aggregate kind (.raw text) => some (i.aggregate kind text)
  | .window (.aggregate outer (.aggregate inner (.raw text))) [.raw partition] =>
    some (i.window outer inner text partition)
  | _ => none

/-! ## What a reference means -/

/-- The aggregation that a measure asks for, by name: one of the four known ones, and the sum where
none or an unknown one is asked for. -/
def Measures.kind (ms : Measures) (name : String) : String :=
  let asked := Text.lower (Text.trim ((ms.get? name).getD ""))
  if asked ∈ ["sum", "avg", "min", "max"] then asked else "sum"

/-- The meaning of a reference at a drill-down level: the aggregate of the measure's raw field, and
above the terminal level the window of that aggregate over the level's column. -/
def referenceValue {α : Type u} (i : Interpretation α) (d : Dimension) (ms : Measures)
    (m : Mappings) (name : String) : α :=
  let raw := match m.get? name with
    | some (.column text) => text
    | _ => name
  if d.terminal then i.aggregate (ms.kind name) raw
  else i.window (ms.kind name) (ms.kind name) raw (m.textOf d.name)

/-- The function that a measure is aggregated by has the name that it asks for, in lower case and
without surrounding blanks. -/
theorem Measures.name_aggregation (ms : Measures) (name : String) :
    (ms.aggregation name).name = ms.kind name := by
  simp only [aggregation, kind, Aggregation.ofText]
  generalize Text.lower (Text.trim ((ms.get? name).getD "")) = asked
  -- from here on only the normalized text matters
  by_cases h : asked ∈ ["sum", "avg", "min", "max"]
  · rw [if_pos h]
    simp only [List.mem_cons, List.not_mem_nil, or_false] at h
    rcases h with rfl | rfl | rfl | rfl <;> rfl
  · -- a name that is none of the four is not found among them
    have hnone : Aggregation.byName? asked = none := by
      rw [Aggregation.byName?, List.find?_eq_none]
      intro a _ ha
      have hname : a.name = asked := eq_of_beq ha
      apply h
      rw [← hname]
      cases a <;> decide
    rw [if_neg h, hnone]
    rfl

/-! ## Trees -/

section Trees

variable {α : Type u} (i : Interpretation α) {s : Scope} {e : Sql.Expr}

/-- The value of a compiled reference. Above the terminal level its function is applied twice, once
in the window and once around it. -/
theorem value_reference {pos : Formula.Position} {name : String}
    (h : s.compile (.agg pos name) = .ok e) :
    e.value i = some (referenceValue i s.dimension s.measures s.mappings name) := by
  obtain ⟨-, h⟩ := Scope.compile_agg_eq_ok_iff.1 h
  rw [Measures.name_aggregation] at h
  -- at the terminal level, and above it
  rcases h with ⟨hd, rfl⟩ | ⟨hd, m, hm, rfl⟩
  · simp only [Sql.Expr.value, referenceValue, hd, if_true]
    rfl
  · simp only [Sql.Expr.value, referenceValue, hd, Mappings.textOf, hm]
    rfl

/-- A sum sign and its SQL operator are the same operation. -/
theorem operation_of_sumOp {op o : String} (h : s.sumOp op = .ok o) :
    ∃ f, i.operator o = some f ∧ i.operation (Formula.Word.sign op).kind = some f := by
  unfold Scope.sumOp at h
  split at h
  · next hop =>
    obtain rfl := Except.ok.inj h
    rcases hop with rfl | rfl
    · exact ⟨i.add, rfl, rfl⟩
    · exact ⟨i.sub, rfl, rfl⟩
  · simp at h

/-- A product sign and its SQL operator are the same operation, in both spellings of the sign.
Respelling is all that happens to a sign between the formula and its expression. -/
theorem operation_of_productOp {op o : String} (h : s.productOp op = .ok o) :
    ∃ f, i.operator o = some f ∧ i.operation (Formula.Word.sign op).kind = some f := by
  unfold Scope.productOp at h
  split at h
  · next hop =>
    obtain rfl := Except.ok.inj h
    have hop : op = "*" ∨ op = "×" := by simpa [Formula.isTimes] using hop
    rcases hop with rfl | rfl
    · exact ⟨i.mul, rfl, rfl⟩
    · exact ⟨i.mul, rfl, rfl⟩
  · split at h
    · next hop =>
      obtain rfl := Except.ok.inj h
      obtain rfl := hop
      exact ⟨i.div, rfl, rfl⟩
    · simp at h

/-- An operation and its expression agree where their operands do. The sign is read as a token on
the one side and as an SQL operator on the other. -/
theorem value_binary {ref : String → α} {kind : Formula.TokenKind} {o : String}
    {el er : Sql.Expr} {ws wl wr : List Formula.Word}
    (ho : ∃ f, i.operator o = some f ∧ i.operation kind = some f)
    (hread : reading i.toArithmetic ref ws = applyReading (i.operation kind)
      (reading i.toArithmetic ref wl) (reading i.toArithmetic ref wr))
    (hl : ∃ v, el.value i = some v ∧ reading i.toArithmetic ref wl = some v)
    (hr : ∃ v, er.value i = some v ∧ reading i.toArithmetic ref wr = some v) :
    ∃ v, (Sql.Expr.binary o el er).value i = some v ∧
      reading i.toArithmetic ref ws = some v := by
  obtain ⟨f, hf, hf'⟩ := ho
  obtain ⟨vl, hvl, hrl⟩ := hl
  obtain ⟨vr, hvr, hrr⟩ := hr
  -- both are the one operation, applied to the values of the operands
  refine ⟨f vl vr, ?_, ?_⟩
  · rw [Sql.Expr.value, hf, hvl, hvr]
    rfl
  · rw [hread, hf', hrl, hrr]
    rfl

/-- The expression of a tree has the value that the words of the tree are read as. By induction on
the tree: its words are read by their last sign of the lowest tier, and this is where the tree was
split. -/
theorem value_eq_reading {l : Level} {n : Node} (hn : GrammarTree l n)
    (hc : s.compile n = .ok e) :
    ∃ v, e.value i = some v ∧
      reading i.toArithmetic (referenceValue i s.dimension s.measures s.mappings) n.words
        = some v := by
  induction hn generalizing e with
  | number pos text =>
    obtain ⟨-, rfl⟩ := Scope.compile_number_eq_ok_iff.1 hc
    exact ⟨i.number text, rfl, Formula.reading_number _ _ text⟩
  | agg pos name =>
    exact ⟨_, value_reference i hc, Formula.reading_agg _ _ name⟩
  | paren pos hi ih =>
    rw [Scope.compile_paren] at hc
    rw [Formula.reading_paren _ _ hi pos]
    exact ih hc
  | ofFactor _ ih => exact ih hc
  | ofTerm _ ih => exact ih hc
  -- an operation is found last in the words, and so its operands are the words of its parts
  | mulDiv pos hop hl hr ihl ihr =>
    obtain ⟨el, er, o, hel, her, ho, rfl⟩ := Scope.compile_mulDiv_eq_ok_iff.1 hc
    exact value_binary i (operation_of_productOp i ho) (Formula.reading_mulDiv _ _ pos hop hl hr)
      (ihl hel) (ihr her)
  | addSub pos hop hl hr ihl ihr =>
    obtain ⟨el, er, o, hel, her, ho, rfl⟩ := Scope.compile_addSub_eq_ok_iff.1 hc
    exact value_binary i (operation_of_sumOp i ho) (Formula.reading_addSub _ _ pos hop hl hr)
      (ihl hel) (ihr her)

end Trees

/-- **Compiling keeps the meaning of a formula.** In every interpretation, the SQL expression that a
formula is compiled to has a value, and it is the one that the tokens of the formula are read as. -/
theorem compileFormula_value {α : Type u} (i : Interpretation α) {f : String} {d : Dimension}
    {ms : Measures} {m : Mappings} {e : Sql.Expr} (h : compileFormula f d ms m = .ok e) :
    ∃ v, e.value i = some v ∧
      reading i.toArithmetic (referenceValue i d ms m) ((scan f).tokens.map Token.word)
        = some v := by
  -- the words of the tree are the tokens of the formula
  obtain ⟨n, hn, hc⟩ := compileFormula_eq_ok_iff.1 h
  obtain ⟨htree, hwords⟩ := Formula.parse_sound hn
  rw [← hwords]
  exact value_eq_reading i htree hc

/-- A chain of differences above the terminal level, in an interpretation that writes every
operation down: the quotient is taken before the differences, and these from left to right. -/
theorem compileFormula_value_differences :
    let i : Interpretation String :=
      { number := id
        add := fun a b => "[" ++ a ++ " + " ++ b ++ "]"
        sub := fun a b => "[" ++ a ++ " - " ++ b ++ "]"
        mul := fun a b => "[" ++ a ++ " * " ++ b ++ "]"
        div := fun a b => "[" ++ a ++ " / " ++ b ++ "]"
        aggregate := fun k r => k ++ " " ++ r
        window := fun k k' r p => k ++ " " ++ k' ++ " " ++ r ++ " by " ++ p }
    let d : Dimension := ⟨"city", false⟩
    let ms : Measures := .ofList [("a", ""), ("b", " AVG")]
    let m : Mappings := .ofList [("city", .column "town"), ("b", .column "raw_b")]
    ∃ e, compileFormula "(a) - 8/(b) - 2" d ms m = .ok e ∧
      e.value i = some "[[sum sum a by town - [8 / avg avg raw_b by town]] - 2]" ∧
      ∃ v, e.value i = some v ∧
        reading i.toArithmetic (referenceValue i d ms m)
          ((scan "(a) - 8/(b) - 2").tokens.map Token.word) = some v := by
  intro i d ms m
  let n : Node := .addSub .start "-" (.addSub .start "-" (.agg .start "a")
    (.mulDiv .start "/" (.number .start "8") (.agg .start "b"))) (.number .start "2")
  have htree : GrammarTree .expr n :=
    .addSub _ (by decide) (.addSub _ (by decide) (.ofTerm (.ofFactor (.agg _ _)))
      (.mulDiv _ (by decide) (.ofFactor (.number _ _)) (.agg _ _))) (.ofFactor (.number _ _))
  let s : Scope := ⟨"(a) - 8/(b) - 2", d, ms, m⟩
  -- each reference is aggregated twice, and partitioned by the column of the level
  have ha : s.compile (.agg .start "a") =
      .ok (.window (.aggregate "sum" (.aggregate "sum" (.raw "a"))) [.raw "town"]) := by
    have hkind : ms.aggregation "a" = .sum := by decide +kernel
    refine Scope.compile_agg_eq_ok_iff.2 ⟨by decide +kernel, .inr ⟨rfl, .column "town", rfl, ?_⟩⟩
    rw [hkind]
    rfl
  have hb : s.compile (.agg .start "b") =
      .ok (.window (.aggregate "avg" (.aggregate "avg" (.raw "raw_b"))) [.raw "town"]) := by
    have hkind : ms.aggregation "b" = .avg := by decide +kernel
    refine Scope.compile_agg_eq_ok_iff.2 ⟨by decide +kernel, .inr ⟨rfl, .column "town", rfl, ?_⟩⟩
    rw [hkind]
    rfl
  have hnumber (text : String) (h : text ≠ "") :
      s.compile (.number .start text) = .ok (.num text) :=
    Scope.compile_number_eq_ok_iff.2 ⟨h, rfl⟩
  have hquotient : s.compile (.mulDiv .start "/" (.number .start "8") (.agg .start "b")) = _ :=
    Scope.compile_mulDiv_eq_ok_iff.2 ⟨_, _, "/", hnumber "8" (by decide), hb, rfl, rfl⟩
  have hinner : s.compile (.addSub .start "-" (.agg .start "a") _) = _ :=
    Scope.compile_addSub_eq_ok_iff.2 ⟨_, _, "-", ha, hquotient, rfl, rfl⟩
  have hnode : s.compile n = _ :=
    Scope.compile_addSub_eq_ok_iff.2
      ⟨_, _, "-", hinner, hnumber "2" (by decide), rfl, rfl⟩
  have hc := (compileFormula_eq_compile d ms m (by decide +kernel) htree (by decide +kernel)).trans
    hnode
  exact ⟨_, hc, by decide +kernel, compileFormula_value i hc⟩

end KpiReport
