import KpiReport.Proofs.Compile
import KpiReport.Proofs.Formula.Lexemes
import KpiReport.Proofs.Formula.References

/-!
# Checking and compiling a formula agree

A formula can be checked against the declared measures (`normalize`) or compiled for a drill-down
level (`compileFormula`). The check walks over the tree, drops repeated names and looks at each name
that is left; the compiler goes down the tree and stops at the first reference that it cannot
resolve. Both come to a search through the identifiers of the formula:

* **`Scope.errorOf?_compile`** — compiling fails with the first reference, in the order of the text,
  that has an error. Numbers and operators of a parsed formula never have one, so no error is an
  internal one (`Scope.compile_ne_internal`).
* **`errorOf?_normalize`** — the check fails with the first identifier that is not declared.
* **`errorOf?_compileFormula`** — at a level that is terminal or mapped a reference has an error
  only if it is undeclared, and the two errors are the same.
* **`compileFormula_agrees`** — all of this together, and what happens at a level without a mapping.
* **`references_of_parse`** — the references of a formula are its identifiers without repetitions,
  and at a terminal level nothing but an undeclared one among them keeps it from being compiled.
-/

namespace KpiReport

open Formula (GrammarTree Level Node namesOf)

/-! ## The error of a computation -/

/-- The error of a computation, if it has failed. -/
def errorOf? {ε α : Type} : Except ε α → Option ε
  | .ok _ => none
  | .error e => some e

section ErrorOf

variable {ε α : Type} {x : Except ε α} {e : ε}

theorem errorOf?_eq_some_iff : errorOf? x = some e ↔ x = .error e := by
  cases x <;> simp [errorOf?]

theorem errorOf?_eq_none_iff : errorOf? x = none ↔ ∃ a, x = .ok a := by
  cases x <;> simp [errorOf?]

/-- Of two steps the first one that fails decides, if the second one fails alike for every outcome
of the first. -/
theorem errorOf?_bind {β : Type} {f : α → Except ε β} {o : Option ε}
    (hf : ∀ a, x = .ok a → errorOf? (f a) = o) : errorOf? (x >>= f) = (errorOf? x).or o := by
  cases x with
  | error e => rfl
  | ok a => exact hf a rfl

end ErrorOf

/-- An operation fails with its left operand, then with the right one, and last with its sign. -/
theorem errorOf?_operation (x y : Except CompileError Sql.Expr) (z : Except CompileError String) :
    errorOf? (do
      let l ← x
      let r ← y
      return Sql.Expr.binary (← z) l r) = ((errorOf? x).or (errorOf? y)).or (errorOf? z) := by
  cases x with
  | error e => rfl
  | ok l =>
    cases y with
    | error e => rfl
    | ok r => cases z <;> rfl

/-- Of the operands of an operation, the left one is the first to fail. -/
theorem errorOf?_binary {x y : Except CompileError Sql.Expr} {z : Except CompileError String}
    {o : String} (hz : z = .ok o) :
    errorOf? (do
      let l ← x
      let r ← y
      return Sql.Expr.binary (← z) l r) = (errorOf? x).or (errorOf? y) := by
  rw [errorOf?_operation, hz]
  exact Option.or_none

/-! ## Compiling -/

namespace Scope

variable (s : Scope)

/-- What is wrong with the level of a scope, once a reference asks for it. -/
def levelError? : Option CompileError :=
  if s.dimension.terminal || s.mappings.contains s.dimension.name then none
  else some (.unmappedDimension s.dimension.name)

/-- A reference is looked up among the measures before the level is looked at. -/
theorem errorOf?_reference (name : String) :
    errorOf? (s.reference name) =
      if s.measures.declares name then s.levelError?
      else some (.undefinedKpi name s.formula) := by
  unfold reference levelError? Table.contains
  -- undeclared; else terminal; else the level has a mapping or not
  cases s.measures.declares name with
  | false => rfl
  | true =>
    cases s.dimension.terminal with
    | true => rfl
    | false => cases s.mappings.get? s.dimension.name <;> rfl

theorem sumOp_of_mem {op : String} (h : op ∈ Formula.sumSigns) : s.sumOp op = .ok op := by
  simp only [Formula.sumSigns, List.mem_cons, List.not_mem_nil, or_false] at h
  rw [sumOp, if_pos h]

theorem productOp_of_mem {op : String} (h : op ∈ Formula.productSigns) :
    ∃ o, s.productOp op = .ok o := by
  simp only [Formula.productSigns, List.mem_cons, List.not_mem_nil, or_false] at h
  rcases h with rfl | rfl | rfl
  all_goals exact ⟨_, rfl⟩

/-- **The first reference with an error decides.** Nothing else in a tree of the grammar fails: its
numbers have digits and its signs are signs. By induction on the tree, whose names are listed in the
order in which they are compiled. -/
theorem errorOf?_compile {l : Level} {n : Node} (hn : GrammarTree l n) (hlex : n.Lexical) :
    errorOf? (s.compile n) = n.names.findSome? fun name => errorOf? (s.reference name) := by
  induction hn with
  | number pos text =>
    have htext : text ≠ "" := by
      rintro rfl
      obtain ⟨c, r, hcr, -⟩ := Formula.IsNumeral.exists_cons hlex
      exact absurd hcr (by simp)
    rw [compile, if_neg htext]
    rfl
  | agg pos name =>
    rw [compile, Node.names, List.findSome?_singleton]
  | paren pos _ ih =>
    rw [compile_paren]
    exact ih hlex
  | ofFactor _ ih => exact ih hlex
  | ofTerm _ ih => exact ih hlex
  | mulDiv pos hop _ _ ihl ihr =>
    -- the left operand is the first to be compiled, and its names are the first in the text
    obtain ⟨o, ho⟩ := s.productOp_of_mem hop
    rw [compile, errorOf?_binary ho, ihl hlex.1, ihr hlex.2, Node.names, List.findSome?_append]
  | addSub pos hop _ _ ihl ihr =>
    rw [compile, errorOf?_binary (s.sumOp_of_mem hop), ihl hlex.1, ihr hlex.2, Node.names,
      List.findSome?_append]

variable {s}

/-- No parsed formula is refused for a reason that is not its author's. -/
theorem compile_ne_internal {f : String} {n : Node} (h : Formula.parse f = .ok n)
    (fault : InternalFault) : s.compile n ≠ .error (.internal fault) := by
  intro hc
  have herror := errorOf?_eq_some_iff.2 hc
  rw [s.errorOf?_compile (Formula.parse_sound h).1 (Formula.lexical_of_parse h)] at herror
  -- the error is that of a reference, so it is about its name or about the level
  obtain ⟨name, -, hname⟩ := List.exists_of_findSome?_eq_some herror
  rw [errorOf?_reference, levelError?] at hname
  split_ifs at hname
  all_goals simp at hname

/-- Where the level is no obstacle, the first undeclared name is reported. The search for the first
reference with an error passes over declared names, and so it is a search for a name. -/
theorem errorOf?_compile_of_level {l : Level} {n : Node} (hn : GrammarTree l n) (hlex : n.Lexical)
    (hlevel : s.levelError? = none) :
    errorOf? (s.compile n) =
      (n.names.find? (!s.measures.declares ·)).map (.undefinedKpi · s.formula) := by
  rw [s.errorOf?_compile hn hlex]
  simp only [errorOf?_reference, hlevel]
  -- a declared name is passed over by both searches
  induction n.names with
  | nil => rfl
  | cons name names ih =>
    rw [List.findSome?_cons, List.find?_cons]
    cases s.measures.declares name with
    | true => exact ih
    | false => rfl

/-- Where it is one, the first name is reported, whichever way it fails. -/
theorem errorOf?_compile_of_level_error {l : Level} {n : Node} (hn : GrammarTree l n)
    (hlex : n.Lexical) {e : CompileError} (hlevel : s.levelError? = some e) :
    errorOf? (s.compile n) = n.names.head?.map fun name =>
      if s.measures.declares name then e else .undefinedKpi name s.formula := by
  rw [s.errorOf?_compile hn hlex]
  cases n.names with
  | nil => rfl
  | cons name names =>
    rw [List.findSome?_cons, errorOf?_reference, hlevel, List.head?_cons, Option.map_some]
    cases s.measures.declares name <;> rfl

end Scope

/-! ## Formulas -/

section Formulas

variable {f : String} {n : Node} (d : Dimension) (ms : Measures) (m : Mappings)

theorem compileFormula_of_parse (h : Formula.parse f = .ok n) :
    compileFormula f d ms m = Scope.compile ⟨f, d, ms, m⟩ n := by
  rw [compileFormula, parseFormula_eq_ok_iff.2 h]
  rfl

/-- A formula that does not parse is refused by both in the same way. -/
theorem normalize_of_parse_error {fault : Formula.Fault} (h : Formula.parse f = .error fault) :
    normalize f ms = .error (.ofFault f fault) := by
  rw [normalize, parseFormula, h]
  rfl

theorem compileFormula_of_parse_error {fault : Formula.Fault}
    (h : Formula.parse f = .error fault) :
    compileFormula f d ms m = .error (.ofFault f fault) := by
  rw [compileFormula, parseFormula, h]
  rfl

/-- The check of a parsed formula fails with its first name that is not declared. That names are
looked at once only makes no difference to which is the first. -/
theorem errorOf?_normalize (h : Formula.parse f = .ok n) :
    errorOf? (normalize f ms) =
      ((namesOf f).find? (!ms.declares ·)).map (.undefinedKpi · f) := by
  have hfind : n.references.find? (!ms.declares ·) = (namesOf f).find? (!ms.declares ·) := by
    rw [Node.references_eq, Formula.find?_firstOccurrences, Formula.names_eq_namesOf h]
  rw [normalize, parseFormula_eq_ok_iff.2 h]
  simp only [bind, Except.bind, hfind]
  cases (namesOf f).find? (!ms.declares ·) <;> rfl

/-- The check fails for the text of a formula or for one of its names. It never asks for a
dimension, so it has nothing else to report. -/
theorem normalize_error_cases {e : CompileError} (h : normalize f ms = .error e) :
    (∃ line column detail, e = .malformed f line column detail) ∨
      ∃ name, e = .undefinedKpi name f := by
  cases hparse : Formula.parse f with
  | error fault =>
    -- the text cannot be parsed
    obtain rfl := Except.error.inj ((normalize_of_parse_error ms hparse).symm.trans h)
    exact .inl ⟨_, _, _, rfl⟩
  | ok n =>
    -- it can, so it was a name that is not declared
    have herror := errorOf?_eq_some_iff.2 h
    rw [errorOf?_normalize ms hparse] at herror
    obtain ⟨name, -, rfl⟩ := Option.map_eq_some_iff.1 herror
    exact .inr ⟨name, rfl⟩

/-- At a level that is terminal or mapped, compiling fails as the check does, for a formula that
does not parse as well. -/
theorem errorOf?_compileFormula (hd : d.terminal = true ∨ m.contains d.name = true) :
    errorOf? (compileFormula f d ms m) = errorOf? (normalize f ms) := by
  cases h : Formula.parse f with
  | error fault =>
    rw [compileFormula_of_parse_error d ms m h, normalize_of_parse_error ms h]
    rfl
  | ok n =>
    -- no reference has anything to find fault with in the level
    have hlevel : Scope.levelError? ⟨f, d, ms, m⟩ = none := by
      rw [Scope.levelError?, if_pos (by simpa using hd)]
    rw [compileFormula_of_parse d ms m h, errorOf?_normalize ms h, ← Formula.names_eq_namesOf h]
    exact Scope.errorOf?_compile_of_level (Formula.parse_sound h).1 (Formula.lexical_of_parse h)
      hlevel

end Formulas

/-- **Checking and compiling a formula agree.** Compiling never ends in an internal error. A formula
that does not parse has the same syntax error in both. A formula that parses, at a level that is
terminal or mapped, is refused by one as it is by the other, and then for its first undeclared
identifier; at any other level it is compiled only if it refers to nothing, and else refused for its
first identifier or, if that is declared, for the level. -/
theorem compileFormula_agrees (f : String) (d : Dimension) (ms : Measures) (m : Mappings) :
    (∀ fault, compileFormula f d ms m ≠ .error (.internal fault)) ∧
    (∀ fault, Formula.parse f = .error fault →
      ∃ line column detail,
        normalize f ms = .error (.malformed f line column detail) ∧
        compileFormula f d ms m = .error (.malformed f line column detail)) ∧
    ∀ n, Formula.parse f = .ok n →
      ((d.terminal = true ∨ m.contains d.name = true) →
        (∀ e, compileFormula f d ms m = .error e ↔ normalize f ms = .error e) ∧
        ∀ e, normalize f ms = .error e ↔
          ∃ name, (namesOf f).find? (!ms.declares ·) = some name ∧ e = .undefinedKpi name f) ∧
      (d.terminal = false → m.contains d.name = false →
        (namesOf f = [] → ∃ e, compileFormula f d ms m = .ok e) ∧
        ∀ name, (namesOf f).head? = some name →
          compileFormula f d ms m = .error
            (if ms.declares name then .unmappedDimension d.name else .undefinedKpi name f)) := by
  refine ⟨?_, ?_, ?_⟩
  · intro fault hinternal
    cases h : Formula.parse f with
    | error syntaxFault =>
      rw [compileFormula_of_parse_error d ms m h] at hinternal
      exact absurd (Except.error.inj hinternal) (by simp [CompileError.ofFault])
    | ok n =>
      rw [compileFormula_of_parse d ms m h] at hinternal
      exact Scope.compile_ne_internal h fault hinternal
  · intro fault h
    exact ⟨_, _, _, normalize_of_parse_error ms h, compileFormula_of_parse_error d ms m h⟩
  · intro n h
    refine ⟨fun hd => ⟨fun e => ?_, fun e => ?_⟩, fun hd hm => ?_⟩
    · rw [← errorOf?_eq_some_iff, ← errorOf?_eq_some_iff, errorOf?_compileFormula d ms m hd]
    · rw [← errorOf?_eq_some_iff, errorOf?_normalize ms h, Option.map_eq_some_iff]
      simp only [eq_comm]
    · -- without a mapping, the level is an obstacle to every reference
      have hlevel : Scope.levelError? ⟨f, d, ms, m⟩ = some (.unmappedDimension d.name) := by
        rw [Scope.levelError?, if_neg (by simp [hd, hm])]
      have herror := Scope.errorOf?_compile_of_level_error (Formula.parse_sound h).1
        (Formula.lexical_of_parse h) hlevel
      rw [← compileFormula_of_parse d ms m h, Formula.names_eq_namesOf h] at herror
      refine ⟨fun hnil => ?_, fun name hname => ?_⟩
      · rw [hnil] at herror
        exact errorOf?_eq_none_iff.1 herror
      · rw [hname] at herror
        exact errorOf?_eq_some_iff.1 herror

/-- A formula with repeated, declared and undeclared names: at the terminal level both report the
second name, at a level without a mapping the compiler stops at the first one. The text with a
character that starts no token is refused by both. -/
theorem compileFormula_agrees_repeated :
    let f := "(a) + (b)*(a) - (c)"
    let ms : Measures := .ofList [("a", "avg")]
    (∃ n, Formula.parse f = .ok n) ∧
      normalize f ms = .error (.undefinedKpi "b" f) ∧
      compileFormula f ⟨"day", true⟩ ms .empty = .error (.undefinedKpi "b" f) ∧
      compileFormula f ⟨"city", false⟩ ms .empty = .error (.unmappedDimension "city") ∧
      (∃ fault, Formula.parse "(a) % 2" = .error fault) ∧
      ∃ e, normalize "(a) % 2" ms = .error e ∧
        compileFormula "(a) % 2" ⟨"city", false⟩ ms .empty = .error e := by
  intro f ms
  let tree : Node := .addSub .start "-" (.addSub .start "+" (.agg .start "a")
    (.mulDiv .start "*" (.agg .start "b") (.agg .start "a"))) (.agg .start "c")
  have htree : GrammarTree .expr tree :=
    .addSub _ (by decide) (.addSub _ (by decide) (.ofTerm (.ofFactor (.agg _ _)))
      (.mulDiv _ (by decide) (.ofFactor (.agg _ _)) (.agg _ _))) (.ofFactor (.agg _ _))
  obtain ⟨n, hn, -⟩ := Formula.parse_complete (f := f) (by decide +kernel) htree (by decide +kernel)
  have hnames : namesOf f = ["a", "b", "a", "c"] := by decide +kernel
  obtain ⟨-, -, hday⟩ := compileFormula_agrees f ⟨"day", true⟩ ms .empty
  obtain ⟨-, -, hcity⟩ := compileFormula_agrees f ⟨"city", false⟩ ms .empty
  obtain ⟨hagree, hfirst⟩ := (hday n hn).1 (.inl rfl)
  have hnormal : normalize f ms = .error (.undefinedKpi "b" f) :=
    (hfirst _).2 ⟨"b", by rw [hnames]; rfl, rfl⟩
  -- a percent sign starts no token
  have hbroken : Formula.parse "(a) % 2" = .error (.invalidText (Formula.scan "(a) % 2")) := by
    rw [Formula.parse, if_neg (by decide +kernel)]
  obtain ⟨line, column, detail, hn', hc'⟩ :=
    (compileFormula_agrees "(a) % 2" ⟨"city", false⟩ ms .empty).2.1 _ hbroken
  exact ⟨⟨n, hn⟩, hnormal, (hagree _).2 hnormal,
    ((hcity n hn).2 rfl rfl).2 "a" (by rw [hnames]; rfl), ⟨_, hbroken⟩, _, hn', hc'⟩

/-- **The references of a formula are its identifiers.** They are listed in the order of the text
without later repetitions, and none is missed at any depth. At a terminal level a formula is
compiled if and only if each of them is declared. -/
theorem references_of_parse {f : String} {n : Node} (h : Formula.parse f = .ok n) :
    n.references = (namesOf f).eraseDups ∧
    n.references.Nodup ∧
    (∀ name, name ∈ n.references ↔ n.Refers name) ∧
    ∀ d ms m, d.terminal = true →
      ((∃ e, compileFormula f d ms m = .ok e) ↔
        ∀ name ∈ n.references, ms.declares name = true) := by
  have heq : n.references = Formula.firstOccurrences (namesOf f) := by
    rw [Node.references_eq, Formula.names_eq_namesOf h]
  refine ⟨?_, ?_, fun name => Node.mem_references_iff, ?_⟩
  · rw [heq, Formula.firstOccurrences_eq_eraseDups]
  · exact Formula.nodup_firstOccurrences _
  · intro d ms m hd
    -- at a terminal level it is compiled exactly if the check finds nothing
    rw [← errorOf?_eq_none_iff, errorOf?_compileFormula d ms m (.inl hd), errorOf?_normalize ms h,
      Option.map_eq_none_iff, List.find?_eq_none]
    simp only [heq, Formula.mem_firstOccurrences, Bool.not_eq_true', Bool.not_eq_false]

/-- Nested brackets and long chains: the three names come out in the order of the text, and the
formula is compiled once all three of them are declared. -/
theorem references_of_parse_nested :
    let f := "((c) - 2) * (a) / ((c) + ((b)))"
    ∃ n, Formula.parse f = .ok n ∧ n.references = ["c", "a", "b"] ∧
      (∃ e, compileFormula f ⟨"day", true⟩ (.ofList [("a", "avg"), ("b", ""), ("c", "sum")]) .empty
        = .ok e) ∧
      ¬∃ e, compileFormula f ⟨"day", true⟩ (.ofList [("a", "avg"), ("c", "sum")]) .empty = .ok e := by
  intro f
  let tree : Node := .mulDiv .start "/"
    (.mulDiv .start "*" (.paren .start (.addSub .start "-" (.agg .start "c") (.number .start "2")))
      (.agg .start "a"))
    (.paren .start (.addSub .start "+" (.agg .start "c") (.paren .start (.agg .start "b"))))
  have htree : GrammarTree .expr tree :=
    .ofTerm (.mulDiv _ (by decide)
      (.mulDiv _ (by decide)
        (.ofFactor (.paren _ (.addSub _ (by decide) (.ofTerm (.ofFactor (.agg _ _)))
          (.ofFactor (.number _ _)))))
        (.agg _ _))
      (.paren _ (.addSub _ (by decide) (.ofTerm (.ofFactor (.agg _ _)))
        (.ofFactor (.paren _ (.ofTerm (.ofFactor (.agg _ _))))))))
  obtain ⟨n, hn, -⟩ := Formula.parse_complete (f := f) (by decide +kernel) htree (by decide +kernel)
  obtain ⟨hrefs, -, -, hcompile⟩ := references_of_parse hn
  have hlist : n.references = ["c", "a", "b"] := by
    rw [hrefs]
    decide +kernel
  refine ⟨n, hn, hlist, ?_, ?_⟩
  · rw [hcompile _ _ _ rfl, hlist]
    decide +kernel
  · rw [hcompile _ _ _ rfl, hlist]
    decide +kernel

end KpiReport
