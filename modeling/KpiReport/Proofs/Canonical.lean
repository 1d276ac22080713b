import KpiReport.Proofs.Agreement

/-!
# The canonical text of a formula

The canonical text drops all space and writes multiplication as `*`; brackets stay where they were.
Nothing else is lost: the text parses to the same tree, so checking and compiling it does what
checking and compiling the formula does.

* **`Node.respell`** — a tree with multiplication spelled `*`. The canonical text of a tree is the
  text of its words, in a row, after respelling (`GrammarTree.canonical_eq_join`).
* **`parse_canonical`** — the canonical text of a respelled tree of the grammar parses to that tree.
  Its words stand apart, so they are scanned back one by one, and the grammar has no other tree with
  them.
* **`canonical_faithful`** — what this means for formulas, checked and compiled.
-/

namespace KpiReport.Formula

/-! ## One spelling of multiplication -/

/-- A sign of products, multiplication being spelled `*`. -/
def respellSign (op : String) : String :=
  if isTimes op then "*" else op

/-- A word, multiplication being spelled `*`. -/
def Word.respell (w : Word) : Word :=
  if w.kind = .cross then ⟨.times, "*"⟩ else w

/-- A tree, multiplication being spelled `*`. -/
def Node.respell : Node → Node
  | number pos text => number pos text
  | addSub pos op l r => addSub pos op l.respell r.respell
  | mulDiv pos op l r => mulDiv pos (respellSign op) l.respell r.respell
  | paren pos inner => paren pos inner.respell
  | agg pos name => agg pos name
  | hole what => hole what

theorem isTimes_respellSign (op : String) : isTimes (respellSign op) = isTimes op := by
  unfold respellSign
  cases h : isTimes op with
  | false => simpa using h
  | true => rfl

theorem respellSign_respellSign (op : String) : respellSign (respellSign op) = respellSign op := by
  rw [respellSign, isTimes_respellSign]
  cases h : isTimes op with
  | false => simp
  | true => simp [respellSign, h]

theorem Word.respell_sign_of_mem_sumSigns {op : String} (h : op ∈ sumSigns) :
    (Word.sign op).respell = Word.sign op := by
  simp only [sumSigns, List.mem_cons, List.not_mem_nil, or_false] at h
  rcases h with rfl | rfl <;> decide

theorem Word.respell_sign_of_mem_productSigns {op : String} (h : op ∈ productSigns) :
    (Word.sign op).respell = Word.sign (respellSign op) := by
  simp only [productSigns, List.mem_cons, List.not_mem_nil, or_false] at h
  rcases h with rfl | rfl | rfl <;> decide

theorem respellSign_mem_productSigns {op : String} (h : op ∈ productSigns) :
    respellSign op ∈ productSigns := by
  simp only [productSigns, List.mem_cons, List.not_mem_nil, or_false] at h
  rcases h with rfl | rfl | rfl <;> decide

namespace Node

theorem respell_respell (n : Node) : n.respell.respell = n.respell := by
  induction n with
  | addSub _ _ _ _ ihl ihr => rw [respell, respell, ihl, ihr]
  | mulDiv _ _ _ _ ihl ihr => rw [respell, respell, ihl, ihr, respellSign_respellSign]
  | paren _ _ ih => rw [respell, respell, ih]
  | number | agg | hole => rfl

theorem names_respell (n : Node) : n.respell.names = n.names := by
  induction n with
  | addSub _ _ _ _ ihl ihr | mulDiv _ _ _ _ ihl ihr => rw [respell, names, ihl, ihr, names]
  | paren _ _ ih => rw [respell, names, ih, names]
  | number | agg | hole => rfl

theorem lexical_respell (n : Node) : n.respell.Lexical ↔ n.Lexical := by
  induction n with
  | addSub _ _ _ _ ihl ihr | mulDiv _ _ _ _ ihl ihr => simp only [respell, Lexical, ihl, ihr]
  | paren _ _ ih => simp only [respell, Lexical, ih]
  | number | agg | hole => rfl

theorem canonical_mulDiv (pos : Position) (op : String) (l r : Node) :
    (mulDiv pos op l r).canonical = l.canonical ++ respellSign op ++ r.canonical := rfl

/-- The canonical text is respelled already. -/
theorem canonical_respell (n : Node) : n.respell.canonical = n.canonical := by
  induction n with
  | addSub _ _ _ _ ihl ihr => rw [respell, canonical, ihl, ihr, canonical]
  | mulDiv _ _ _ _ ihl ihr =>
    rw [respell, canonical_mulDiv, ihl, ihr, respellSign_respellSign, canonical_mulDiv]
  | paren _ _ ih => rw [respell, canonical, ih, canonical]
  | number | agg | hole => rfl

theorem canonical_bare (n : Node) : n.bare.canonical = n.canonical := by
  induction n with
  | addSub _ _ _ _ ihl ihr | mulDiv _ _ _ _ ihl ihr => simp only [bare, canonical, ihl, ihr]
  | paren _ _ ih => simp only [bare, canonical, ih]
  | number | agg | hole => rfl

/-- Trees that differ in positions and in the spelling of multiplication refer to the same names. -/
theorem references_eq_of_bare_respell {m n : Node} (h : m.bare = n.respell.bare) :
    m.references = n.references := by
  rw [references_eq, names_eq_of_bare_eq h, names_respell, references_eq]

/-- They have the same canonical text as well. -/
theorem canonical_eq_of_bare_respell {m n : Node} (h : m.bare = n.respell.bare) :
    m.canonical = n.canonical := by
  rw [← canonical_bare m, h, canonical_bare, canonical_respell]

end Node

/-! ## The canonical text in words -/

section Trees

variable {l : Level} {n : Node}

/-- A respelled tree is a tree of the grammar. -/
theorem GrammarTree.respell (h : GrammarTree l n) : GrammarTree l n.respell := by
  induction h with
  | number pos text => exact .number pos text
  | agg pos name => exact .agg pos name
  | paren pos _ ih => exact .paren pos ih
  | ofFactor _ ih => exact .ofFactor ih
  | ofTerm _ ih => exact .ofTerm ih
  | mulDiv pos hop _ _ ihl ihr => exact .mulDiv pos (respellSign_mem_productSigns hop) ihl ihr
  | addSub pos hop _ _ ihl ihr => exact .addSub pos hop ihl ihr

/-- The words of a respelled tree are the respelled words, one by one. Signs of sums are left alone,
so it does not matter which of the operations a sign belongs to. -/
theorem GrammarTree.words_respell (h : GrammarTree l n) :
    n.respell.words = n.words.map Word.respell := by
  induction h with
  | number | agg => rfl
  | paren pos _ ih =>
    rw [Node.respell, Node.words, ih, Node.words, List.map_append, List.map_cons]
    rfl
  | ofFactor _ ih => exact ih
  | ofTerm _ ih => exact ih
  -- the sign between the operands is respelled, and so are their words
  | mulDiv pos hop _ _ ihl ihr =>
    rw [Node.respell, Node.words, ihl, ihr, Node.words, List.map_append, List.map_cons,
      Word.respell_sign_of_mem_productSigns hop]
  | addSub pos hop _ _ ihl ihr =>
    rw [Node.respell, Node.words, ihl, ihr, Node.words, List.map_append, List.map_cons,
      Word.respell_sign_of_mem_sumSigns hop]

/-- The canonical text is that of the respelled words, in a row. Brackets are written where the tree
has them, and none is added. -/
theorem GrammarTree.canonical_eq_join (h : GrammarTree l n) :
    n.canonical = String.join (n.respell.words.map Word.text) := by
  induction h with
  | number pos text => simp [Node.canonical, Node.respell, Node.words]
  | agg pos name =>
    simp [Node.canonical, Node.respell, Node.words, Word.opening, Word.closing, String.append_assoc]
  | paren pos _ ih =>
    simp [Node.canonical, Node.respell, Node.words, Word.opening, Word.closing, ih,
      String.append_assoc]
  | ofFactor _ ih => exact ih
  | ofTerm _ ih => exact ih
  | mulDiv pos _ _ _ ihl ihr =>
    simp [Node.canonical_mulDiv, Node.respell, Node.words, ihl, ihr, String.append_assoc]
  | addSub pos _ _ _ ihl ihr =>
    simp [Node.canonical, Node.respell, Node.words, ihl, ihr, String.append_assoc]

end Trees

/-- **The canonical text parses back.** A tree of the grammar with lexical numbers and names, and
with multiplication spelled `*`, is what its canonical text parses to, positions aside. -/
theorem parse_canonical {n : Node} (hn : GrammarTree .expr n) (hlex : n.Lexical)
    (hstar : n.respell = n) : ∃ m, parse n.canonical = .ok m ∧ m.bare = n.bare := by
  -- the text is that of the words of the tree itself
  have htext : n.canonical = String.join (n.words.map Word.text) := by
    rw [hn.canonical_eq_join, hstar]
  -- no two words are glued together, so the text has the words of the tree
  obtain ⟨hscan, hwords⟩ := scan_join (hn.lexical_words_iff.2 hlex) hn.apart_words
  rw [← htext] at hscan hwords
  exact parse_complete hscan hn hwords.symm

/-- The canonical text of a parsed formula parses to the respelled tree. The numbers and names of a
parsed formula come from the scanner, so they are well spelled. -/
theorem parse_canonical_of_parse {f : String} {n : Node} (h : parse f = .ok n) :
    ∃ m, parse n.canonical = .ok m ∧ m.bare = n.respell.bare := by
  rw [← n.canonical_respell]
  exact parse_canonical (parse_sound h).1.respell (n.lexical_respell.2 (lexical_of_parse h))
    n.respell_respell

/-- The canonical text consists of the texts of the tokens, with one spelling of multiplication and
nothing in between. -/
theorem canonical_eq_join_tokens {f : String} {n : Node} (h : parse f = .ok n) :
    n.canonical =
      String.join ((scan f).tokens.map fun t => if t.kind = .cross then "*" else t.text) := by
  obtain ⟨htree, hwords⟩ := parse_sound h
  rw [htree.canonical_eq_join, htree.words_respell, hwords, List.map_map, List.map_map]
  congr 1
  refine List.map_congr_left fun t _ => ?_
  simp only [Function.comp_apply, Word.respell, Token.word]
  split <;> rfl

end KpiReport.Formula

namespace KpiReport

open Formula (GrammarTree Node)

/-! ## Compiling and checking the canonical text -/

namespace Scope

/-- Both spellings of multiplication are compiled alike: in SQL there is one. By induction on the
tree. -/
theorem compile_respell (s : Scope) (n : Node) : s.compile n.respell = s.compile n := by
  induction n with
  | addSub _ _ _ _ ihl ihr => simp only [Node.respell, compile, ihl, ihr]
  | mulDiv _ op _ _ ihl ihr =>
    -- the one sign that is respelled has the same operator
    have hop : s.productOp (Formula.respellSign op) = s.productOp op := by
      unfold productOp
      rw [Formula.isTimes_respellSign]
      cases h : Formula.isTimes op with
      | false => simp [Formula.respellSign, h]
      | true => rfl
    simp only [Node.respell, compile, ihl, ihr, hop]
  | paren _ _ ih => simp only [Node.respell, compile, ih]
  | number | agg | hole => rfl

/-- Trees that differ in positions and in the spelling of multiplication are compiled alike. -/
theorem compile_eq_of_bare_respell (s : Scope) {m n : Node} (h : m.bare = n.respell.bare) :
    s.compile m = s.compile n := by
  rw [← s.compile_bare m, h, compile_bare, compile_respell]

end Scope

/-- What it takes for a formula to pass the check, and what comes out of it. It has to parse and all
its names have to be declared; then there are its canonical text and its references. -/
theorem normalize_eq_ok_iff {f : String} {ms : Measures} {c : NormalFormula} :
    normalize f ms = .ok c ↔
      ∃ n, Formula.parse f = .ok n ∧ (∀ name ∈ n.references, ms.declares name = true) ∧
        c = ⟨n.canonical, n.references⟩ := by
  rw [normalize, bind_eq_ok_iff]
  refine exists_congr fun n => and_congr parseFormula_eq_ok_iff ?_
  cases hfind : n.references.find? (!ms.declares ·) with
  -- the check stops at the first name that is not declared
  | some name =>
    have hname := List.find?_some hfind
    have hmem : name ∈ n.references := List.mem_of_find?_eq_some hfind
    constructor
    · intro h
      cases h
    · rintro ⟨hall, -⟩
      simp [hall name hmem] at hname
  | none =>
    have hall : ∀ name ∈ n.references, ms.declares name = true := by
      simpa using List.find?_eq_none.1 hfind
    constructor
    · intro h
      exact ⟨hall, (Except.ok.inj h).symm⟩
    · rintro ⟨-, rfl⟩
      rfl

section Formulas

variable {f : String} {n : Node}

/-- The canonical text is compiled to what the formula is compiled to. Errors are not the same, as
each quotes its own text. -/
theorem compileFormula_canonical (h : Formula.parse f = .ok n) (d : Dimension) (ms : Measures)
    (m : Mappings) (e : Sql.Expr) :
    compileFormula n.canonical d ms m = .ok e ↔ compileFormula f d ms m = .ok e := by
  -- the two trees are compiled alike, and only errors tell the texts apart
  obtain ⟨n', hn', hbare⟩ := Formula.parse_canonical_of_parse h
  rw [compileFormula_of_parse d ms m hn', compileFormula_of_parse d ms m h,
    Scope.compile_eq_of_bare_respell _ hbare, Scope.compile_quoting ⟨f, d, ms, m⟩ n.canonical]
  exact Formula.mapError_eq_ok_iff

/-- A formula that passes the check is in the form that the check brings it to, once and for all. -/
theorem normalize_canonical {ms : Measures} {c : NormalFormula} (h : normalize f ms = .ok c) :
    normalize c.canonical ms = .ok c := by
  obtain ⟨n, hn, hdeclared, rfl⟩ := normalize_eq_ok_iff.1 h
  -- the tree of the canonical text has the same names and the same canonical text
  obtain ⟨n', hn', hbare⟩ := Formula.parse_canonical_of_parse hn
  refine normalize_eq_ok_iff.2 ⟨n', hn', ?_, ?_⟩
  · rw [Node.references_eq_of_bare_respell hbare]
    exact hdeclared
  · rw [Node.references_eq_of_bare_respell hbare, Node.canonical_eq_of_bare_respell hbare]

end Formulas

/-- **The canonical text is faithful and stable.** That of a parsed formula consists of the texts of
its tokens, multiplication being written `*`; it parses to the tree of the formula, up to positions
and that spelling, and is compiled to the same expression or not at all. A formula that has passed
the check passes it again in its canonical form, with the same result. Every tree of the grammar
whose numbers and names are well spelled, and whose multiplications are written `*`, is what its
canonical text parses to. -/
theorem canonical_faithful :
    (∀ f n, Formula.parse f = .ok n →
      n.canonical = String.join
        ((Formula.scan f).tokens.map fun t => if t.kind = .cross then "*" else t.text) ∧
      (∃ n', Formula.parse n.canonical = .ok n' ∧ n'.bare = n.respell.bare) ∧
      ∀ d ms m e, compileFormula n.canonical d ms m = .ok e ↔ compileFormula f d ms m = .ok e) ∧
    (∀ f ms c, normalize f ms = .ok c →
      normalize c.canonical ms = .ok c ∧
      ∀ d m e, compileFormula c.canonical d ms m = .ok e ↔ compileFormula f d ms m = .ok e) ∧
    ∀ n : Node, GrammarTree .expr n → n.Lexical → n.respell = n →
      ∃ n', Formula.parse n.canonical = .ok n' ∧ n'.bare = n.bare := by
  refine ⟨fun f n h => ?_, fun f ms c h => ⟨normalize_canonical h, fun d m e => ?_⟩,
    fun n hn hlex hstar => Formula.parse_canonical hn hlex hstar⟩
  · exact ⟨Formula.canonical_eq_join_tokens h, Formula.parse_canonical_of_parse h,
      compileFormula_canonical h⟩
  · obtain ⟨n, hn, -, rfl⟩ := normalize_eq_ok_iff.1 h
    exact compileFormula_canonical hn d ms m e

/-- A product in both spellings, with a fraction, brackets and space to drop. It is checked once as
it was written and once in its canonical form. -/
theorem canonical_faithful_product :
    let f := "2.5 × ( (a) - 1 )"
    let c := "2.5*((a)-1)"
    let ms : Measures := .ofList [("a", "")]
    let tree : Node := .mulDiv .start "*" (.number .start "2.5")
      (.paren .start (.addSub .start "-" (.agg .start "a") (.number .start "1")))
    (∃ n n', Formula.parse f = .ok n ∧ n.canonical = c ∧ Formula.parse c = .ok n' ∧
      n'.bare = n.respell.bare) ∧
    normalize f ms = .ok ⟨c, ["a"]⟩ ∧ normalize c ms = .ok ⟨c, ["a"]⟩ ∧
    GrammarTree .expr tree ∧ tree.Lexical ∧ tree.respell = tree ∧
      ∃ n', Formula.parse tree.canonical = .ok n' ∧ n'.bare = tree.bare := by
  intro f c ms tree
  let written : Node := .mulDiv .start "×" (.number .start "2.5")
    (.paren .start (.addSub .start "-" (.agg .start "a") (.number .start "1")))
  have hwritten : GrammarTree .expr written :=
    .ofTerm (.mulDiv _ (by decide) (.ofFactor (.number _ _))
      (.paren _ (.addSub _ (by decide) (.ofTerm (.ofFactor (.agg _ _))) (.ofFactor (.number _ _)))))
  have htree : GrammarTree .expr tree := hwritten.respell
  have hlex : tree.Lexical := by
    refine ⟨.inr ⟨['2'], ['5'], ?_, ?_, rfl⟩, ⟨'a', [], rfl, rfl, by simp⟩, .inl ?_⟩
    all_goals
      refine ⟨List.cons_ne_nil _ _, fun c hc => ?_⟩
      obtain rfl := List.mem_singleton.1 hc
      rfl
  obtain ⟨hparsed, hchecked, hprinted⟩ := canonical_faithful
  obtain ⟨n, hn, hbare⟩ :=
    Formula.parse_complete (f := f) (by decide +kernel) hwritten (by decide +kernel)
  have hcanonical : n.canonical = c := by
    rw [← Node.canonical_bare, hbare, Node.canonical_bare]
    decide
  -- references and canonical text are read off the tree, not off the parser
  have hreferences : n.references = ["a"] := by
    rw [Node.references_eq, Node.names_eq_of_bare_eq hbare]
    decide
  have hnormal : normalize f ms = .ok ⟨c, ["a"]⟩ := by
    refine normalize_eq_ok_iff.2 ⟨n, hn, ?_, by rw [hcanonical, hreferences]⟩
    rw [hreferences]
    decide
  obtain ⟨n', hn', hbare'⟩ := (hparsed f n hn).2.1
  rw [hcanonical] at hn'
  exact ⟨⟨n, n', hn, hcanonical, hn', hbare'⟩, hnormal, (hchecked f ms _ hnormal).1, htree, hlex,
    rfl, hprinted tree htree hlex rfl⟩

end KpiReport
