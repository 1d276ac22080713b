import KpiReport.Formula.Lexer
import KpiReport.Formula.Node

/-!
# The grammar of formulas

The grammar is stated apart from the parser, in three parts.

* **`GrammarTree`** — the trees that the grammar allows at each of its three levels. Operators
  associate to the left, so a chain is built by adding one item at a time on its right.
* **`Node.words`** — the words of a tree from left to right; a word is a token without its place.
* **`Node.bare`** — a tree without its positions.

The words of a scanned text are spelled as their kinds say (`spelled_of_mem_scan`), so that a sign
in a tree and the token it came from determine each other.
-/

namespace KpiReport.Formula

/-! ## Words -/

/-- A token without its place. -/
structure Word where
  kind : TokenKind
  text : String
deriving DecidableEq, Repr

/-- The word of a token. -/
def Token.word (t : Token) : Word := ⟨t.kind, t.text⟩

/-- The spelling of a kind that has only one. -/
def TokenKind.spelling? : TokenKind → Option String
  | .openParen => some "("
  | .closeParen => some ")"
  | .plus => some "+"
  | .minus => some "-"
  | .times => some "*"
  | .cross => some "×"
  | .slash => some "/"
  | .number | .ident => none

namespace Word

/-- A word whose kind has only one spelling has that spelling. -/
def Spelled (w : Word) : Prop :=
  ∀ s, w.kind.spelling? = some s → w.text = s

/-- The opening bracket. -/
def opening : Word := ⟨.openParen, "("⟩

/-- The closing bracket. -/
def closing : Word := ⟨.closeParen, ")"⟩

/-- The word of an operator. -/
def sign (op : String) : Word :=
  match op with
  | "+" => ⟨.plus, op⟩
  | "-" => ⟨.minus, op⟩
  | "×" => ⟨.cross, op⟩
  | "/" => ⟨.slash, op⟩
  | _ => ⟨.times, op⟩

@[simp] theorem text_sign (op : String) : (sign op).text = op := by
  unfold sign; split <;> rfl

end Word

/-- The signs of sums. -/
def sumSigns : List String := ["+", "-"]

/-- The signs of products. -/
def productSigns : List String := ["*", "×", "/"]

/-- A sign of a sum has a word of the right kind; the kind is chosen by the text, so there are two
cases to look at. -/
theorem isAddOp_sign {op : String} (h : op ∈ sumSigns) : (Word.sign op).kind.isAddOp = true := by
  simp only [sumSigns, List.mem_cons, List.not_mem_nil, or_false] at h
  rcases h with rfl | rfl <;> decide

theorem isMulOp_sign {op : String} (h : op ∈ productSigns) :
    (Word.sign op).kind.isMulOp = true := by
  simp only [productSigns, List.mem_cons, List.not_mem_nil, or_false] at h
  rcases h with rfl | rfl | rfl <;> decide

/-- No sign of a sum is one of a product. This and its counterpart are what keeps the two levels of
the grammar apart: a sum ends nothing but at its own signs, and so does a product. -/
theorem isMulOp_sign_of_mem_sumSigns {op : String} (h : op ∈ sumSigns) :
    (Word.sign op).kind.isMulOp = false := by
  simp only [sumSigns, List.mem_cons, List.not_mem_nil, or_false] at h
  rcases h with rfl | rfl <;> decide

theorem isAddOp_sign_of_mem_productSigns {op : String} (h : op ∈ productSigns) :
    (Word.sign op).kind.isAddOp = false := by
  simp only [productSigns, List.mem_cons, List.not_mem_nil, or_false] at h
  rcases h with rfl | rfl | rfl <;> decide

section Spelled

variable {w : Word}

/-- A sum sign is one of the signs of sums, and its word is determined by its text. So a token that
the parser takes for a sign can be put into a tree by its text alone. -/
theorem Word.Spelled.eq_sign_of_isAddOp (hs : w.Spelled) (h : w.kind.isAddOp = true) :
    w.text ∈ sumSigns ∧ w = Word.sign w.text := by
  obtain ⟨kind, text⟩ := w
  cases kind <;> simp only [TokenKind.isAddOp, Bool.false_eq_true] at h
  all_goals
    obtain rfl : text = _ := hs _ rfl
    decide

/-- A product sign is one of the signs of products, and its word is determined by its text, as for
sums. -/
theorem Word.Spelled.eq_sign_of_isMulOp (hs : w.Spelled) (h : w.kind.isMulOp = true) :
    w.text ∈ productSigns ∧ w = Word.sign w.text := by
  obtain ⟨kind, text⟩ := w
  cases kind <;> simp only [TokenKind.isMulOp, Bool.false_eq_true] at h
  all_goals
    obtain rfl : text = _ := hs _ rfl
    decide

/-- There is one opening bracket: a token of that kind has no other text. -/
theorem Word.Spelled.eq_opening (hs : w.Spelled) (h : w.kind = .openParen) : w = Word.opening := by
  obtain ⟨kind, text⟩ := w
  subst h
  obtain rfl : text = _ := hs _ rfl
  rfl

/-- There is one closing bracket. -/
theorem Word.Spelled.eq_closing (hs : w.Spelled) (h : w.kind = .closeParen) : w = Word.closing := by
  obtain ⟨kind, text⟩ := w
  subst h
  obtain rfl : text = _ := hs _ rfl
  rfl

end Spelled

/-! ## Scanned tokens are spelled as their kinds say -/

/-- A character that makes a token on its own is the spelling of its kind, which is how the table of
signs and the table of spellings fit together. -/
theorem spelling?_of_signKind? {c : Char} {k : TokenKind} (h : signKind? c = some k) :
    k.spelling? = some (String.ofList [c]) := by
  unfold signKind? at h
  repeat' split at h
  all_goals simp_all
  all_goals
    obtain rfl := h
    rfl

/-- The longest token at the head of a text is spelled as its kind says. Signs are looked up by
their character, and that character is their spelling; numbers and names can be spelled in many
ways, so nothing is to be shown for them. -/
theorem spelled_of_lexeme? {cs w : List Char} {k : TokenKind} (h : lexeme? cs = some (k, w)) :
    (Word.mk k (String.ofList w)).Spelled := by
  intro s hs
  cases cs with
  | nil => simp [lexeme?] at h
  | cons c r =>
    simp only [lexeme?] at h
    -- a sign: its kind has the one spelling that the character is
    split at h
    · next k' hk =>
      obtain ⟨rfl, rfl⟩ := Prod.mk.inj (Option.some.inj h)
      simpa [spelling?_of_signKind? hk] using hs
    · -- numbers and identifiers have no spelling of their own
      split at h
      · obtain ⟨rfl, -⟩ := Prod.mk.inj (Option.some.inj h)
        simp [TokenKind.spelling?] at hs
      · split at h
        · obtain ⟨rfl, -⟩ := Prod.mk.inj (Option.some.inj h)
          simp [TokenKind.spelling?] at hs
        · simp at h

/-- The scan takes one token after the other from the head of the text, so what holds of the first
holds of all. Induction along the scan. -/
theorem spelled_of_mem_scanFrom (pos : Position) (cs : List Char) :
    ∀ t ∈ (scanFrom pos cs).tokens, t.word.Spelled := by
  fun_induction scanFrom pos cs with
  | case1 pos => simp
  -- white space adds no token
  | case2 pos c r hc ih => exact ih
  | case3 pos c r hc hl => simp
  | case4 pos c r hc k w hl s ih =>
    intro t ht
    rcases List.mem_cons.1 ht with rfl | ht
    · exact spelled_of_lexeme? hl
    · exact ih t ht

/-- Every token of a scanned text is spelled as its kind says, wherever in the text it stands. -/
theorem spelled_of_mem_scan {f : String} {t : Token} (h : t ∈ (scan f).tokens) : t.word.Spelled :=
  spelled_of_mem_scanFrom _ _ t h

/-! ## Trees -/

/-- The levels of the grammar, from the tightest to the loosest. -/
inductive Level where
  | factor
  | term
  | expr
deriving DecidableEq, Repr

/-- The trees of the grammar

* `expr := term (('+' | '-') term)*`
* `term := factor (('*' | '×' | '/') factor)*`
* `factor := number | '(' ident ')' | '(' expr ')'`

where chains associate to the left. -/
inductive GrammarTree : Level → Node → Prop where
  | number (pos : Position) (text : String) : GrammarTree .factor (.number pos text)
  | agg (pos : Position) (name : String) : GrammarTree .factor (.agg pos name)
  | paren (pos : Position) {inner : Node} (hi : GrammarTree .expr inner) :
      GrammarTree .factor (.paren pos inner)
  | ofFactor {n : Node} (h : GrammarTree .factor n) : GrammarTree .term n
  | mulDiv (pos : Position) {op : String} {l r : Node} (hop : op ∈ productSigns)
      (hl : GrammarTree .term l) (hr : GrammarTree .factor r) :
      GrammarTree .term (.mulDiv pos op l r)
  | ofTerm {n : Node} (h : GrammarTree .term n) : GrammarTree .expr n
  | addSub (pos : Position) {op : String} {l r : Node} (hop : op ∈ sumSigns)
      (hl : GrammarTree .expr l) (hr : GrammarTree .term r) :
      GrammarTree .expr (.addSub pos op l r)

namespace Node

/-- The words of a tree, from left to right. -/
def words : Node → List Word
  | number _ text => [⟨.number, text⟩]
  | addSub _ op l r => l.words ++ Word.sign op :: r.words
  | mulDiv _ op l r => l.words ++ Word.sign op :: r.words
  | paren _ inner => Word.opening :: inner.words ++ [Word.closing]
  | agg _ name => [Word.opening, ⟨.ident, name⟩, Word.closing]
  | hole _ => []

/-- A tree without its positions. -/
def bare : Node → Node
  | number _ text => number .start text
  | addSub _ op l r => addSub .start op l.bare r.bare
  | mulDiv _ op l r => mulDiv .start op l.bare r.bare
  | paren _ inner => paren .start inner.bare
  | agg _ name => agg .start name
  | hole what => hole what

/-- Positions are not part of the words: a tree moved to another place reads the same. -/
@[simp] theorem words_bare (n : Node) : n.bare.words = n.words := by
  induction n with
  | addSub _ _ _ _ ihl ihr | mulDiv _ _ _ _ ihl ihr => simp [bare, words, ihl, ihr]
  | paren _ _ ih => simp [bare, words, ih]
  | number | agg | hole => rfl

/-- Trees that differ in positions only have the same words. -/
theorem words_eq_of_bare_eq {m n : Node} (h : m.bare = n.bare) : m.words = n.words := by
  rw [← words_bare m, h, words_bare]

end Node

/-- Positions are not part of the grammar. Induction on the derivation of the one tree; a tree that
differs from it in positions only is built by the same constructor, and its parts differ in
positions only. -/
theorem GrammarTree.of_bare_eq {l : Level} {n m : Node} (hn : GrammarTree l n)
    (h : m.bare = n.bare) : GrammarTree l m := by
  induction hn generalizing m with
  | ofFactor _ ih => exact .ofFactor (ih h)
  | ofTerm _ ih => exact .ofTerm (ih h)
  -- a leaf is the other leaf, up to its position
  | number | agg =>
    cases m <;> simp only [Node.bare, reduceCtorEq] at h
    constructor
  | paren _ _ ih =>
    cases m <;> simp only [Node.bare, reduceCtorEq] at h
    exact .paren _ (ih (Node.paren.inj h).2)
  -- the position may differ, the sign and the operands are those of the other tree
  | mulDiv _ hop _ _ ihl ihr =>
    cases m <;> simp only [Node.bare, reduceCtorEq] at h
    obtain ⟨-, rfl, hl, hr⟩ := Node.mulDiv.inj h
    exact .mulDiv _ hop (ihl hl) (ihr hr)
  | addSub _ hop _ _ ihl ihr =>
    cases m <;> simp only [Node.bare, reduceCtorEq] at h
    obtain ⟨-, rfl, hl, hr⟩ := Node.addSub.inj h
    exact .addSub _ hop (ihl hl) (ihr hr)

/-- A tree starts with a number or an opening bracket, whatever its level: a chain starts as its
first item does. -/
theorem GrammarTree.words_head {l : Level} {n : Node} (h : GrammarTree l n) :
    ∃ w ws, n.words = w :: ws ∧ (w.kind = .number ∨ w.kind = .openParen) := by
  induction h with
  | number _ text => exact ⟨_, _, rfl, .inl rfl⟩
  | agg _ name => exact ⟨_, _, rfl, .inr rfl⟩
  | paren _ _ _ => exact ⟨_, _, rfl, .inr rfl⟩
  | ofFactor _ ih => exact ih
  | ofTerm _ ih => exact ih
  | mulDiv _ _ _ _ ihl _ | addSub _ _ _ _ ihl _ =>
    obtain ⟨w, ws, hw, hk⟩ := ihl
    exact ⟨w, _, by rw [Node.words, hw, List.cons_append], hk⟩

end KpiReport.Formula
