import KpiReport.Proofs.Formula.Acceptance
import Mathlib.Data.List.Chain
import Mathlib.Data.List.TakeWhile

/-!
# Words written without space between them

The scanner takes the longest token it finds, so two words that are written next to each other may
be taken for one: `1` and `2` for `12`, or `a` and `1` for `a1`. This module says when that cannot
happen.

* **`Word.Lexical`** — the words that the scanner can produce at all. Every scanned word is one
  (`lexical_of_mem_scan`).
* **`Apart`** — of two neighbours at least one is a bracket or an operator sign. Such a word ends
  after one character, and no number or identifier goes on with it.
* **`scan_join`** — lexical words that stand apart are scanned back as they are, whatever they are
  written next to.

The words of a formula tree always stand apart (`GrammarTree.apart_words`): between two numbers or
names there is a sign or a bracket. They are lexical where the numbers and names of the tree are
(`GrammarTree.lexical_words_iff`), and that is so in every parsed formula (`lexical_of_parse`).
-/

namespace KpiReport.Formula

/-! ## The words of the scanner -/

/-- Digits, and at least one. -/
def IsDigits (cs : List Char) : Prop :=
  cs ≠ [] ∧ ∀ c ∈ cs, isDigit c = true

/-- Digits, alone or with a fraction after them. -/
def IsNumeral (cs : List Char) : Prop :=
  IsDigits cs ∨ ∃ whole frac, IsDigits whole ∧ IsDigits frac ∧ cs = whole ++ '.' :: frac

/-- A letter or an underscore, with letters, underscores and digits after it. -/
def IsIdentifier (cs : List Char) : Prop :=
  ∃ c r, cs = c :: r ∧ isIdentStart c = true ∧ ∀ x ∈ r, isIdentChar x = true

/-- A bracket or an operator sign: a kind with one spelling. -/
def TokenKind.isMark (k : TokenKind) : Bool :=
  k.spelling?.isSome

/-- A word that the scanner can produce. -/
inductive Word.Lexical : Word → Prop where
  | number {text : String} (h : IsNumeral text.toList) : Lexical ⟨.number, text⟩
  | ident {text : String} (h : IsIdentifier text.toList) : Lexical ⟨.ident, text⟩
  | mark {k : TokenKind} {text : String} (h : k.spelling? = some text) : Lexical ⟨k, text⟩

theorem Word.lexical_opening : Word.opening.Lexical := .mark rfl

theorem Word.lexical_closing : Word.closing.Lexical := .mark rfl

/-- The signs that a tree can hold are words of the scanner. -/
theorem Word.lexical_sign {op : String} (h : op ∈ sumSigns ∨ op ∈ productSigns) :
    (Word.sign op).Lexical := by
  simp only [sumSigns, productSigns, List.mem_cons, List.not_mem_nil, or_false] at h
  rcases h with (rfl | rfl) | (rfl | rfl | rfl)
  all_goals exact .mark rfl

theorem Word.isMark_sign (op : String) : (Word.sign op).kind.isMark = true := by
  -- each of the five spellings, and any other text, has the kind of some sign
  unfold Word.sign
  split <;> rfl

/-! ## Scanned words are lexical -/

/-- What is taken for a fraction is nothing, or a point with digits after it: a point alone is left
for the next token. -/
theorem fraction_cases (cs : List Char) :
    fraction cs = [] ∨ ∃ frac, IsDigits frac ∧ fraction cs = '.' :: frac := by
  unfold fraction
  split
  · next d r =>
    split
    · next hd =>
      refine .inr ⟨d :: r.takeWhile isDigit, ⟨by simp, ?_⟩, rfl⟩
      intro c hc
      rcases List.mem_cons.1 hc with rfl | hc
      · exact hd
      · exact List.mem_takeWhile_imp hc
    · exact .inl rfl
  · exact .inl rfl

/-- A numeral that the scanner finds is digits with a fraction or without, and one digit at least,
since it is looked for at a digit. -/
theorem isNumeral_numeral {c : Char} {r : List Char} (hc : isDigit c = true) :
    IsNumeral (numeral (c :: r)) := by
  have hwhole : IsDigits ((c :: r).takeWhile isDigit) := by
    refine ⟨?_, fun x hx => List.mem_takeWhile_imp hx⟩
    rw [List.takeWhile_cons, if_pos hc]
    exact List.cons_ne_nil _ _
  rcases fraction_cases ((c :: r).dropWhile isDigit) with hf | ⟨frac, hfrac, hf⟩
  · rw [numeral, hf, List.append_nil]
    exact .inl hwhole
  · rw [numeral, hf]
    exact .inr ⟨_, frac, hwhole, hfrac, rfl⟩

/-- The longest token at the head of a text is a lexical word, in each of the three ways that a
token is found. -/
theorem lexical_of_lexeme? {cs w : List Char} {k : TokenKind} (h : lexeme? cs = some (k, w)) :
    (Word.mk k (String.ofList w)).Lexical := by
  cases cs with
  | nil => simp [lexeme?] at h
  | cons c r =>
    simp only [lexeme?] at h
    -- signs are tried first, then numbers, then identifiers
    split at h
    · next k' hk =>
      obtain ⟨rfl, rfl⟩ := Prod.mk.inj (Option.some.inj h)
      exact .mark (spelling?_of_signKind? hk)
    · split at h
      · next hd =>
        obtain ⟨rfl, rfl⟩ := Prod.mk.inj (Option.some.inj h)
        exact .number (by rw [String.toList_ofList]; exact isNumeral_numeral hd)
      · split at h
        · next hi =>
          obtain ⟨rfl, rfl⟩ := Prod.mk.inj (Option.some.inj h)
          refine .ident ?_
          rw [String.toList_ofList]
          exact ⟨c, _, rfl, hi, fun x hx => List.mem_takeWhile_imp hx⟩
        · simp at h

/-- Induction along the scan, as for the spelling of its tokens: each of them is the longest at the
head of some rest of the text. -/
theorem lexical_of_mem_scanFrom (pos : Position) (cs : List Char) :
    ∀ t ∈ (scanFrom pos cs).tokens, t.word.Lexical := by
  fun_induction scanFrom pos cs with
  | case1 pos => simp
  -- space is passed over, and a text that no rule fits ends the scan
  | case2 pos c r hc ih => exact ih
  | case3 pos c r hc hl => simp
  | case4 pos c r hc k w hl s ih =>
    intro t ht
    rcases List.mem_cons.1 ht with rfl | ht
    · exact lexical_of_lexeme? hl
    · exact ih t ht

/-- Every token of a scanned text has a lexical word. -/
theorem lexical_of_mem_scan {f : String} {t : Token} (h : t ∈ (scan f).tokens) : t.word.Lexical :=
  lexical_of_mem_scanFrom _ _ t h

/-! ## Lexical trees -/

/-- The numbers and names of a tree are spelled as numbers and names. -/
def Node.Lexical : Node → Prop
  | number _ text => IsNumeral text.toList
  | agg _ name => IsIdentifier name.toList
  | addSub _ _ l r => l.Lexical ∧ r.Lexical
  | mulDiv _ _ l r => l.Lexical ∧ r.Lexical
  | paren _ inner => inner.Lexical
  | hole _ => True

/-- Numbers have no fixed spelling, so there is one way only for such a word to be lexical. -/
theorem Word.lexical_number_iff {text : String} :
    (Word.mk .number text).Lexical ↔ IsNumeral text.toList := by
  constructor
  · rintro (h | h | h)
    · exact h
    · exact absurd h (by simp [TokenKind.spelling?])
  · exact .number

/-- The same of names. -/
theorem Word.lexical_ident_iff {text : String} :
    (Word.mk .ident text).Lexical ↔ IsIdentifier text.toList := by
  constructor
  · rintro (h | h | h)
    · exact h
    · exact absurd h (by simp [TokenKind.spelling?])
  · exact .ident

/-- The words of a tree are lexical exactly if its numbers and names are; its signs and brackets are
so anyway. -/
theorem GrammarTree.lexical_words_iff {l : Level} {n : Node} (h : GrammarTree l n) :
    (∀ w ∈ n.words, w.Lexical) ↔ n.Lexical := by
  induction h with
  | number pos text => simp [Node.words, Node.Lexical, Word.lexical_number_iff]
  | agg pos name =>
    simp [Node.words, Node.Lexical, Word.lexical_ident_iff, Word.lexical_opening,
      Word.lexical_closing]
  | paren pos _ ih =>
    simp only [Node.words, Node.Lexical, List.cons_append, List.forall_mem_cons,
      List.forall_mem_append, Word.lexical_opening, Word.lexical_closing, ih, true_and,
      List.not_mem_nil, false_implies, implies_true, and_true]
  | ofFactor _ ih => exact ih
  | ofTerm _ ih => exact ih
  | mulDiv pos hop _ _ ihl ihr =>
    simp only [Node.words, Node.Lexical, List.forall_mem_append, List.forall_mem_cons,
      Word.lexical_sign (.inr hop), ihl, ihr, true_and]
  | addSub pos hop _ _ ihl ihr =>
    simp only [Node.words, Node.Lexical, List.forall_mem_append, List.forall_mem_cons,
      Word.lexical_sign (.inl hop), ihl, ihr, true_and]

/-- A parsed tree is lexical, because its words are those of scanned tokens. -/
theorem lexical_of_parse {f : String} {n : Node} (h : parse f = .ok n) : n.Lexical := by
  obtain ⟨htree, hwords⟩ := parse_sound h
  refine htree.lexical_words_iff.1 fun w hw => ?_
  rw [hwords] at hw
  obtain ⟨t, ht, rfl⟩ := List.mem_map.1 hw
  exact lexical_of_mem_scan ht

/-! ## A lexical word at the head of a text

A number or an identifier is found as it was written if the text after it does not continue it.
What follows is then neither a letter, a digit or an underscore, nor a point: a point with a digit
after it would become a fraction. -/

/-- The text does not continue a number or an identifier before it. -/
def Breaks (rest : List Char) : Prop :=
  ∀ c ∈ rest.head?, isIdentChar c = false ∧ c ≠ '.'

theorem isDigit_of_not_isIdentChar {c : Char} (h : isIdentChar c = false) : isDigit c = false := by
  simp only [isIdentChar, Bool.or_eq_false_iff] at h
  exact h.2

/-- Characters of a class are taken up to the first one outside of it. All that the scanner takes is
found in this way, with what follows kept out by its first character. -/
theorem takeWhile_append_of_stop {p : Char → Bool} {cs rest : List Char}
    (hcs : ∀ c ∈ cs, p c = true) (hrest : ∀ c ∈ rest.head?, p c = false) :
    (cs ++ rest).takeWhile p = cs ∧ (cs ++ rest).dropWhile p = rest := by
  have htake : (cs ++ rest).takeWhile p = cs := by
    rw [List.takeWhile_append_of_pos hcs]
    cases rest with
    | nil => simp
    | cons c r =>
      have hc : p c = false := hrest c rfl
      simp [hc]
  refine ⟨htake, ?_⟩
  have hsplit : (cs ++ rest).takeWhile p ++ (cs ++ rest).dropWhile p = cs ++ rest :=
    List.takeWhile_append_dropWhile
  rw [htake] at hsplit
  exact List.append_cancel_left hsplit

/-- A numeral is found as it was written where the text does not continue it. A digit would, and so
would a point with a digit; a point alone would not, but is excluded too, as nothing lexical starts
with one. -/
theorem numeral_append {cs rest : List Char} (hcs : IsNumeral cs) (hrest : Breaks rest) :
    numeral (cs ++ rest) = cs := by
  have hstop : ∀ c ∈ rest.head?, isDigit c = false := fun c hc =>
    isDigit_of_not_isIdentChar (hrest c hc).1
  rcases hcs with hcs | ⟨whole, frac, hwhole, hfrac, rfl⟩
  · obtain ⟨htake, hdrop⟩ := takeWhile_append_of_stop hcs.2 hstop
    have hnone : fraction rest = [] := by
      unfold fraction
      split
      · exact absurd rfl (hrest '.' rfl).2
      · rfl
    rw [numeral, htake, hdrop, hnone, List.append_nil]
  · -- the whole part ends at the point, and the fraction where the numeral does
    obtain ⟨f, fs, rfl⟩ := List.exists_cons_of_ne_nil hfrac.1
    have hpoint : ∀ c ∈ ('.' :: f :: (fs ++ rest)).head?, isDigit c = false := by
      intro c hc
      obtain rfl : '.' = c := Option.some.inj hc
      rfl
    obtain ⟨htake, hdrop⟩ := takeWhile_append_of_stop hwhole.2 hpoint
    have hfs : (fs ++ rest).takeWhile isDigit = fs :=
      (takeWhile_append_of_stop (fun c hc => hfrac.2 c (List.mem_cons_of_mem f hc)) hstop).1
    have hf : isDigit f = true := hfrac.2 f List.mem_cons_self
    rw [List.append_assoc, List.cons_append, List.cons_append, numeral, htake, hdrop, fraction,
      if_pos hf, hfs]

/-- Brackets and signs are no characters of an identifier, so they end any name or number in front
of them. -/
theorem isIdentChar_of_signKind? {c : Char} {k : TokenKind} (h : signKind? c = some k) :
    isIdentChar c = false := by
  unfold signKind? at h
  split_ifs at h
  all_goals
    subst c
    rfl

theorem signKind?_of_isIdentChar {c : Char} (h : isIdentChar c = true) : signKind? c = none := by
  cases hk : signKind? c with
  | none => rfl
  | some k =>
    have hc := isIdentChar_of_signKind? hk
    rw [h] at hc
    exact absurd hc (by decide)

theorem isIdentChar_of_isDigit {c : Char} (h : isDigit c = true) : isIdentChar c = true := by
  rw [isIdentChar, h, Bool.or_true]

theorem isIdentChar_of_isIdentStart {c : Char} (h : isIdentStart c = true) :
    isIdentChar c = true := by
  rw [isIdentChar, h, Bool.true_or]

/-- A name does not start with a digit, so names and numbers are told apart by their first
character. -/
theorem isDigit_of_isIdentStart {c : Char} (h : isIdentStart c = true) : isDigit c = false := by
  simp only [isIdentStart, Bool.or_eq_true, Bool.and_eq_true, decide_eq_true_eq, beq_iff_eq] at h
  simp only [isDigit, Bool.and_eq_false_iff, decide_eq_false_iff_not]
  -- the letters and the underscore come after the digits
  right
  rcases h with (⟨h, -⟩ | ⟨h, -⟩) | rfl
  · exact fun h9 => absurd (Char.le_trans h h9) (by decide)
  · exact fun h9 => absurd (Char.le_trans h h9) (by decide)
  · decide

/-- A numeral starts with a digit. -/
theorem IsNumeral.exists_cons {cs : List Char} (h : IsNumeral cs) :
    ∃ c r, cs = c :: r ∧ isDigit c = true := by
  -- with a fraction or without, the whole part comes first
  have hdigits : ∀ ds, IsDigits ds → ∃ c r, ds = c :: r ∧ isDigit c = true := by
    intro ds hds
    obtain ⟨c, r, rfl⟩ := List.exists_cons_of_ne_nil hds.1
    exact ⟨c, r, rfl, hds.2 c List.mem_cons_self⟩
  rcases h with h | ⟨whole, frac, hwhole, -, rfl⟩
  · exact hdigits cs h
  · obtain ⟨c, r, rfl, hc⟩ := hdigits whole hwhole
    exact ⟨c, r ++ '.' :: frac, rfl, hc⟩

/-- A lexical word is found where it was written, unless the text after it continues it. Nothing
continues a bracket or a sign, which is one character long whatever follows. -/
theorem lexeme?_append {w : Word} (hw : w.Lexical) {rest : List Char}
    (hrest : w.kind.isMark = true ∨ Breaks rest) :
    lexeme? (w.text.toList ++ rest) = some (w.kind, w.text.toList) := by
  cases hw with
  | @number text hn =>
    have hbreak : Breaks rest := hrest.resolve_left Bool.false_ne_true
    obtain ⟨c, r, hcr, hc⟩ := hn.exists_cons
    have hnum := numeral_append hn hbreak
    simp only [hcr, List.cons_append] at hnum ⊢
    rw [lexeme?, signKind?_of_isIdentChar (isIdentChar_of_isDigit hc)]
    simp only [hc, if_true, hnum]
  | @ident text hi =>
    have hbreak : Breaks rest := hrest.resolve_left Bool.false_ne_true
    obtain ⟨c, r, hcr, hc, hr⟩ := hi
    have htake : (r ++ rest).takeWhile isIdentChar = r :=
      (takeWhile_append_of_stop hr fun x hx => (hbreak x hx).1).1
    simp only [hcr, List.cons_append]
    rw [lexeme?, signKind?_of_isIdentChar (isIdentChar_of_isIdentStart hc)]
    simp only [isDigit_of_isIdentStart hc, Bool.false_eq_true, if_false, hc, if_true, htake]
  | @mark k text hk =>
    -- one character, which decides the kind by itself
    cases k <;> simp only [TokenKind.spelling?, Option.some.injEq, reduceCtorEq] at hk
    all_goals
      subst hk
      rfl

/-! ## Words that stand apart -/

/-- Of two neighbours at least one is a bracket or a sign. -/
def Apart (ws : List Word) : Prop :=
  ws.IsChain fun v w => v.kind.isMark = true ∨ w.kind.isMark = true

/-- Words stand apart on the two sides of a bracket or a sign: it is one neighbour of each pair that
it stands in. -/
theorem Apart.append_cons {us vs : List Word} {w : Word} (hu : Apart us) (hv : Apart vs)
    (hw : w.kind.isMark = true) : Apart (us ++ w :: vs) := by
  have hwv : Apart (w :: vs) := List.isChain_cons.2 ⟨fun _ _ => .inl hw, hv⟩
  refine List.IsChain.append hu hwv ?_
  intro u _ v hv
  obtain rfl : w = v := Option.some.inj hv
  exact .inr hw

theorem apart_nil : Apart [] := .nil

theorem apart_singleton (w : Word) : Apart [w] := .singleton w

/-- The words of a tree stand apart. Its leaves are single words, and wherever two trees are put
together there is a sign between them or a bracket around. -/
theorem GrammarTree.apart_words {l : Level} {n : Node} (h : GrammarTree l n) : Apart n.words := by
  induction h with
  | number pos text => exact apart_singleton _
  | agg pos name =>
    -- put together from the right, one bracket at a time
    have hname : Apart [⟨.ident, name⟩, Word.closing] :=
      (apart_singleton ⟨.ident, name⟩).append_cons apart_nil rfl
    exact apart_nil.append_cons hname rfl
  | paren pos _ ih =>
    have hclosed := ih.append_cons apart_nil (w := Word.closing) rfl
    exact apart_nil.append_cons hclosed rfl
  | ofFactor _ ih => exact ih
  | ofTerm _ ih => exact ih
  | mulDiv pos _ _ _ ihl ihr | addSub pos _ _ _ ihl ihr =>
    exact ihl.append_cons ihr (Word.isMark_sign _)

/-! ## Scanning words back -/

/-- Nothing that starts a token is dropped as space, so the scanner does not skip the start of a
word. -/
theorem isSpace_of_lexeme? {c : Char} {r w : List Char} {k : TokenKind}
    (h : lexeme? (c :: r) = some (k, w)) : isSpace c = false := by
  cases hs : isSpace c with
  | false => rfl
  | true =>
    simp only [isSpace, Bool.or_eq_true, beq_iff_eq] at hs
    -- of the five kinds of space, none starts a token
    rcases hs with (((rfl | rfl) | rfl) | rfl) | rfl
    all_goals exact absurd h (by simp [lexeme?, signKind?, isDigit, isIdentStart])

/-- A token at the head of a text is scanned first, and the rest after it, from the place where the
token ends. -/
theorem scanFrom_append {pos : Position} {k : TokenKind} {w rest : List Char}
    (h : lexeme? (w ++ rest) = some (k, w)) :
    scanFrom pos (w ++ rest) =
      { scanFrom (pos.after w) rest with
        tokens := ⟨k, String.ofList w, pos⟩ :: (scanFrom (pos.after w) rest).tokens } := by
  -- a token has a character, at which the scanner looks
  obtain ⟨c, r, rfl⟩ : ∃ c r, w = c :: r :=
    List.exists_cons_of_ne_nil (List.length_pos_iff.1 (lexeme?_length_pos h))
  rw [List.cons_append] at h ⊢
  rw [scanFrom, if_neg (by rw [isSpace_of_lexeme? h]; decide)]
  split
  · next h' => simp [h] at h'
  · next k' w' h' =>
    obtain ⟨rfl, rfl⟩ := Prod.mk.inj (Option.some.inj (h.symm.trans h'))
    have hdrop : (c :: (r ++ rest)).drop (c :: r).length = rest := by
      rw [← List.cons_append]
      exact List.drop_left
    rw [hdrop]

/-- Where a bracket or a sign follows, a word is not continued: it starts with a character that
belongs to no name and no number. -/
theorem breaks_of_isMark {w : Word} (hw : w.Lexical) (hm : w.kind.isMark = true)
    (rest : List Char) : Breaks (w.text.toList ++ rest) := by
  cases hw with
  | number => exact absurd hm Bool.false_ne_true
  | ident => exact absurd hm Bool.false_ne_true
  | @mark k text hk =>
    cases k <;> simp only [TokenKind.spelling?, Option.some.injEq, reduceCtorEq] at hk
    all_goals
      subst hk
      intro c hc
      obtain rfl := Option.some.inj hc
      decide

/-- Lexical words that stand apart are scanned as they were written. By induction on the words: the
first is the longest match at the start of the text, because the next one does not continue it. -/
theorem scanFrom_words (pos : Position) {ws : List Word} (hlex : ∀ w ∈ ws, w.Lexical)
    (hapart : Apart ws) :
    (scanFrom pos (ws.flatMap fun w => w.text.toList)).left = [] ∧
      (scanFrom pos (ws.flatMap fun w => w.text.toList)).tokens.map Token.word = ws := by
  -- the words are scanned one by one, each from the position after the one before
  induction ws generalizing pos with
  | nil => simp [scanFrom]
  | cons w ws ih =>
    obtain ⟨hnext, hrest⟩ := List.isChain_cons.1 hapart
    have hws : ∀ v ∈ ws, v.Lexical := fun v hv => hlex v (List.mem_cons_of_mem w hv)
    have hw : w.Lexical := hlex w List.mem_cons_self
    -- the word after `w`, if there is one, does not continue it
    have hbreak : w.kind.isMark = true ∨ Breaks (ws.flatMap fun v => v.text.toList) := by
      cases ws with
      | nil => exact .inr (by intro c hc; simp at hc)
      | cons v vs =>
        refine (hnext v rfl).imp_right fun hv => ?_
        rw [List.flatMap_cons]
        exact breaks_of_isMark (hws v List.mem_cons_self) hv _
    rw [List.flatMap_cons, scanFrom_append (lexeme?_append hw hbreak)]
    obtain ⟨hleft, htokens⟩ := ih (pos.after w.text.toList) hws hrest
    refine ⟨hleft, ?_⟩
    simp only [List.map_cons, htokens, Token.word, String.ofList_toList]

/-- **Words that stand apart are scanned back.** Their texts in a row are a text that scans
completely, and its tokens are those words. -/
theorem scan_join {ws : List Word} (hlex : ∀ w ∈ ws, w.Lexical) (hapart : Apart ws) :
    (scan (String.join (ws.map Word.text))).complete = true ∧
      (scan (String.join (ws.map Word.text))).tokens.map Token.word = ws := by
  have htext : (String.join (ws.map Word.text)).toList = ws.flatMap fun w => w.text.toList := by
    rw [String.toList_join, List.flatMap_map]
  obtain ⟨hleft, htokens⟩ := scanFrom_words .start hlex hapart
  rw [scan, htext]
  exact ⟨by rw [Scan.complete, hleft]; rfl, htokens⟩

end KpiReport.Formula
