import KpiReport.Proofs.Canonical
import KpiReport.Proofs.Formula.Tiling

/-!
# Either sign of multiplication

Multiplication is written `*` or `×`. These are characters of one byte and of two, and tokens of
different kinds; still, to write the first one for the second all over a formula changes nothing but
that spelling and the byte offsets behind it. The change is followed through the stages:

* **`lexeme?_starSign`** — the scanner takes the same characters, so the tokens are alike one by
  one (`scanFrom_alike`): respelled, and in the same line and column.
* **`halt_alike`**, **`blame_alike`** — the reader stops at the same place and the same token is
  blamed, since only the kinds of the tokens count and the two signs can come at the same places.
* **`shown_eq_of_parse`** — a tree takes its positions from its tokens, so those of the two trees
  are in the same lines and columns.
* **`starred_alike`** — the statement about formulas, those that are refused included.
-/

namespace KpiReport.Formula

/-! ## Characters and words -/

/-- The one-byte sign of multiplication for the other one. -/
def starSign (c : Char) : Char := if c = '×' then '*' else c

/-- The formula with every multiplication written `*`. -/
def starred (f : String) : String := String.ofList (f.toList.map starSign)

/-- The kind of a token after that. -/
def TokenKind.respell (k : TokenKind) : TokenKind := if k = .cross then .times else k

theorem Word.kind_respell (w : Word) : w.respell.kind = w.kind.respell := by
  obtain ⟨kind, text⟩ := w
  cases kind <;> rfl

theorem starSign_of_ne {c : Char} (h : c ≠ '×') : starSign c = c := if_neg h

/-- A class of characters with none of the two signs does not notice the change. The classes of the
scanner are of this kind, all four of them, and so are the texts of numbers and names. -/
theorem class_starSign (p : Char → Bool) (hcross : p '×' = false) (hstar : p '*' = false)
    (c : Char) : p (starSign c) = p c := by
  by_cases hc : c = '×'
  · rw [hc]
    exact hstar.trans hcross.symm
  · rw [starSign_of_ne hc]

theorem isSpace_starSign (c : Char) : isSpace (starSign c) = isSpace c :=
  class_starSign isSpace rfl rfl c

theorem isDigit_starSign (c : Char) : isDigit (starSign c) = isDigit c :=
  class_starSign isDigit rfl rfl c

theorem isIdentStart_starSign (c : Char) : isIdentStart (starSign c) = isIdentStart c :=
  class_starSign isIdentStart rfl rfl c

theorem isIdentChar_starSign (c : Char) : isIdentChar (starSign c) = isIdentChar c :=
  class_starSign isIdentChar rfl rfl c

theorem map_starSign_of_forall {p : Char → Bool} (hcross : p '×' = false) {cs : List Char}
    (h : ∀ c ∈ cs, p c = true) : cs.map starSign = cs := by
  refine (List.map_congr_left fun c hc => starSign_of_ne ?_).trans (List.map_id' cs)
  rintro rfl
  simp [h _ hc] at hcross

theorem IsNumeral.map_starSign {cs : List Char} (h : IsNumeral cs) : cs.map starSign = cs := by
  rcases h with h | ⟨whole, frac, hwhole, hfrac, rfl⟩
  · exact map_starSign_of_forall rfl h.2
  · rw [List.map_append, List.map_cons, map_starSign_of_forall rfl hwhole.2,
      map_starSign_of_forall rfl hfrac.2]
    rfl

theorem IsIdentifier.map_starSign {cs : List Char} (h : IsIdentifier cs) :
    cs.map starSign = cs := by
  obtain ⟨c, r, rfl, hc, hr⟩ := h
  refine map_starSign_of_forall (p := isIdentChar) rfl fun x hx => ?_
  rcases List.mem_cons.1 hx with rfl | hx
  · exact isIdentChar_of_isIdentStart hc
  · exact hr x hx

/-- Of the words that are scanned only the sign itself is spelled differently. Numbers and names
have neither of the two signs in them, and the other marks are none of the two. -/
theorem Word.Lexical.respell_eq {w : Word} (h : w.Lexical) :
    w.respell = ⟨w.kind.respell, starred w.text⟩ := by
  have hsame : ∀ {text : String}, text.toList.map starSign = text.toList → starred text = text := by
    intro text htext
    rw [starred, htext, String.ofList_toList]
  cases h with
  | number h => simp [Word.respell, TokenKind.respell, hsame h.map_starSign]
  | ident h => simp [Word.respell, TokenKind.respell, hsame h.map_starSign]
  -- eight marks, each with one spelling
  | @mark k text hk =>
    cases k <;> simp only [TokenKind.spelling?, Option.some.injEq, reduceCtorEq] at hk
    all_goals
      subst hk
      decide

/-! ## The same tokens are taken -/

theorem takeWhile_starSign {p : Char → Bool} (hp : ∀ c, p (starSign c) = p c) (cs : List Char) :
    (cs.map starSign).takeWhile p = (cs.takeWhile p).map starSign := by
  rw [List.takeWhile_map, show p ∘ starSign = p from funext hp]

/-- The fraction of a number is taken as before, and with it the whole number. A point is not one of
the two signs. -/
theorem fraction_starSign (cs : List Char) :
    fraction (cs.map starSign) = (fraction cs).map starSign := by
  match cs with
  | [] => rfl
  | [c] => simp [fraction]
  | c :: d :: r =>
    simp only [List.map_cons]
    -- a point with a digit behind it starts a fraction
    by_cases hc : c = '.'
    · have hpoint : starSign c = '.' := by rw [hc]; rfl
      rw [hpoint, hc, fraction, fraction, isDigit_starSign, takeWhile_starSign isDigit_starSign]
      split <;> rfl
    · have hother : starSign c ≠ '.' := by
        unfold starSign
        split
        · decide
        · exact hc
      simp [fraction, hc, hother]

theorem numeral_starSign (cs : List Char) :
    numeral (cs.map starSign) = (numeral cs).map starSign := by
  rw [numeral, numeral, takeWhile_starSign isDigit_starSign, List.dropWhile_map,
    show isDigit ∘ starSign = isDigit from funext isDigit_starSign, fraction_starSign,
    List.map_append]

/-- A sign is a sign as before, and the one that has changed is of the other kind. -/
theorem signKind?_starSign (c : Char) : signKind? (starSign c) = (signKind? c).map .respell := by
  by_cases hc : c = '×'
  · rw [hc]
    rfl
  · rw [starSign_of_ne hc]
    unfold signKind?
    rw [if_neg hc]
    repeat' split
    all_goals rfl

/-- The scanner takes the same characters, and finds the kind that belongs to the other sign. It
decides by classes of characters, and these do not tell the two signs apart from other characters of
theirs. -/
theorem lexeme?_starSign (cs : List Char) :
    lexeme? (cs.map starSign) =
      (lexeme? cs).map fun kw => (kw.1.respell, kw.2.map starSign) := by
  cases cs with
  | nil => rfl
  | cons c r =>
    have hnumeral := numeral_starSign (c :: r)
    rw [List.map_cons] at hnumeral ⊢
    rw [lexeme?, lexeme?, signKind?_starSign, isDigit_starSign, isIdentStart_starSign, hnumeral,
      takeWhile_starSign isIdentChar_starSign]
    cases signKind? c with
    | some k => rfl
    | none =>
      simp only [Option.map_none]
      split
      · rfl
      · split <;> rfl

/-! ## Places as they are shown -/

/-- A position without the byte offset. -/
def Position.shown (p : Position) : Position := { p with offset := 0 }

theorem Position.shown_eq_iff {p q : Position} :
    p.shown = q.shown ↔ p.line = q.line ∧ p.column = q.column := by
  simp [shown]

/-- Both signs take one column. None of them starts a new line. -/
theorem Position.shown_step_starSign {p q : Position} (h : q.shown = p.shown) (c : Char) :
    (q.step (starSign c)).shown = (p.step c).shown := by
  obtain ⟨hline, hcolumn⟩ := shown_eq_iff.1 h
  have hbreak : starSign c = '\n' ↔ c = '\n' := by
    unfold starSign
    split
    · next hc => simp [hc]
    · rfl
  unfold step
  simp only [hbreak]
  split <;> simp [shown, hline, hcolumn]

/-- So line and column stay the same along any text. -/
theorem Position.shown_after_starSign {p q : Position} (h : q.shown = p.shown) (cs : List Char) :
    (q.after (cs.map starSign)).shown = (p.after cs).shown := by
  induction cs generalizing p q with
  | nil => exact h
  | cons c cs ih =>
    rw [List.map_cons, after_cons, after_cons]
    exact ih (shown_step_starSign h c)

/-- A token after the change: respelled, and in the same line and column. -/
structure Token.Alike (t u : Token) : Prop where
  word : u.word = t.word.respell
  shown : u.pos.shown = t.pos.shown

/-- A scan after the change: the tokens are alike one by one, it has come to the same line and
column, and what it has left over has changed in the same way. -/
structure Scan.Alike (s s' : Scan) : Prop where
  tokens : List.Forall₂ Token.Alike s.tokens s'.tokens
  stop : s'.stop.shown = s.stop.shown
  left : s'.left = s.left.map starSign

/-- The scanner goes over both texts in step. By induction along the one scan; the other is at
another offset, so it is followed from any position in the same line and column. -/
theorem scanFrom_alike (p : Position) (cs : List Char) :
    ∀ q : Position, q.shown = p.shown → (scanFrom p cs).Alike (scanFrom q (cs.map starSign)) := by
  -- offsets drift apart, so what is carried along is that line and column are the same
  fun_induction scanFrom p cs with
  | case1 p =>
    intro q h
    rw [List.map_nil, scanFrom]
    exact ⟨.nil, h, rfl⟩
  -- a space: nothing is taken, and both go one column on
  | case2 p c r hc ih =>
    intro q h
    rw [List.map_cons, scanFrom, if_pos (by rwa [isSpace_starSign])]
    exact ih _ (Position.shown_step_starSign h c)
  -- no token starts here, on neither side
  | case3 p c r hc hlex =>
    intro q h
    have hnone : lexeme? ((c :: r).map starSign) = none := by
      rw [lexeme?_starSign, hlex]
      rfl
    rw [List.map_cons] at hnone ⊢
    rw [scanFrom, if_neg (by rwa [isSpace_starSign])]
    split
    · exact ⟨.nil, h, rfl⟩
    · next hsome => simp [hnone] at hsome
  | case4 p c r hc k w hlex s ih =>
    intro q h
    -- the text is cut behind the token on both sides
    obtain ⟨rest, hrest⟩ := isPrefix_of_lexeme? hlex
    have hdrop : (c :: r).drop w.length = rest := by rw [← hrest, List.drop_left]
    have hlex' : lexeme? (w.map starSign ++ rest.map starSign) =
        some (k.respell, w.map starSign) := by
      rw [← List.map_append, hrest, lexeme?_starSign, hlex]
      rfl
    have hword : (⟨k.respell, String.ofList (w.map starSign)⟩ : Word) =
        (Word.mk k (String.ofList w)).respell := by
      rw [(lexical_of_lexeme? hlex).respell_eq, starred, String.toList_ofList]
    have hlater : s.Alike (scanFrom (q.after (w.map starSign)) (rest.map starSign)) := by
      rw [← hdrop]
      exact ih _ (Position.shown_after_starSign h w)
    rw [← hrest, List.map_append, scanFrom_append hlex']
    exact ⟨.cons ⟨hword, h⟩ hlater.tokens, hlater.stop, hlater.left⟩

/-- The scans of the two formulas are alike. -/
theorem scan_alike (f : String) : (scan f).Alike (scan (starred f)) := by
  rw [scan, scan, starred, String.toList_ofList]
  exact scanFrom_alike .start f.toList .start rfl

/-! ## The reader stops at the same place -/

section Tokens

variable {ts us : List Token}

/-- The reader takes both signs where it takes one of them, and goes on in the same way. -/
theorem Reader.next_respell (r : Reader) (i : Nat) (k : TokenKind) :
    r.next i k.respell = r.next i k := by
  cases k <;> rfl

theorem Token.Alike.kind {t u : Token} (h : t.Alike u) : u.kind = t.kind.respell :=
  (congrArg Word.kind h.word).trans t.word.kind_respell

/-- So it takes as many tokens as before. -/
theorem Reader.run_alike (h : List.Forall₂ Token.Alike ts us) (r : Reader) (i : Nat) :
    r.run i us = r.run i ts := by
  induction h generalizing r i with
  | nil => rfl
  | cons htu _ ih =>
    rw [run, run, htu.kind, next_respell]
    split
    · exact ih _ _
    · rfl

/-- It stops at the same place and with the same brackets open. -/
theorem halt_alike (h : List.Forall₂ Token.Alike ts us) : halt us = halt ts :=
  Reader.run_alike h .start 0

/-- The token to blame is found from that place, so it is the same one. -/
theorem blame_alike (h : List.Forall₂ Token.Alike ts us) : blame us = blame ts := by
  rw [blame, blame, halt_alike h]

theorem map_word_alike (h : List.Forall₂ Token.Alike ts us) :
    us.map Token.word = (ts.map Token.word).map Word.respell := by
  induction h with
  | nil => rfl
  | cons htu _ ih => rw [List.map_cons, htu.word, ih, List.map_cons, List.map_cons]

/-- The tokens that nodes take their positions from are the same ones. Both signs lend their place,
and so the change brings in none and takes none away. -/
theorem lentPlaces_alike (h : List.Forall₂ Token.Alike ts us) :
    ((us.filter fun u => u.kind.lendsPlace).map Token.pos).map Position.shown =
      ((ts.filter fun t => t.kind.lendsPlace).map Token.pos).map Position.shown := by
  induction h with
  | nil => rfl
  | @cons t u _ _ htu _ ih =>
    have hlends : u.kind.lendsPlace = t.kind.lendsPlace := by
      rw [htu.kind]
      cases t.kind <;> rfl
    rw [List.filter_cons, List.filter_cons, hlends]
    split
    · rw [List.map_cons, List.map_cons, List.map_cons, List.map_cons, htu.shown, ih]
    · exact ih

/-- The token to blame, or the end, is in the same line and column. -/
theorem place_alike {p q : Position} (h : List.Forall₂ Token.Alike ts us) (hpq : q.shown = p.shown)
    (k : Nat) :
    ((us[k]?.map Token.pos).getD q).shown = ((ts[k]?.map Token.pos).getD p).shown := by
  induction h generalizing k with
  | nil => exact hpq
  | cons htu _ ih =>
    cases k with
    | zero => exact htu.shown
    | succ k => exact ih k

end Tokens

/-- A character that starts no token starts none after the change, and is none of the two signs. -/
theorem complete_starred (f : String) : (scan (starred f)).complete = (scan f).complete := by
  rw [Scan.complete, Scan.complete, (scan_alike f).left, List.isEmpty_map]

/-- The formula parses with either sign or with neither. This can be seen from where the reader
stops, without a tree. -/
theorem exists_parse_starred_iff (f : String) :
    (∃ n, parse (starred f) = .ok n) ↔ ∃ n, parse f = .ok n := by
  have htokens := (scan_alike f).tokens
  -- the reader has to get to the end of the tokens with no bracket open
  rw [exists_parse_iff, exists_parse_iff, complete_starred, halt_alike htokens, htokens.length_eq]

/-- Where both are refused, the errors are in the same line and column. For a text that cannot be
scanned this is where the scanner has stopped. -/
theorem shown_pos_of_parse_error {f : String} {fault fault' : Fault} (h : parse f = .error fault)
    (h' : parse (starred f) = .error fault') : fault'.pos.shown = fault.pos.shown := by
  have hscan := scan_alike f
  rw [pos_of_parse_error h, pos_of_parse_error h', complete_starred, blame_alike hscan.tokens]
  -- a token is blamed, or the end of what was scanned
  split
  · exact place_alike hscan.tokens hscan.stop _
  · exact hscan.stop

/-! ## The trees -/

namespace Node

/-- A tree with its positions changed. -/
def relocate (g : Position → Position) : Node → Node
  | number pos text => number (g pos) text
  | addSub pos op l r => addSub (g pos) op (l.relocate g) (r.relocate g)
  | mulDiv pos op l r => mulDiv (g pos) op (l.relocate g) (r.relocate g)
  | paren pos inner => paren (g pos) (inner.relocate g)
  | agg pos name => agg (g pos) name
  | hole what => hole what

/-- A tree without the byte offsets of its positions. -/
def shown (n : Node) : Node := n.relocate Position.shown

theorem bare_relocate (g : Position → Position) (n : Node) : (n.relocate g).bare = n.bare := by
  induction n with
  | addSub _ _ _ _ ihl ihr | mulDiv _ _ _ _ ihl ihr => rw [relocate, bare, ihl, ihr, bare]
  | paren _ _ ih => rw [relocate, bare, ih, bare]
  | number | agg | hole => rfl

theorem places_relocate (g : Position → Position) (n : Node) :
    (n.relocate g).places = n.places.map g := by
  induction n with
  | addSub _ _ _ _ ihl ihr | mulDiv _ _ _ _ ihl ihr =>
    rw [relocate, places, ihl, ihr, places, List.map_append, List.map_cons]
  | paren _ _ ih => rw [relocate, places, ih, places, List.map_cons]
  | number | agg | hole => rfl

theorem places_respell (n : Node) : n.respell.places = n.places := by
  induction n with
  | addSub _ _ _ _ ihl ihr | mulDiv _ _ _ _ ihl ihr => rw [respell, places, ihl, ihr, places]
  | paren _ _ ih => rw [respell, places, ih, places]
  | number | agg | hole => rfl

end Node

section Trees

variable {f : String} {n n' : Node}

/-- The tree of the changed formula is the respelled one, up to positions: it has the respelled
words, and the grammar has only one tree with them. -/
theorem bare_of_parse_starred (h : parse f = .ok n) (h' : parse (starred f) = .ok n') :
    n'.bare = n.respell.bare := by
  obtain ⟨htree, hwords⟩ := parse_sound h
  -- the respelled tree is found for the tokens of the changed formula
  obtain ⟨m, hm, hbare⟩ := parse_complete (parse_ok_iff.1 h').1 htree.respell
    (by rw [htree.words_respell, hwords, map_word_alike (scan_alike f).tokens])
  rw [← hbare, Except.ok.inj (h'.symm.trans hm)]

/-- The two trees have their nodes in the same lines and columns. Every node takes its place from a
token, and the tokens are where they were. -/
theorem shown_eq_of_parse (h : parse f = .ok n) (h' : parse (starred f) = .ok n') :
    n'.shown = n.respell.shown := by
  have hplaces : n'.places.map Position.shown = n.places.map Position.shown := by
    rw [(parseTokens_builtFrom (parse_ok_iff.1 h').2).places_eq,
      (parseTokens_builtFrom (parse_ok_iff.1 h).2).places_eq]
    exact lentPlaces_alike (scan_alike f).tokens
  -- trees that are the same but for positions are told apart by these alone
  refine Node.eq_of_places_eq ?_ ?_
  · rw [Node.shown, Node.shown, Node.bare_relocate, Node.bare_relocate, bare_of_parse_starred h h']
  · rw [Node.shown, Node.shown, Node.places_relocate, Node.places_relocate, Node.places_respell,
      hplaces]

end Trees

end KpiReport.Formula

namespace KpiReport

open Formula (GrammarTree Node starred)

/-- The changed formula is compiled as the formula is, but for what an error quotes. -/
theorem compileFormula_starred {f : String} {n n' : Node} (h : Formula.parse f = .ok n)
    (h' : Formula.parse (starred f) = .ok n') (d : Dimension) (ms : Measures) (m : Mappings) :
    compileFormula (starred f) d ms m =
      (compileFormula f d ms m).mapError (.quoting (starred f)) := by
  rw [compileFormula_of_parse d ms m h', compileFormula_of_parse d ms m h,
    Scope.compile_eq_of_bare_respell _ (Formula.bare_of_parse_starred h h')]
  exact Scope.compile_quoting ⟨f, d, ms, m⟩ (starred f) n

/-- **Either sign of multiplication means the same.** Of a formula and the one with every `×`
replaced by `*`, both parse or none does. If they do, their trees differ in that sign and in byte
offsets only, they have the same references and canonical text, and for every level and all
measures and mappings they are compiled to the same expression or fail with the same error but for
the formula that it quotes. If they do not, the syntax errors are in the same line and column. -/
theorem starred_alike (f : String) :
    ((∃ n, Formula.parse f = .ok n) ↔ ∃ n', Formula.parse (starred f) = .ok n') ∧
    (∀ n n', Formula.parse f = .ok n → Formula.parse (starred f) = .ok n' →
      n'.shown = n.respell.shown ∧ n'.references = n.references ∧ n'.canonical = n.canonical ∧
      ∀ d ms m, compileFormula (starred f) d ms m =
        (compileFormula f d ms m).mapError (.quoting (starred f))) ∧
    ∀ fault, Formula.parse f = .error fault → ∃ line column detail detail',
      parseFormula f = .error (.malformed f line column detail) ∧
      parseFormula (starred f) = .error (.malformed (starred f) line column detail') := by
  refine ⟨(Formula.exists_parse_starred_iff f).symm, fun n n' h h' => ?_, fun fault h => ?_⟩
  · have hbare := Formula.bare_of_parse_starred h h'
    exact ⟨Formula.shown_eq_of_parse h h', Node.references_eq_of_bare_respell hbare,
      Node.canonical_eq_of_bare_respell hbare, compileFormula_starred h h'⟩
  · cases h' : Formula.parse (starred f) with
    | ok n' =>
      -- that only one of them is refused was excluded above
      obtain ⟨n, hn⟩ := (Formula.exists_parse_starred_iff f).1 ⟨n', h'⟩
      rw [h] at hn
      cases hn
    | error fault' =>
      obtain ⟨hline, hcolumn⟩ :=
        Formula.Position.shown_eq_iff.1 (Formula.shown_pos_of_parse_error h h')
      refine ⟨fault.pos.line, fault.pos.column, fault.message, fault'.message, ?_, ?_⟩
      · rw [parseFormula, h]
        rfl
      · rw [parseFormula, h', ← hline, ← hcolumn]
        rfl

/-- A formula that parses, and one with a sign too many. The second is refused with either spelling,
in the same column. -/
theorem starred_alike_product :
    (∃ n n', Formula.parse "(a) × 2" = .ok n ∧ Formula.parse "(a) * 2" = .ok n' ∧
      n'.shown = n.respell.shown ∧
      ∀ d ms m, compileFormula "(a) * 2" d ms m =
        (compileFormula "(a) × 2" d ms m).mapError (.quoting "(a) * 2")) ∧
    (∃ fault, Formula.parse "2 × × 3" = .error fault) ∧
    ∃ line column detail detail',
      parseFormula "2 × × 3" = .error (.malformed "2 × × 3" line column detail) ∧
      parseFormula "2 * * 3" = .error (.malformed "2 * * 3" line column detail') := by
  have hproduct : starred "(a) × 2" = "(a) * 2" := by decide
  have hbroken : starred "2 × × 3" = "2 * * 3" := by decide
  let tree : Node := .mulDiv .start "×" (.agg .start "a") (.number .start "2")
  have htree : GrammarTree .expr tree :=
    .ofTerm (.mulDiv _ (by decide) (.ofFactor (.agg _ _)) (.number _ _))
  obtain ⟨n, hn, -⟩ :=
    Formula.parse_complete (f := "(a) × 2") (by decide +kernel) htree (by decide +kernel)
  obtain ⟨hiff, hsame, -⟩ := starred_alike "(a) × 2"
  obtain ⟨n', hn'⟩ := hiff.1 ⟨n, hn⟩
  obtain ⟨hshown, -, -, hcompile⟩ := hsame n n' hn hn'
  rw [hproduct] at hn' hcompile
  obtain ⟨-, -, hrefused⟩ := starred_alike "2 × × 3"
  rw [hbroken] at hrefused
  -- the reader stops at the second sign
  have hstop : ¬∃ n, Formula.parse "2 × × 3" = .ok n := by
    rw [Formula.exists_parse_iff]
    decide +kernel
  obtain ⟨fault, hfault⟩ : ∃ fault, Formula.parse "2 × × 3" = .error fault := by
    cases h : Formula.parse "2 × × 3" with
    | ok n => exact absurd ⟨n, h⟩ hstop
    | error fault => exact ⟨fault, rfl⟩
  exact ⟨⟨n, n', hn, hn', hshown, hcompile⟩, ⟨fault, hfault⟩, hrefused fault hfault⟩

end KpiReport
