import KpiReport.Compile
import KpiReport.Proofs.Formula.Attempts
import KpiReport.Proofs.Formula.Lexemes

/-!
# The scanner loses nothing

A formula text is tiled: white space, a token, white space, a token, and so on up to the end or to a
character that no rule matches. The scanner goes over the text once, keeps its place by adding up
one character after the other, and decides the length of a token by its first characters. This
module says what comes out, in terms of the whole text.

* **`Position.ofText`** — the place after a text, read off the text as a whole; the running place of
  the scanner is that of the text behind it (`Position.after_ofText`).
* **`Word.Longest`** — the longest match of its rule, at a place where no other rule matches. What
  the scanner takes is such a word (`longest_of_lexeme?`), and where it takes none, none can stand
  (`noRule_of_lexeme?`).
* **`Tiling`** — the tiling of a text, piece by piece. `tiling_scan` is the induction along the
  scanner; everything else is read off the tiling.
* **`scan_exact`** — the statement about formulas: offsets, texts, gaps, the end, and every position
  that is reported.
-/

namespace KpiReport.Formula

/-! ## Places -/

/-- The bytes of a text. -/
def byteSize (cs : List Char) : Nat := (String.ofList cs).utf8ByteSize

/-- Bytes add up: no character of UTF-8 depends on its neighbours. -/
theorem byteSize_append (as bs : List Char) : byteSize (as ++ bs) = byteSize as + byteSize bs := by
  simp [byteSize]

theorem byteSize_singleton (c : Char) : byteSize [c] = c.utf8Size := by
  simp [byteSize]

theorem byteSize_eq_zero_iff {cs : List Char} : byteSize cs = 0 ↔ cs = [] := by
  simp [byteSize]

/-- A text with a character has a byte, so a token that is not empty moves its end away from its
start. -/
theorem byteSize_pos {cs : List Char} (h : cs ≠ []) : 0 < byteSize cs := by
  obtain ⟨c, r, rfl⟩ := List.exists_cons_of_ne_nil h
  have hsplit : byteSize (c :: r) = c.utf8Size + byteSize r := by
    rw [← byteSize_singleton, ← byteSize_append, List.singleton_append]
  have hc := c.utf8Size_pos
  omega

namespace Position

/-- The place after a text: its bytes, its line breaks, and the characters after the last one. -/
def ofText (cs : List Char) : Position where
  offset := byteSize cs
  line := 1 + cs.count '\n'
  column := 1 + (cs.reverse.takeWhile (· ≠ '\n')).length

/-- One more character moves a place as if it had been part of the text before it. A line break
starts a new line; any other character is one column more, however many bytes it takes. -/
theorem step_ofText (cs : List Char) (c : Char) : (ofText cs).step c = ofText (cs ++ [c]) := by
  have hoffset : byteSize (cs ++ [c]) = byteSize cs + c.utf8Size := by
    rw [byteSize_append, byteSize_singleton]
  unfold step ofText
  rw [hoffset]
  by_cases hc : c = '\n'
  · rw [if_pos hc]
    simp [hc, Nat.add_assoc]
  · rw [if_neg hc]
    simp [hc]
    omega

/-- The running place of the scanner is that of the text behind it. The scanner keeps no text, only
the place, and loses nothing by that. -/
theorem after_ofText (before cs : List Char) :
    (ofText before).after cs = ofText (before ++ cs) := by
  induction cs generalizing before with
  | nil => rw [after_nil, List.append_nil]
  | cons c cs ih =>
    rw [after_cons, step_ofText, ih, List.append_assoc, List.singleton_append]

end Position

/-! ## Rules -/

/-- The characters of white space: tab, line feed, form feed, carriage return and space. -/
def spaces : List Char := ['\t', '\n', '\x0c', '\r', ' ']

/-- The test of the scanner is that for one of the five characters. -/
theorem isSpace_iff {c : Char} : isSpace c = true ↔ c ∈ spaces := by
  simp only [isSpace, spaces, Bool.or_eq_true, beq_iff_eq, List.mem_cons, List.not_mem_nil,
    or_false]
  tauto

/-- The word is a match of its rule at the head of the text, and of all matches of any rule there
it is the longest; the others are of the same rule. -/
structure Word.Longest (w : Word) (cs : List Char) : Prop where
  lexical : w.Lexical
  starts : w.text.toList <+: cs
  longest : ∀ v : Word, v.Lexical → v.text.toList <+: cs →
    v.kind = w.kind ∧ v.text.toList.length ≤ w.text.toList.length

/-- Neither white space nor a match of any rule stands at the head of the text. -/
structure NoRule (cs : List Char) : Prop where
  noSpace : ∀ c ∈ cs.head?, c ∉ spaces
  noWord : ∀ w : Word, w.Lexical → ¬ w.text.toList <+: cs

/-- What is matched at the head of a text is a part of its first characters of the class. -/
theorem prefix_takeWhile {p : Char → Bool} {v cs : List Char} (hv : v <+: cs)
    (hp : ∀ c ∈ v, p c = true) : v <+: cs.takeWhile p := by
  obtain ⟨r, rfl⟩ := hv
  rw [List.takeWhile_append_of_pos hp]
  exact List.prefix_append _ _

/-- No fraction at a point is longer than the one that is taken: the digits are taken as far as they
go. -/
theorem length_fraction_le {frac cs : List Char} (hf : IsDigits frac) (h : frac <+: cs) :
    frac.length + 1 ≤ (fraction ('.' :: cs)).length := by
  obtain ⟨f, fs, rfl⟩ := List.exists_cons_of_ne_nil hf.1
  obtain ⟨r, rfl⟩ := h
  have hfirst : isDigit f = true := hf.2 f List.mem_cons_self
  have hrest : fs <+: (fs ++ r).takeWhile isDigit :=
    prefix_takeWhile (List.prefix_append _ _) fun c hc => hf.2 c (List.mem_cons_of_mem f hc)
  have hlength := hrest.length_le
  rw [List.cons_append, fraction, if_pos hfirst]
  simp only [List.length_cons]
  omega

/-- No numeral at the head of a text is longer than the one that is taken. A point goes to the
numeral only together with a digit after it, so the whole parts of the two are the same and only the
fractions can differ. -/
theorem length_le_numeral {v cs : List Char} (hv : IsNumeral v) (h : v <+: cs) :
    v.length ≤ (numeral cs).length := by
  rcases hv with hv | ⟨whole, frac, hwhole, hfrac, rfl⟩
  · have hle := (prefix_takeWhile h hv.2).length_le
    rw [numeral, List.length_append]
    omega
  · obtain ⟨r, rfl⟩ := h
    have hpoint : ∀ c ∈ ('.' :: (frac ++ r)).head?, isDigit c = false := by
      intro c hc
      obtain rfl : '.' = c := Option.some.inj hc
      rfl
    have hcs : whole ++ '.' :: frac ++ r = whole ++ '.' :: (frac ++ r) := by simp
    -- both numerals have the same digits in front of the point
    obtain ⟨htake, hdrop⟩ := takeWhile_append_of_stop hwhole.2 hpoint
    have hle := length_fraction_le hfrac (List.prefix_append frac r)
    rw [hcs, numeral, htake, hdrop]
    simp only [List.length_append, List.length_cons]
    omega

/-- Where a word stands, one of its kind is taken, and none that is shorter. That the scanner tries
signs first, then numbers, then names makes no difference: no two of them start with one
character. -/
theorem lexeme?_of_lexical {v : Word} {cs : List Char} (hv : v.Lexical)
    (h : v.text.toList <+: cs) :
    ∃ w, lexeme? cs = some (v.kind, w) ∧ v.text.toList.length ≤ w.length := by
  cases hv with
  | @number text hn =>
    obtain ⟨c, r, hcr, hc⟩ := hn.exists_cons
    have hle := length_le_numeral hn h
    obtain ⟨s, rfl⟩ := h
    have hsign := signKind?_of_isIdentChar (isIdentChar_of_isDigit hc)
    refine ⟨_, ?_, hle⟩
    simp only [hcr, List.cons_append]
    simp [lexeme?, hsign, hc]
  | @ident text hi =>
    obtain ⟨c, r, hcr, hc, hr⟩ := hi
    obtain ⟨s, rfl⟩ := h
    have hsign := signKind?_of_isIdentChar (isIdentChar_of_isIdentStart hc)
    have hle := (prefix_takeWhile (List.prefix_append r s) hr).length_le
    -- a name is taken as far as its characters go, beyond the end of the word if need be
    refine ⟨c :: (r ++ s).takeWhile isIdentChar, ?_, ?_⟩
    · simp only [hcr, List.cons_append]
      simp [lexeme?, hsign, isDigit_of_isIdentStart hc, hc]
    · rw [hcr]
      simp only [List.length_cons]
      omega
  | @mark k text hk =>
    obtain ⟨s, rfl⟩ := h
    have hmark : (Word.mk k text).kind.isMark = true := by
      show k.spelling?.isSome = true
      rw [hk, Option.isSome_some]
    exact ⟨_, lexeme?_append (.mark hk) (.inl hmark), Nat.le_refl _⟩

/-- A fraction that is taken stands at the head of the text. -/
theorem isPrefix_fraction (cs : List Char) : fraction cs <+: cs := by
  unfold fraction
  split
  · split
    · simpa using List.takeWhile_prefix isDigit
    · exact List.nil_prefix
  · exact List.nil_prefix

/-- A numeral that is taken stands there as a whole: the fraction begins where the digits end. -/
theorem isPrefix_numeral (cs : List Char) : numeral cs <+: cs := by
  obtain ⟨r, hr⟩ := isPrefix_fraction (cs.dropWhile isDigit)
  have hsplit : cs.takeWhile isDigit ++ cs.dropWhile isDigit = cs :=
    List.takeWhile_append_dropWhile
  refine ⟨r, ?_⟩
  rw [numeral, List.append_assoc, hr, hsplit]

/-- What is taken for a token is what the text starts with. It is cut off there, and nothing is read
over. -/
theorem isPrefix_of_lexeme? {cs w : List Char} {k : TokenKind} (h : lexeme? cs = some (k, w)) :
    w <+: cs := by
  cases cs with
  | nil => simp [lexeme?] at h
  | cons c r =>
    simp only [lexeme?] at h
    -- one character, or what is taken of digits, or what is taken of a name
    split at h
    · obtain ⟨-, rfl⟩ := Prod.mk.inj (Option.some.inj h)
      exact ⟨r, rfl⟩
    · split at h
      · obtain ⟨-, rfl⟩ := Prod.mk.inj (Option.some.inj h)
        exact isPrefix_numeral _
      · split at h
        · obtain ⟨-, rfl⟩ := Prod.mk.inj (Option.some.inj h)
          simpa using List.takeWhile_prefix isIdentChar
        · simp at h

/-- What the scanner takes is the longest match of its rule, and no other rule matches there at all.
It takes by character classes, and `lexeme?_of_lexical` compares that with every word that could
stand in its place. -/
theorem longest_of_lexeme? {cs w : List Char} {k : TokenKind} (h : lexeme? cs = some (k, w)) :
    (Word.mk k (String.ofList w)).Longest cs where
  lexical := lexical_of_lexeme? h
  starts := by
    rw [String.toList_ofList]
    exact isPrefix_of_lexeme? h
  longest v hv hstarts := by
    obtain ⟨w', hw', hle⟩ := lexeme?_of_lexical hv hstarts
    obtain ⟨hkind, hword⟩ := Prod.mk.inj (Option.some.inj (hw'.symm.trans h))
    rw [String.toList_ofList, ← hword]
    exact ⟨hkind, hle⟩

/-- Where the scanner takes nothing, nothing can stand: any word there would have been taken, or a
longer one. -/
theorem noRule_of_lexeme? {c : Char} {r : List Char} (hc : ¬ isSpace c = true)
    (h : lexeme? (c :: r) = none) : NoRule (c :: r) where
  noSpace d hd := by
    obtain rfl : c = d := Option.some.inj hd
    exact fun hmem => hc (isSpace_iff.2 hmem)
  noWord w hw hstarts := by
    obtain ⟨w', hw', -⟩ := lexeme?_of_lexical hw hstarts
    rw [h] at hw'
    cases hw'

/-- At the end of a text there is nothing to match, for no word is empty. -/
theorem noRule_nil : NoRule [] where
  noSpace := nofun
  noWord w hw hstarts := by
    obtain ⟨w', hw', -⟩ := lexeme?_of_lexical hw hstarts
    cases hw'

/-! ## Tilings -/

/-- The text `cs`, which stands behind `before`, is tiled with white space and the tokens of the
scan, up to what the scan has left. -/
inductive Tiling : (before cs : List Char) → Scan → Prop where
  | stop {before gap left : List Char} (hgap : ∀ c ∈ gap, c ∈ spaces) (hleft : NoRule left) :
      Tiling before (gap ++ left) ⟨[], .ofText (before ++ gap), left⟩
  | token {before gap rest : List Char} {w : Word} {s : Scan} (hgap : ∀ c ∈ gap, c ∈ spaces)
      (hw : w.Longest (w.text.toList ++ rest))
      (hs : Tiling (before ++ gap ++ w.text.toList) rest s) :
      Tiling before (gap ++ (w.text.toList ++ rest))
        { s with tokens := ⟨w.kind, w.text, .ofText (before ++ gap)⟩ :: s.tokens }

/-- White space in front makes the first gap longer. The scanner drops it character by character,
while a tiling has one gap before each token, so a step of the one is folded into a piece of the
other. -/
theorem Tiling.cons_space {before cs : List Char} {c : Char} {s : Scan} (hc : c ∈ spaces)
    (h : Tiling (before ++ [c]) cs s) : Tiling before (c :: cs) s := by
  have hgaps : ∀ gap : List Char, (∀ x ∈ gap, x ∈ spaces) → ∀ x ∈ c :: gap, x ∈ spaces :=
    fun gap hgap => List.forall_mem_cons.2 ⟨hc, hgap⟩
  cases h with
  | @stop _ gap left hgap hleft =>
    have htiling : Tiling before (c :: gap ++ left) ⟨[], .ofText (before ++ c :: gap), left⟩ :=
      .stop (hgaps gap hgap) hleft
    simpa using htiling
  | @token _ gap rest w s hgap hw hs =>
    have htiling : Tiling before (c :: gap ++ (w.text.toList ++ rest))
        { s with tokens := ⟨w.kind, w.text, .ofText (before ++ c :: gap)⟩ :: s.tokens } :=
      .token (hgaps gap hgap) hw (by simpa using hs)
    simpa using htiling

/-- The scanner tiles the text in front of it. Induction along the scan, with the text behind it
carried on; the position that is passed around is that of this text. -/
theorem tiling_scanFrom (before cs : List Char) :
    Tiling before cs (scanFrom (.ofText before) cs) := by
  generalize hpos : Position.ofText before = pos
  fun_induction scanFrom pos cs generalizing before with
  | case1 pos =>
    have htiling : Tiling before ([] ++ []) ⟨[], .ofText (before ++ []), []⟩ :=
      .stop (List.forall_mem_nil _) noRule_nil
    simpa [hpos] using htiling
  | case2 pos c r hc ih =>
    -- the place after the space is that of a text with the space in it
    have hstep : Position.ofText (before ++ [c]) = pos.step c := by
      rw [← hpos, Position.step_ofText]
    exact (ih (before ++ [c]) hstep).cons_space (isSpace_iff.1 hc)
  | case3 pos c r hc hlex =>
    have htiling : Tiling before ([] ++ c :: r) ⟨[], .ofText (before ++ []), c :: r⟩ :=
      .stop (List.forall_mem_nil _) (noRule_of_lexeme? hc hlex)
    simpa [hpos] using htiling
  | case4 pos c r hc k w hlex s ih =>
    -- the token stands right at the place, and the rest of the text behind it
    obtain ⟨rest, hrest⟩ := isPrefix_of_lexeme? hlex
    have hafter : Position.ofText (before ++ w) = pos.after w := by
      rw [← hpos, Position.after_ofText]
    have hlater : Tiling (before ++ w) ((c :: r).drop w.length) s := ih (before ++ w) hafter
    have hlongest : (Word.mk k (String.ofList w)).Longest (c :: r) := longest_of_lexeme? hlex
    rw [← hrest] at hlongest
    rw [← hrest, List.drop_left] at hlater
    have htiling : Tiling before ([] ++ ((String.ofList w).toList ++ rest))
        { s with tokens := ⟨k, String.ofList w, .ofText (before ++ [])⟩ :: s.tokens } :=
      Tiling.token (w := ⟨k, String.ofList w⟩) (s := s) (List.forall_mem_nil _)
        (by simpa using hlongest) (by simpa using hlater)
    simpa [hpos, hrest] using htiling

/-- A formula is tiled from its start. -/
theorem tiling_scan (f : String) : Tiling [] f.toList (scan f) :=
  tiling_scanFrom [] f.toList

/-! ## What a tiling says -/

/-- The byte offset where a token ends. -/
def Token.ending (t : Token) : Nat := t.pos.offset + byteSize t.text.toList

/-- The byte offsets of the tokens, and of the place where scanning stopped. -/
def Scan.offsets (s : Scan) : List Nat :=
  s.tokens.map (fun t => t.pos.offset) ++ [s.stop.offset]

/-- Only white space stands between two byte offsets of a formula. -/
def Gap (f : String) (i j : Nat) : Prop :=
  ∃ before gap after, f.toList = before ++ gap ++ after ∧ byteSize before = i ∧
    byteSize (before ++ gap) = j ∧ ∀ c ∈ gap, c ∈ spaces

/-- What the scan says of the formula from a byte offset on. -/
structure Scan.Exact (f : String) (start : Nat) (s : Scan) : Prop where
  /-- The tokens stand one after another, and all of them before the end. -/
  increasing : s.offsets.Pairwise (· < ·)
  /-- Each token is the longest match at its place. -/
  token : ∀ t ∈ s.tokens, ∃ before after, f.toList = before ++ t.text.toList ++ after ∧
    t.pos = .ofText before ∧ t.word.Longest (t.text.toList ++ after)
  /-- From the end of one token to the next one, or to the place where scanning stopped, there is
  only white space. -/
  gaps : List.Forall₂ (Gap f) (start :: s.tokens.map Token.ending) s.offsets
  stop : ∃ before, f.toList = before ++ s.left ∧ s.stop = .ofText before
  noRule : NoRule s.left

/-- No word of the scanner is empty, else it would stand at the end of a text, where no word can. -/
theorem Word.Lexical.toList_ne_nil {w : Word} (hw : w.Lexical) : w.text.toList ≠ [] := by
  intro hnil
  have hstarts : w.text.toList <+: [] := ⟨[], (List.append_nil _).trans hnil⟩
  exact noRule_nil.noWord w hw hstarts

/-- No offset is before the text that is tiled, because each place is that of a longer text. By
induction on the tiling, which goes from one place to the next. -/
theorem Tiling.le_offsets {before cs : List Char} {s : Scan} (h : Tiling before cs s) :
    ∀ o ∈ s.offsets, byteSize before ≤ o := by
  induction h with
  | @stop before gap left hgap hleft =>
    intro o ho
    have ho : o = byteSize (before ++ gap) := List.mem_singleton.1 ho
    rw [ho, byteSize_append]
    omega
  | @token before gap rest w s hgap hw hs ih =>
    intro o ho
    have hsplit := byteSize_append (before ++ gap) w.text.toList
    have hgap := byteSize_append before gap
    -- this token stands behind its gap, and the later ones behind this token
    rcases List.mem_cons.1 ho with rfl | ho
    · show byteSize before ≤ byteSize (before ++ gap)
      omega
    · have hlater := ih o ho
      omega

/-- What a tiling says of the formula as a whole. The pieces know only the text before them, and
that is all that the offsets, the gaps and the stop are read off. Induction on the tiling. -/
theorem Tiling.exact {f : String} {before cs : List Char} {s : Scan} (h : Tiling before cs s)
    (hf : f.toList = before ++ cs) : s.Exact f (byteSize before) := by
  induction h with
  | @stop before gap left hgap hleft =>
    rw [← List.append_assoc] at hf
    have hlast : Gap f (byteSize before) (byteSize (before ++ gap)) :=
      ⟨before, gap, left, hf, rfl, rfl, hgap⟩
    exact ⟨List.pairwise_singleton _ _, nofun, .cons hlast .nil, ⟨before ++ gap, hf, rfl⟩, hleft⟩
  | @token before gap rest w s hgap hw hs ih =>
    -- the text after the token is the rest of the same formula
    have hplace : f.toList = before ++ gap ++ w.text.toList ++ rest := by
      rw [hf]
      simp
    have hfirst : Gap f (byteSize before) (byteSize (before ++ gap)) :=
      ⟨before, gap, w.text.toList ++ rest, by rw [hplace]; simp, rfl, rfl, hgap⟩
    have hexact := ih hplace
    have hends : byteSize (before ++ gap ++ w.text.toList) =
        byteSize (before ++ gap) + byteSize w.text.toList := byteSize_append _ _
    have hpos : 0 < byteSize w.text.toList := byteSize_pos hw.lexical.toList_ne_nil
    refine ⟨?_, ?_, ?_, hexact.stop, hexact.noRule⟩
    · -- all that follows stands behind the end of this token
      apply List.pairwise_cons.2 ⟨fun o ho => ?_, hexact.increasing⟩
      have hle := hs.le_offsets o ho
      show byteSize (before ++ gap) < o
      omega
    · apply List.forall_mem_cons.2 ⟨?_, hexact.token⟩
      exact ⟨before ++ gap, rest, hplace, rfl, hw⟩
    · have hgaps := hexact.gaps
      rw [hends] at hgaps
      exact .cons hfirst hgaps

/-! ## Reported places -/

/-- The place stands somewhere in the formula, and is that of the text before it. -/
def Position.In (p : Position) (f : String) : Prop :=
  ∃ before after, f.toList = before ++ after ∧ p = .ofText before

/-- The place where scanning stopped is one of the formula. -/
theorem Scan.Exact.stop_in {f : String} {start : Nat} {s : Scan} (h : s.Exact f start) :
    s.stop.In f := by
  obtain ⟨before, hf, hstop⟩ := h.stop
  exact ⟨before, s.left, hf, hstop⟩

/-- So is the place of every token. -/
theorem Scan.Exact.token_in {f : String} {start : Nat} {s : Scan} (h : s.Exact f start) {t : Token}
    (ht : t ∈ s.tokens) : t.pos.In f := by
  obtain ⟨before, after, hf, hpos, -⟩ := h.token t ht
  exact ⟨before, t.text.toList ++ after, by rw [hf, List.append_assoc], hpos⟩

theorem scan_exactFrom (f : String) : (scan f).Exact f 0 :=
  (tiling_scan f).exact rfl

theorem complete_iff {s : Scan} : s.complete = true ↔ s.left = [] :=
  List.isEmpty_iff

/-- The place where scanning stopped says how much of the formula is left. The text before it need
not be given as such: its bytes are known from the offset, and that is enough to tell the end from
any other place. -/
theorem Scan.Exact.left_eq_nil_iff {f : String} {s : Scan} {start : Nat} (h : s.Exact f start)
    {before after : List Char} (hf : f.toList = before ++ after) (hstop : s.stop = .ofText before) :
    s.left = [] ↔ after = [] := by
  obtain ⟨before', hf', hstop'⟩ := h.stop
  have hbefore : byteSize before = byteSize before' :=
    congrArg Position.offset (hstop.symm.trans hstop')
  have htext : byteSize (before ++ after) = byteSize (before' ++ s.left) := by
    rw [← hf, ← hf']
  rw [byteSize_append, byteSize_append] at htext
  -- two ways to cut one text at one offset leave equally many bytes
  rw [← byteSize_eq_zero_iff, ← byteSize_eq_zero_iff]
  omega

/-- Whatever place an error is reported at, it is one of the formula: that of a token, or that where
scanning stopped. -/
theorem pos_in_of_parse {f : String} {fault : Fault} (h : parse f = .error fault) :
    fault.pos.In f := by
  have hexact := scan_exactFrom f
  rw [pos_of_parse_error h]
  split
  · cases ht : (scan f).tokens[blame (scan f).tokens]? with
    | none => exact hexact.stop_in
    | some t => exact hexact.token_in (List.mem_of_getElem? ht)
  · exact hexact.stop_in

end KpiReport.Formula

namespace KpiReport

open Formula

/-- **Scanning loses nothing and every place is exact.** The tokens of a formula stand where they
say, one after another, each the longest match of its rule, with nothing but white space between
them. Scanning fails exactly if it comes to a character at which no rule matches, and then reports
the place of that character; otherwise it stops at the end of the formula. The place of every error
is that of the text before it, in bytes, in lines, and in characters since the last line break. -/
theorem scan_exact (f : String) :
    (scan f).Exact f 0 ∧
    ((scan f).complete = true ↔ (scan f).stop = .ofText f.toList) ∧
    ((scan f).complete = false ↔ ∃ before c after, f.toList = before ++ c :: after ∧
      (scan f).stop = .ofText before ∧ NoRule (c :: after)) ∧
    ((scan f).complete = false → ∃ detail,
      parseFormula f = .error (.malformed f (scan f).stop.line (scan f).stop.column detail)) ∧
    ∀ fault, Formula.parse f = .error fault → fault.pos.In f := by
  have hexact : (scan f).Exact f 0 := scan_exactFrom f
  obtain ⟨before, hf, hstop⟩ := hexact.stop
  have hcomplete : (scan f).complete = true ↔ (scan f).stop = .ofText f.toList := by
    rw [complete_iff]
    constructor
    · intro hleft
      rw [hstop, hf, hleft, List.append_nil]
    · intro hend
      exact (hexact.left_eq_nil_iff (List.append_nil _).symm hend).2 rfl
  -- scanning that is not complete has left a character, and no rule matches there
  have hstuck : (scan f).complete = false ↔ ∃ before c after, f.toList = before ++ c :: after ∧
      (scan f).stop = .ofText before ∧ NoRule (c :: after) := by
    rw [← Bool.not_eq_true, complete_iff]
    constructor
    · intro hne
      obtain ⟨c, after, hleft⟩ := List.exists_cons_of_ne_nil hne
      exact ⟨before, c, after, hleft ▸ hf, hstop, hleft ▸ hexact.noRule⟩
    · rintro ⟨before', c, after, hf', hstop', -⟩ hleft
      cases (hexact.left_eq_nil_iff hf' hstop').1 hleft
  have herror : (scan f).complete = false → ∃ detail,
      parseFormula f = .error (.malformed f (scan f).stop.line (scan f).stop.column detail) := by
    intro h
    have hparse : Formula.parse f = .error (.invalidText (scan f)) := by
      rw [Formula.parse, if_neg (by rw [h]; decide)]
    refine ⟨(scan f).message, ?_⟩
    rw [parseFormula, hparse]
    rfl
  exact ⟨hexact, hcomplete, hstuck, herror, fun fault => pos_in_of_parse⟩

end KpiReport
