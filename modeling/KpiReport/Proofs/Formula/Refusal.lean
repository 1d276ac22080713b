import KpiReport.Compile
import KpiReport.Proofs.Formula.Attempts

/-!
# Which token a syntax error points at

The first bad token of a formula is the first one, its end included, up to which the formula is not
the start of any grammatical one. A syntax error should point at it.

* **`exists_tree_of_reach`** / **`halt_of_tree`** — the grammatical formulas are those that the
  reader reads to their end.
* **`firstBad_halt`** — so the reader stops at the first bad token. Up to there the formula can be
  completed by what is still missing: an operand, and the closing brackets.
* **`parseFormula_error_position`** — the position of a syntax error is that of the token that is
  blamed where the reader stops. Tokens stand one after another, so it is that of the first bad
  token exactly if the two are the same, as they are where no bracket is open (`blame_of_closed`).
* **`position_before_firstBad`** — inside brackets they can be different.
-/

namespace KpiReport.Formula

/-! ## Grammatical words -/

/-- The words of a formula, and its end. -/
def sentence (ws : List Word) : List (Option Word) :=
  ws.map some ++ [none]

/-- A grammatical formula starts like this. -/
def Viable (us : List (Option Word)) : Prop :=
  ∃ n, GrammarTree .expr n ∧ us <+: sentence n.words

/-- The first word, the end included, up to which no grammatical formula starts like this. -/
def FirstBad (ws : List Word) (v : Nat) : Prop :=
  v ≤ ws.length ∧ ¬ Viable ((sentence ws).take (v + 1)) ∧
    ∀ k < v, Viable ((sentence ws).take (k + 1))

section Reaching

variable {ts : List Token}

/-- Tokens that the reader reads to their end are the words of a grammatical formula: the parser
accepts them then, and what it builds is a tree of the grammar. -/
theorem exists_tree_of_reach (hs : AllSpelled ts)
    (hend : Reach ts (0, .start) (ts.length, ⟨[], .complete⟩)) :
    ∃ n, GrammarTree .expr n ∧ n.words = ts.map Token.word := by
  rcases parseTokens_cases ts with ⟨n, hn, -⟩ | ⟨e, -, hne, -⟩
  · exact ⟨n, parseTokens_sound hs hn⟩
  · exact absurd (eq_halt hend (stuck_length _)).symm hne

/-- The other way round: the words of a tree are accepted, so the reader comes to their end. -/
theorem halt_of_tree {n : Node} (hn : GrammarTree .expr n) (hw : n.words = ts.map Token.word) :
    halt ts = (ts.length, ⟨[], .complete⟩) := by
  obtain ⟨m, hm, -⟩ := parseTokens_complete hn hw
  rcases parseTokens_cases ts with ⟨-, -, hend⟩ | ⟨e, he, -⟩
  · exact hend
  · rw [hm] at he
    cases he

end Reaching

/-! ## Completing what was read -/

/-- A bracket is open after an opening bracket and after a name, and all open ones were read. -/
structure Reader.Proper (a : Nat × Reader) : Prop where
  opened_of_opening : a.2.phase = .opening → a.2.opened ≠ []
  opened_of_named : a.2.phase = .named → a.2.opened ≠ []
  opened_lt : ∀ b ∈ a.2.opened, b < a.1

/-- Before the first token no bracket is open and none is needed. -/
theorem Reader.proper_start : Proper (0, start) :=
  ⟨by decide, by decide, by decide⟩

/-- A token with a given word. -/
def Word.token (w : Word) : Token := ⟨w.kind, w.text, .start⟩

theorem map_word_map_token (ws : List Word) : (ws.map Word.token).map Token.word = ws := by
  rw [List.map_map]
  exact List.map_id ws

theorem Word.spelled_closing : Word.closing.Spelled :=
  fun _ h => Option.some.inj h

/-- The reader gets from the end of `pre` to the end of the formula where `us` follows. -/
def Finishes (pre us : List Token) (r : Reader) : Prop :=
  Reach (pre ++ us) (pre.length, r) ((pre ++ us).length, ⟨[], .complete⟩)

section Completing

variable {ts : List Token} {v : Nat} {r : Reader} {a b : Nat × Reader}

/-- A move keeps this up. Only an opening bracket leads to the phase after one, only a name to the
phase after a name, and a bracket is remembered by the place that has just been read. -/
theorem Move.proper (h : Move ts a b) (ha : Reader.Proper a) : Reader.Proper b := by
  obtain ⟨i, r⟩ := a
  obtain ⟨j, r'⟩ := b
  obtain ⟨t, -, hnext, rfl⟩ := h
  have hlt : ∀ b ∈ r.opened, b < i + 1 := fun b hb => Nat.lt_succ_of_lt (ha.opened_lt b hb)
  -- in each of the five cases it is seen from the new phase and the open brackets
  rcases Reader.next_cases hnext with rfl | rfl | ⟨hphase, rfl⟩ | ⟨b, outer, hopened, rfl⟩ | rfl
  · exact ⟨nofun, nofun, hlt⟩
  · refine ⟨fun _ => List.cons_ne_nil _ _, nofun, ?_⟩
    rintro b (_ | ⟨_, hb⟩)
    · exact Nat.lt_succ_self i
    · exact hlt b hb
  · exact ⟨nofun, fun _ => ha.opened_of_opening hphase, hlt⟩
  · exact ⟨nofun, nofun, fun c hc => hlt c (hopened ▸ List.mem_cons_of_mem b hc)⟩
  · exact ⟨nofun, nofun, hlt⟩

/-- So every reader that comes from the start is proper. -/
theorem Reach.proper (h : Reach ts a b) (ha : Reader.Proper a) : Reader.Proper b := by
  induction h with
  | refl => exact ha
  | tail _ hmove ih => exact hmove.proper ih

/-- A token that can come, and then a way to the end, is a way to the end. -/
theorem Finishes.cons {pre us : List Token} {t : Token} {r r' : Reader}
    (hnext : r.next pre.length t.kind = some r') (h : Finishes (pre ++ [t]) us r') :
    Finishes pre (t :: us) r := by
  have hmove : Move (pre ++ t :: us) (pre.length, r) ((pre ++ [t]).length, r') :=
    ⟨t, by simp, hnext, by simp⟩
  rw [Finishes, List.append_assoc, List.singleton_append] at h
  exact h.head hmove

/-- Closing brackets finish a formula in which an operand has just been read, one for each that is
open. -/
theorem exists_finishes_complete (opened : List Nat) (pre : List Token) :
    ∃ us, AllSpelled us ∧ Finishes pre us ⟨opened, .complete⟩ := by
  induction opened generalizing pre with
  | nil =>
    refine ⟨[], nofun, ?_⟩
    rw [Finishes, List.append_nil]
  | cons b outer ih =>
    obtain ⟨us, hs, h⟩ := ih (pre ++ [Word.closing.token])
    exact ⟨Word.closing.token :: us, List.forall_mem_cons.2 ⟨Word.spelled_closing, hs⟩, .cons rfl h⟩

/-- A single word that completes an operand leaves the case before it. -/
theorem exists_finishes_of_next {pre : List Token} {w : Word} {opened : List Nat} (hw : w.Spelled)
    (hnext : r.next pre.length w.kind = some ⟨opened, .complete⟩) :
    ∃ us, AllSpelled us ∧ Finishes pre us r := by
  obtain ⟨us, hs, h⟩ := exists_finishes_complete opened (pre ++ [w.token])
  exact ⟨w.token :: us, List.forall_mem_cons.2 ⟨hw, hs⟩, .cons hnext h⟩

/-- Whatever was read can be finished: an operand that is still wanted can be any number, after a
name its bracket is closed, and then all brackets are. -/
theorem exists_finishes (hnamed : r.phase = .named → r.opened ≠ []) (pre : List Token) :
    ∃ us, AllSpelled us ∧ Finishes pre us r := by
  obtain ⟨opened, phase⟩ := r
  -- any number will do
  have hzero : Word.Spelled ⟨.number, "0"⟩ := nofun
  cases phase with
  | operand => exact exists_finishes_of_next hzero rfl
  | opening => exact exists_finishes_of_next hzero rfl
  | named =>
    cases opened with
    | nil => exact absurd rfl (hnamed rfl)
    | cons b outer => exact exists_finishes_of_next Word.spelled_closing rfl
  | complete => exact exists_finishes_complete opened pre

/-- Up to `v` the reader does not notice that other tokens follow, since it looks at one token at a
time and at none behind `v`. -/
theorem Reach.take_append (h : Reach ts (0, .start) (v, r)) (us : List Token) :
    Reach (ts.take v ++ us) (0, .start) (v, r) := by
  have hv : (ts.take v).length = v :=
    List.length_take_of_le (Reach.le_length h (Nat.zero_le _))
  -- the kinds before `v` are those of the original tokens
  refine h.congr fun k hk => ?_
  rw [List.getElem?_append_left (by omega), List.getElem?_take_of_lt hk]

/-- The words up to any place that the reader comes to start a grammatical formula. It is the
formula in which what is missing there has been added. -/
theorem exists_tree_of_take (hs : AllSpelled ts) (hreach : Reach ts (0, .start) (v, r)) :
    ∃ n, GrammarTree .expr n ∧ (ts.take v).map Token.word <+: n.words := by
  have hv : (ts.take v).length = v :=
    List.length_take_of_le (Reach.le_length hreach (Nat.zero_le _))
  obtain ⟨us, hus, hfinish⟩ :=
    exists_finishes (Reach.proper hreach Reader.proper_start).opened_of_named (ts.take v)
  -- the reader of the completed formula comes to `v` in the same way, and from there to the end
  have hstarts := hreach.take_append us
  have hspelled : AllSpelled (ts.take v ++ us) := by
    intro t ht
    rcases List.mem_append.1 ht with h | h
    · exact hs t (List.mem_of_mem_take h)
    · exact hus t h
  rw [Finishes, hv] at hfinish
  obtain ⟨n, hn, hwords⟩ := exists_tree_of_reach hspelled (hstarts.trans hfinish)
  exact ⟨n, hn, by rw [hwords, List.map_append]; exact List.prefix_append _ _⟩

end Completing

/-! ## The first bad token -/

section FirstBad

variable {ts : List Token} {ws us : List Word} {v k : Nat} {r : Reader}

/-- The word at a place of a sentence, or its end. -/
theorem getElem?_sentence (h : k ≤ ws.length) : (sentence ws)[k]? = some ws[k]? := by
  rcases Nat.lt_or_eq_of_le h with hk | rfl
  · rw [sentence, List.getElem?_append_left (by simpa using hk)]
    simp [hk]
  · simp [sentence]

/-- The start of a sentence that leaves out the end consists of words only. -/
theorem take_sentence (h : k < ws.length) :
    (sentence ws).take (k + 1) = (ws.take (k + 1)).map some := by
  rw [sentence, List.take_append_of_le_length (by rw [List.length_map]; exact h), List.map_take]

/-- What starts like another formula up to the word at `v`, or up to its end there, has the same
words up to there. That the end is the same counts too: it is one of the things to be found at a
place. -/
theorem getElem?_eq_of_take_prefix (hv : v ≤ ws.length)
    (h : (sentence ws).take (v + 1) <+: sentence us) (hk : k ≤ v) : us[k]? = ws[k]? := by
  have hlen : k < ((sentence ws).take (v + 1)).length := by
    rw [List.length_take_of_le (by simpa [sentence] using hv)]
    omega
  have hget : (sentence us)[k]? = some ws[k]? := by
    obtain ⟨more, hmore⟩ := h
    rw [← hmore, List.getElem?_append_left hlen, List.getElem?_take_of_lt (by omega),
      getElem?_sentence (by omega)]
  have hle : k ≤ us.length := by
    have := (List.getElem?_eq_some_iff.1 hget).1
    simp only [sentence, List.length_append, List.length_map, List.length_singleton] at this
    omega
  rw [getElem?_sentence hle] at hget
  exact Option.some.inj hget

/-- No grammatical formula goes beyond the place where the reader stops. The reader of such a
formula would come to the same place, with the same token there, and would be stuck as well; but it
comes to the end of its formula. -/
theorem not_viable_halt (hne : halt ts ≠ (ts.length, ⟨[], .complete⟩)) :
    ¬ Viable ((sentence (ts.map Token.word)).take ((halt ts).1 + 1)) := by
  have hreach := reach_halt ts
  have hv : (halt ts).1 ≤ ts.length := Reach.le_length hreach (Nat.zero_le _)
  rintro ⟨n, hn, hstarts⟩
  have hsame : ∀ k ≤ (halt ts).1,
      ts[k]?.map Token.kind = (n.words.map Word.token)[k]?.map Token.kind := by
    intro k hk
    have := getElem?_eq_of_take_prefix (by simpa using hv) hstarts hk
    rw [List.getElem?_map, this, List.getElem?_map, Option.map_map, Option.map_map]
    rfl
  -- the reader of the grammatical formula stops there as well
  have hhalt : halt ts = ((n.words.map Word.token).length, ⟨[], .complete⟩) := by
    rw [← halt_of_tree hn (map_word_map_token n.words).symm]
    exact eq_halt (Reach.congr hreach fun k hk => hsame k (Nat.le_of_lt hk))
      ((stuck_halt ts).congr (hsame _ (Nat.le_refl _)))
  have hlength : (halt ts).1 = (n.words.map Word.token).length := congrArg Prod.fst hhalt
  have hreader : (halt ts).2 = ⟨[], .complete⟩ := congrArg Prod.snd hhalt
  -- it stops at its end, so the tokens end there too and nothing was wrong with them
  refine hne (Prod.ext (Nat.le_antisymm hv ?_) hreader)
  have hnone := hsame _ (Nat.le_refl _)
  rw [List.getElem?_eq_none (Nat.le_of_eq hlength.symm), Option.map_none,
    Option.map_eq_none_iff] at hnone
  exact List.getElem?_eq_none_iff.1 hnone

/-- The reader stops at the first bad token: it cannot come there (`not_viable_halt`), and up to
there the formula can be completed (`exists_tree_of_take`). -/
theorem firstBad_halt (hs : AllSpelled ts) (hne : halt ts ≠ (ts.length, ⟨[], .complete⟩)) :
    FirstBad (ts.map Token.word) (halt ts).1 := by
  have hv : (halt ts).1 ≤ (ts.map Token.word).length := by
    rw [List.length_map]
    exact Reach.le_length (reach_halt ts) (Nat.zero_le _)
  refine ⟨hv, not_viable_halt hne, fun k hk => ?_⟩
  obtain ⟨n, hn, hstarts⟩ := exists_tree_of_take hs (reach_halt ts)
  refine ⟨n, hn, ?_⟩
  -- what starts the formula up to the stop starts it up to any place before
  have hshort : (ts.map Token.word).take (k + 1) <+: n.words := by
    rw [List.map_take] at hstarts
    exact (List.take_prefix_take_left hk).trans hstarts
  rw [take_sentence (by omega), sentence]
  exact (hshort.map some).trans (List.prefix_append _ _)

end FirstBad

/-! ## Where the tokens stand -/

namespace Position

/-- On an earlier line, or in an earlier column of the same line. -/
def Before (p q : Position) : Prop :=
  p.line < q.line ∨ p.line = q.line ∧ p.column < q.column

/-- Before a place or at it. -/
def AtMost (p q : Position) : Prop :=
  p.line < q.line ∨ p.line = q.line ∧ p.column ≤ q.column

variable {o p q : Position}

theorem AtMost.refl (p : Position) : p.AtMost p :=
  .inr ⟨rfl, Nat.le_refl _⟩

theorem Before.atMost (h : p.Before q) : p.AtMost q := by
  unfold Before at h
  unfold AtMost
  omega

/-- Places are compared by their line first, so these are small facts of arithmetic. -/
theorem Before.trans_atMost (h : o.Before p) (h' : p.AtMost q) : o.Before q := by
  unfold Before at *
  unfold AtMost at h'
  omega

/-- A character moves a place on, into a new line or a new column. -/
theorem before_step (p : Position) (c : Char) : p.Before (p.step c) := by
  unfold step
  split
  · exact .inl (Nat.lt_succ_self _)
  · exact .inr ⟨rfl, Nat.lt_succ_self _⟩

/-- A run of characters does not move a place back. -/
theorem atMost_after (p : Position) (cs : List Char) : p.AtMost (p.after cs) := by
  induction cs generalizing p with
  | nil => exact .refl p
  | cons c cs ih => exact ((before_step p c).trans_atMost (ih _)).atMost

/-- And it moves it on, if there is a character in it. -/
theorem before_after {cs : List Char} (h : 0 < cs.length) : p.Before (p.after cs) := by
  obtain ⟨c, r, rfl⟩ := List.exists_cons_of_length_pos h
  exact (before_step p c).trans_atMost (atMost_after _ r)

end Position

/-- The place of a token, or of the end after the last one. -/
def Scan.place (s : Scan) (k : Nat) : Position :=
  (s.tokens[k]?.map Token.pos).getD s.stop

/-- No token of a scan stands before the place where scanning began. Induction along the scan, for
all its tokens and its end at once. -/
theorem atMost_place_scanFrom (pos : Position) (cs : List Char) (k : Nat) :
    pos.AtMost ((scanFrom pos cs).place k) := by
  fun_induction scanFrom pos cs generalizing k with
  | case1 pos => exact .refl pos
  | case2 pos c r hspace ih => exact ((pos.before_step c).trans_atMost (ih k)).atMost
  | case3 pos c r hspace hlex => exact .refl pos
  | case4 pos c r hspace kind w hlex s ih =>
    -- the first token stands right here, all others behind it
    cases k with
    | zero => exact .refl pos
    | succ k =>
      exact ((Position.before_after (lexeme?_length_pos hlex)).trans_atMost (ih k)).atMost

/-- Each token stands before the next one, and the last one before the end. So different tokens have
different places, and a place says which token it is of. -/
theorem place_scanFrom_before (pos : Position) (cs : List Char) :
    ∀ i j, i < j → j ≤ (scanFrom pos cs).tokens.length →
      ((scanFrom pos cs).place i).Before ((scanFrom pos cs).place j) := by
  fun_induction scanFrom pos cs with
  | case1 pos => exact fun _ _ hij hj => absurd hj (Nat.not_le_of_lt (Nat.zero_lt_of_lt hij))
  | case2 pos c r hspace ih => exact ih
  | case3 pos c r hspace hlex =>
    exact fun _ _ hij hj => absurd hj (Nat.not_le_of_lt (Nat.zero_lt_of_lt hij))
  | case4 pos c r hspace kind w hlex s ih =>
    -- the token at `pos` is not empty, so all that follow stand further on
    intro i j hij hj
    obtain ⟨j, rfl⟩ := Nat.exists_eq_add_one_of_ne_zero (Nat.ne_zero_of_lt hij)
    cases i with
    | zero =>
      exact (Position.before_after (lexeme?_length_pos hlex)).trans_atMost
        (atMost_place_scanFrom _ _ j)
    | succ i => exact ih i j (Nat.lt_of_succ_lt_succ hij) (Nat.le_of_succ_le_succ hj)

/-! ## The token to blame -/

/-- The tokens that a verdict may come to blame. -/
def Verdict.AtMost (v : Nat) : Verdict → Prop
  | .ends token => token ≤ v
  | .abandoned bracket token => bracket ≤ v ∧ token ≤ v
  | .final token => token ≤ v

/-- Whether an attempt can be given up is a matter of how far its bracket is, and of neither
token. -/
theorem Verdict.AtMost.mismatch {v b token : Nat} (hb : b ≤ v) (ht : token ≤ v) :
    (Verdict.mismatch b token).AtMost v := by
  unfold Verdict.mismatch
  split
  · exact ht
  · exact ⟨hb, ht⟩

/-- What a bracket makes of a verdict blames no token further on: the same one, or the sign in front
of an attempt that was given up. -/
theorem Verdict.AtMost.within {v b : Nat} (hb : b ≤ v) {verdict : Verdict}
    (h : verdict.AtMost v) : (verdict.within b).AtMost v := by
  cases verdict with
  | ends token => exact .mismatch hb h
  | abandoned inner token =>
    rw [Verdict.within]
    split
    · exact ⟨hb, h.2⟩
    · exact .mismatch hb (Nat.le_trans (Nat.sub_le _ _) h.1)
  | final token => exact h

/-- No verdict on a reader goes beyond the place where it has stopped, as all its brackets stand
before that. -/
theorem Reader.verdict_atMost {r : Reader} {v : Nat} (h : Proper (v, r)) :
    (r.verdict v).AtMost v := by
  have hstart : (Verdict.ends (if r.phase = .operand then v - 1 else v)).AtMost v := by
    split
    · exact Nat.sub_le v 1
    · exact Nat.le_refl v
  rw [verdict]
  exact List.foldlRecOn r.opened _ hstart fun verdict hverdict b hb =>
    hverdict.within (Nat.le_of_lt (h.opened_lt b hb))

/-- No token behind the one that stops the reader is blamed, though one in front of it may be. Blame
moves back from the stop, and never forward. -/
theorem Reader.blamed_le {r : Reader} {v : Nat} (h : Proper (v, r)) : r.blamed v ≤ v := by
  have hverdict := verdict_atMost h
  rw [blamed]
  -- which bracket a token is blamed for makes no difference to the bound
  split
  · exact Nat.le_refl v
  · next heq =>
    rw [heq] at hverdict
    split
    · exact hverdict.2
    · exact Nat.le_refl v
  · next heq =>
    rw [heq] at hverdict
    exact hverdict

/-- Where no bracket is open, no attempt was given up that could be blamed instead. -/
theorem blame_of_closed {ts : List Token} (h : (halt ts).2.opened = []) :
    blame ts = (halt ts).1 := by
  rw [blame, Reader.blamed, Reader.verdict, h]
  rfl

/-- So a syntax error can only point too early. -/
theorem blame_le (ts : List Token) : blame ts ≤ (halt ts).1 :=
  Reader.blamed_le (Reach.proper (reach_halt ts) Reader.proper_start)

end KpiReport.Formula

/-! ## Syntax errors -/

namespace KpiReport

open Formula

/-- A syntax error with the line and column of a place. -/
def CompileError.PointsAt (err : CompileError) (p : Position) : Prop :=
  ∃ formula detail, err = .malformed formula p.line p.column detail

/-- An error points at one place, which is not before itself. -/
theorem CompileError.PointsAt.not_before {err : CompileError} {p q : Position} (hp : err.PointsAt p)
    (hq : err.PointsAt q) : ¬ p.Before q := by
  obtain ⟨f, detail, rfl⟩ := hp
  obtain ⟨f', detail', heq⟩ := hq
  injection heq with _ hline hcolumn _
  unfold Position.Before
  omega

/-- A failure about a token points at the place of the token, and one about none at the end. -/
theorem CompileError.PointsAt.ofFault {f : String} {e : Failure} {s : Scan} {k : Nat}
    (h : e.found = s.tokens[k]?) :
    (CompileError.ofFault f (.unexpected e s.stop)).PointsAt (s.place k) := by
  refine ⟨f, e.message, ?_⟩
  rw [CompileError.ofFault, Fault.pos, h]
  rfl

/-- Of a formula that scans, the errors are those of its tokens. The end of the text is added for a
failure that found no token. -/
theorem parseFormula_eq_error_iff {f : String} {err : CompileError}
    (hlex : (scan f).complete = true) :
    parseFormula f = .error err ↔
      ∃ e, parseTokens (scan f).tokens = .error e ∧
        err = .ofFault f (.unexpected e (scan f).stop) := by
  rw [parseFormula, Formula.parse, if_pos hlex]
  cases parseTokens (scan f).tokens with
  | ok n =>
    constructor
    · intro h
      cases h
    · rintro ⟨e, he, -⟩
      cases he
  | error e =>
    constructor
    · intro h
      exact ⟨e, rfl, (Except.error.inj h).symm⟩
    · rintro ⟨e', he, rfl⟩
      cases he
      rfl

/-- A formula of which the reader does not come to the end is refused, at the place of the token to
blame. -/
theorem exists_parseFormula_error {f : String} (hlex : (scan f).complete = true)
    (hne : halt (scan f).tokens ≠ ((scan f).tokens.length, ⟨[], .complete⟩)) :
    ∃ err, parseFormula f = .error err ∧ err.PointsAt ((scan f).place (blame (scan f).tokens)) := by
  rcases parseTokens_cases (scan f).tokens with ⟨n, -, hend⟩ | ⟨e, he, -, hfound⟩
  · exact absurd hend hne
  · exact ⟨_, (parseFormula_eq_error_iff hlex).2 ⟨e, he, rfl⟩, .ofFault hfound⟩

/-- The position of a syntax error is that of the token that is blamed where the reader stops, and
the reader stops at the first bad token. -/
theorem parseFormula_error_position {f : String} {err : CompileError}
    (hlex : (scan f).complete = true) (herr : parseFormula f = .error err) :
    let ts := (scan f).tokens
    FirstBad (ts.map Token.word) (halt ts).1 ∧
      err.PointsAt ((scan f).place (blame ts)) ∧
      (err.PointsAt ((scan f).place (halt ts).1) ↔ blame ts = (halt ts).1) := by
  intro ts
  obtain ⟨e, he, rfl⟩ := (parseFormula_eq_error_iff hlex).1 herr
  rcases parseTokens_cases ts with ⟨n, hn, -⟩ | ⟨e', he', hne, hfound⟩
  · rw [hn] at he
    cases he
  · obtain rfl := Except.error.inj (he.symm.trans he')
    have hpoints := CompileError.PointsAt.ofFault (f := f) hfound
    refine ⟨firstBad_halt (fun t ht => spelled_of_mem_scan ht) hne, hpoints, fun h => ?_,
      fun h => h ▸ hpoints⟩
    -- tokens at different places have different positions
    refine Nat.le_antisymm (blame_le ts) (Nat.le_of_not_lt fun hlt => hpoints.not_before h ?_)
    exact place_scanFrom_before _ _ _ _ hlt (Reach.le_length (reach_halt ts) (Nat.zero_le _))

/-- Outside brackets the error is about the bracket that cannot come. -/
theorem parseFormula_error_position_top :
    ∃ err, (scan "1+)").complete = true ∧ parseFormula "1+)" = .error err ∧
      FirstBad ((scan "1+)").tokens.map Token.word) 2 ∧ err.PointsAt ((scan "1+)").place 2) := by
  have hlex : (scan "1+)").complete = true := by decide +kernel
  have hhalt : halt (scan "1+)").tokens = (2, ⟨[], .operand⟩) := by decide +kernel
  obtain ⟨err, herr, -⟩ := exists_parseFormula_error hlex (by rw [hhalt]; decide +kernel)
  obtain ⟨hbad, -, hiff⟩ := parseFormula_error_position hlex herr
  have hpoints := hiff.2 (blame_of_closed (by rw [hhalt]))
  rw [hhalt] at hbad hpoints
  exact ⟨err, hlex, herr, hbad, hpoints⟩

/-- In brackets a sign without an operand is left out of the sum before it, and the error is about
the sign. -/
theorem position_before_firstBad :
    ∃ err, (scan "(1+)").complete = true ∧ parseFormula "(1+)" = .error err ∧
      FirstBad ((scan "(1+)").tokens.map Token.word) 3 ∧
      err.PointsAt ⟨2, 1, 3⟩ ∧ ¬ err.PointsAt ((scan "(1+)").place 3) := by
  have hlex : (scan "(1+)").complete = true := by decide +kernel
  have hhalt : halt (scan "(1+)").tokens = (3, ⟨[0], .operand⟩) := by decide +kernel
  have hne : halt (scan "(1+)").tokens ≠ ((scan "(1+)").tokens.length, ⟨[], .complete⟩) := by
    rw [hhalt]
    decide +kernel
  obtain ⟨err, herr, hpoints⟩ := exists_parseFormula_error hlex hne
  have hplace : (scan "(1+)").place (blame (scan "(1+)").tokens) = ⟨2, 1, 3⟩ := by decide +kernel
  have hbad := firstBad_halt (fun t ht => spelled_of_mem_scan ht) hne
  rw [hhalt] at hbad
  rw [hplace] at hpoints
  refine ⟨err, hlex, herr, hbad, hpoints, fun h => hpoints.not_before h ?_⟩
  exact .inr (by decide +kernel)

end KpiReport
