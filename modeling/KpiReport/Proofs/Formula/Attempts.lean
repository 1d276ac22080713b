import KpiReport.Proofs.Formula.Acceptance
import KpiReport.Proofs.Formula.Reader

/-!
# Where the attempts of the parser fail

Every rule of the parser is followed by the reader that goes over the same tokens.

* **`Read`** / **`Refused`** — what the reader makes of the tokens from some place on: an operand, a
  product or a sum ends at another place, or the reader stops at one.
* **`Report`** — what a rule tells: it does not apply, it has read all that belongs to it, it has
  given up a signed item and ends before the sign, or it has failed. In the last three cases the
  reader stops somewhere, the rule knows the place, and a failure names the token that is blamed by
  the brackets opened since.
* **`report_expr`** — sums report like this, and so do terms and factors. A swallowed failure moves
  the cursor back but not the depth, which stays that of the place where the reader stops.
* **`parseTokens_cases`** — so token lists are accepted if the reader comes to their end, and else
  refused with the blame that the reader gives. For formulas that is `exists_parse_iff` and
  `pos_of_parse_error`.
-/

namespace KpiReport.Formula

/-! ## Cursors -/

namespace Cursor

section Moved

variable (x b : Cursor) (e : Failure)

/-- Where a cursor stands is not changed by what it remembers: a copy that is taken over decides the
place, and learning or noting leaves it. -/
@[simp] theorem index_accept : (x.accept b).index = b.index := by
  unfold accept; split <;> rfl

@[simp] theorem index_note : (x.note e).index = x.index := by
  unfold note; split <;> rfl

@[simp] theorem index_learn : (x.learn e b).index = x.index := by
  unfold learn; split
  · rfl
  · split <;> rfl

@[simp] theorem index_skip (k : Nat) : (x.skip k).index = x.index + k := rfl

@[simp] theorem depth_skip (k : Nat) : (x.skip k).depth = x.depth := rfl

/-- Taking over a copy loses no depth: the deeper of the two failures stays. -/
theorem depth_accept : (x.accept b).depth = max x.depth b.depth := by
  unfold accept
  split
  · next h => exact (Nat.max_eq_right h).symm
  · next h => exact (Nat.max_eq_left (Nat.le_of_not_le h)).symm

end Moved

variable {ts : List Token} {x b : Cursor} {e : Failure} {v : Nat}

/-- A copy whose failures are as deep as those before it is taken over as it is. -/
theorem accept_of_le (h : x.depth ≤ b.depth) : x.accept b = b := by
  rw [accept, if_pos h]

/-- A failure at the cursor is not noted when a deeper one is known. -/
theorem note_of_lt (h : x.index < x.depth) : x.note e = x := by
  rw [note, if_neg (by omega)]

/-- Otherwise it is, and the depth is then that of the cursor. -/
theorem note_of_le (h : x.depth ≤ x.index) :
    x.note e = { x with deepest := some e, depth := x.index } := by
  rw [note, if_pos h]

/-- There are three ways to learn from a copy that has failed. One that knows of a deeper failure
hands that on, whatever it has failed with itself. -/
theorem learn_of_lt (h : x.depth < b.depth) :
    x.learn e b = { x with deepest := b.deepest, depth := b.depth } := by
  rw [learn, if_pos h]

/-- One that has come as far as the failures known so far, and knows of none behind it, hands on its
own. -/
theorem learn_of_le (h : b.depth ≤ x.depth) (hi : x.depth ≤ b.index) :
    x.learn e b = { x with deepest := some e, depth := b.index } := by
  rw [learn, if_neg (by omega), if_pos hi, Nat.max_eq_left (by omega)]

/-- One that has not come as far teaches nothing. -/
theorem learn_of_index_lt (h : b.depth ≤ x.depth) (hi : b.index < x.depth) :
    x.learn e b = x := by
  rw [learn, if_neg (by omega), if_neg (by omega)]

/-- A copy that is a few tokens ahead and has remembered nothing, such as that of a failed
reference, is as deep as it is far. -/
theorem learn_skip (hx : x.depth ≤ x.index) (k : Nat) :
    x.learn e (x.skip k) = { x with deepest := some e, depth := x.index + k } :=
  learn_of_le (Nat.le_refl _) (Nat.le_add_right_of_le hx)

/-- The cursor stands in the token list where its index says. -/
def At (ts : List Token) (x : Cursor) : Prop :=
  x.rest = ts.drop x.index

namespace At

/-- The token at the cursor is the one that its index names. -/
theorem head? (h : At ts x) : x.rest.head? = ts[x.index]? := by
  rw [h, List.head?_drop]

/-- The same where the rest is written out. -/
theorem getElem? (h : At ts x) {t : Token} {r : List Token} (hr : x.rest = t :: r) :
    ts[x.index]? = some t := by
  rw [← h.head?, hr, List.head?_cons]

/-- How much is left is known from the index, which turns bounds on the rest into bounds on
places. -/
theorem length_rest (h : At ts x) : x.rest.length = ts.length - x.index := by
  rw [h, List.length_drop]

theorem skip (h : At ts x) (k : Nat) : At ts (x.skip k) := by
  rw [At, Cursor.skip, h, List.drop_drop]

/-- A cursor that has only learned something stands where it stood. -/
theorem of_eq (h : At ts x) {y : Cursor} (hrest : y.rest = x.rest) (hindex : y.index = x.index) :
    At ts y := by
  rw [At, hrest, hindex, h]

end At

/-- The deepest failure is about the token at the place `v`. -/
def Knows (ts : List Token) (v : Nat) (x : Cursor) : Prop :=
  x.depth = v ∧ ∃ e, x.deepest = some e ∧ e.found = ts[v]?

namespace Knows

/-- A copy that has got further is believed: after it was given up, the cursor knows what it
knew. -/
theorem learn (h : Knows ts v b) (hx : x.depth < v) (e : Failure) : Knows ts v (x.learn e b) := by
  obtain ⟨rfl, hdeepest⟩ := h
  rw [learn_of_lt hx]
  exact ⟨rfl, hdeepest⟩

/-- What is known of a place further on is not overwritten by a failure here. -/
theorem note (h : Knows ts v x) (hx : x.index < v) (e : Failure) : x.note e = x := by
  obtain ⟨rfl, -⟩ := h
  exact note_of_lt hx

end Knows

end Cursor

/-! ## What the reader makes of the tokens -/

/-- An operand, a product or a sum stands from `i` to `j`, whatever is open around it. -/
def Read (ts : List Token) (i j : Nat) : Prop :=
  ∀ outer, Reach ts (i, ⟨outer, .operand⟩) (j, ⟨outer, .complete⟩)

/-- An operand, a product or a sum is wanted at `i`, and the reader stops at `v`. The brackets
opened since are those in `opened`. -/
structure Refused (ts : List Token) (i v : Nat) (opened : List Nat) (phase : Phase) : Prop where
  reach : ∀ outer, Reach ts (i, ⟨outer, .operand⟩) (v, ⟨opened ++ outer, phase⟩)
  stuck : ∀ outer, Stuck ts (v, ⟨opened ++ outer, phase⟩)
  unfinished : phase = .complete → opened ≠ []

/-- A sign of either kind. -/
def TokenKind.isSign (k : TokenKind) : Bool :=
  k.isAddOp || k.isMulOp

namespace Reader

variable {outer : List Nat} {i : Nat} {k : TokenKind}

/-- After an operand any sign can come, and then an operand is wanted. -/
theorem next_sign (hk : k.isSign = true) :
    next ⟨outer, .complete⟩ i k = some ⟨outer, .operand⟩ := by
  cases k <;> simp_all [TokenKind.isSign, TokenKind.isAddOp, TokenKind.isMulOp, next]

/-- After an opening bracket all but a name is treated as where an operand is wanted. -/
theorem next_opening (hk : k ≠ .ident) :
    next ⟨outer, .opening⟩ i k = next ⟨outer, .operand⟩ i k := by
  cases k <;> simp_all [next]

/-- Where an operand is wanted, only a number or an opening bracket can come. -/
theorem next_operand (hn : k ≠ .number) (ho : k ≠ .openParen) :
    next ⟨outer, .operand⟩ i k = none := by
  cases k <;> simp_all [next]

theorem next_named (hc : k ≠ .closeParen) : next ⟨outer, .named⟩ i k = none := by
  cases k <;> simp_all [next]

/-- After an operand, only a sign or a closing bracket can come. -/
theorem next_complete (hc : k ≠ .closeParen) (hk : k.isSign = false) :
    next ⟨outer, .complete⟩ i k = none := by
  cases k <;> simp_all [TokenKind.isSign, TokenKind.isAddOp, TokenKind.isMulOp, next]

end Reader

section Reading

variable {ts : List Token} {i j v : Nat} {t : Token} {opened : List Nat} {phase : Phase}

theorem Move.of_next {r r' : Reader} (ht : ts[i]? = some t) (h : r.next i t.kind = some r') :
    Move ts (i, r) (i + 1, r') :=
  ⟨t, ht, h, rfl⟩

/-- After an opening bracket that no name follows, an operand is wanted. A run from there that has a
first token is then a run from the bracket too, as the phases differ at names only. -/
theorem Reach.of_opening {outer : List Nat} {b : Nat × Reader}
    (h : Reach ts (i, ⟨outer, .operand⟩) b) (hlt : i < b.1)
    (hident : ∀ t, ts[i]? = some t → t.kind ≠ .ident) : Reach ts (i, ⟨outer, .opening⟩) b := by
  rcases h.cases_head with rfl | ⟨c, ⟨t, ht, hnext, hindex⟩, hcb⟩
  · exact absurd hlt (Nat.lt_irrefl _)
  · exact .head ⟨t, ht, (Reader.next_opening (hident t ht)).trans hnext, hindex⟩ hcb

namespace Read

/-- What stands from one place to another has a token. -/
theorem lt (h : Read ts i j) : i < j :=
  Reach.lt_of_ne (h []) (by simp)

/-- A number is read in one move. -/
theorem number (ht : ts[i]? = some t) (hk : t.kind = .number) : Read ts i (i + 1) := by
  intro outer
  refine .single (Move.of_next ht ?_)
  rw [hk]
  rfl

/-- Behind an operand and a sign the reader wants another operand. -/
theorem reach_sign (h : Read ts i j) (ht : ts[j]? = some t) (hk : t.kind.isSign = true)
    (outer : List Nat) : Reach ts (i, ⟨outer, .operand⟩) (j + 1, ⟨outer, .operand⟩) :=
  (h outer).tail (Move.of_next ht (Reader.next_sign hk))

/-- Two operands with a sign between them are one, as far as the reader can tell: it keeps no track
of which signs bind tighter. -/
theorem append_sign (h : Read ts i j) (ht : ts[j]? = some t) (hk : t.kind.isSign = true) {k : Nat}
    (h' : Read ts (j + 1) k) : Read ts i k :=
  fun outer => (h.reach_sign ht hk outer).trans (h' outer)

end Read

section Bracket

variable {o : Token}

/-- An opening bracket where an operand is wanted is remembered by its place. -/
theorem Reach.opening {outer : List Nat} (ho : ts[i]? = some o) (hok : o.kind = .openParen) :
    Reach ts (i, ⟨outer, .operand⟩) (i + 1, ⟨i :: outer, .opening⟩) := by
  refine .single (Move.of_next ho ?_)
  rw [hok]
  rfl

/-- A name between brackets is read in three moves, and the bracket is closed again. -/
theorem Read.reference {n p : Token} (ho : ts[i]? = some o) (hok : o.kind = .openParen)
    (hn : ts[i + 1]? = some n) (hnk : n.kind = .ident) (hp : ts[i + 2]? = some p)
    (hpk : p.kind = .closeParen) : Read ts i (i + 3) := by
  intro outer
  refine ((Reach.opening ho hok).tail (c := (i + 2, ⟨i :: outer, .named⟩)) ?_).tail ?_
  · refine Move.of_next hn ?_
    rw [hnk]
    rfl
  · refine Move.of_next hp ?_
    rw [hpk]
    rfl

/-- A sum between brackets is read as an operand, with one bracket more open all the way through
it. -/
theorem Read.bracket {p : Token} (ho : ts[i]? = some o) (hok : o.kind = .openParen)
    (hident : ∀ t, ts[i + 1]? = some t → t.kind ≠ .ident) (h : Read ts (i + 1) j)
    (hp : ts[j]? = some p) (hpk : p.kind = .closeParen) : Read ts i (j + 1) := by
  intro outer
  have hinner := Reach.of_opening (h (i :: outer)) h.lt hident
  refine ((Reach.opening ho hok).trans hinner).tail (Move.of_next hp ?_)
  rw [hpk]
  rfl

end Bracket

namespace Refused

variable {o : Token}

/-- Nothing that starts an operand: the reader stops where it stands, and no bracket was opened. -/
theorem operand (h : ∀ t, ts[i]? = some t → t.kind ≠ .number ∧ t.kind ≠ .openParen) :
    Refused ts i i [] .operand where
  reach _ := .refl
  stuck _ t ht := Reader.next_operand (h t ht).1 (h t ht).2
  unfinished h := by cases h

/-- A refusal behind a sign is one of the whole: up to the sign all is read. -/
theorem after_sign (hread : Read ts i j) (ht : ts[j]? = some t) (hk : t.kind.isSign = true)
    (h : Refused ts (j + 1) v opened phase) : Refused ts i v opened phase where
  reach outer := (hread.reach_sign ht hk outer).trans (h.reach outer)
  stuck := h.stuck
  unfinished := h.unfinished

/-- Nothing that can follow an opening bracket. The reader stops behind it, with the bracket
open. -/
theorem opening (ho : ts[i]? = some o) (hok : o.kind = .openParen)
    (hident : ∀ t, ts[i + 1]? = some t → t.kind ≠ .ident)
    (h : Refused ts (i + 1) (i + 1) [] .operand) : Refused ts i (i + 1) [i] .opening where
  reach outer := Reach.opening ho hok
  stuck outer t ht := (Reader.next_opening (hident t ht)).trans (h.stuck (i :: outer) t ht)
  unfinished h := by cases h

/-- No closing bracket after a name. This is the one place where the reader is two tokens ahead of
the bracket that a reference was tried at. -/
theorem named {n : Token} (ho : ts[i]? = some o) (hok : o.kind = .openParen)
    (hn : ts[i + 1]? = some n) (hnk : n.kind = .ident)
    (hp : ∀ t, ts[i + 2]? = some t → t.kind ≠ .closeParen) : Refused ts i (i + 2) [i] .named where
  reach outer := by
    refine (Reach.opening ho hok).tail (Move.of_next hn ?_)
    rw [hnk]
    rfl
  stuck _ t ht := Reader.next_named (hp t ht)
  unfinished h := by cases h

/-- Neither a sign nor a closing bracket after a sum between brackets. The sum itself is read; it is
only the bracket that is left open. -/
theorem unclosed (ho : ts[i]? = some o) (hok : o.kind = .openParen)
    (hident : ∀ t, ts[i + 1]? = some t → t.kind ≠ .ident) (h : Read ts (i + 1) j)
    (hnext : ∀ t, ts[j]? = some t → t.kind ≠ .closeParen ∧ t.kind.isSign = false) :
    Refused ts i j [i] .complete where
  reach outer := (Reach.opening ho hok).trans (Reach.of_opening (h (i :: outer)) h.lt hident)
  stuck _ t ht := Reader.next_complete (hnext t ht).1 (hnext t ht).2
  unfinished _ := by simp

/-- The reader stops further inside the brackets, and this bracket is the outermost of those that
are open there. -/
theorem inside (ho : ts[i]? = some o) (hok : o.kind = .openParen)
    (hident : ∀ t, ts[i + 1]? = some t → t.kind ≠ .ident) (hv : i + 1 < v)
    (h : Refused ts (i + 1) v opened phase) : Refused ts i v (opened ++ [i]) phase where
  reach outer := by
    rw [List.append_assoc]
    exact (Reach.opening ho hok).trans (Reach.of_opening (h.reach (i :: outer)) hv hident)
  stuck outer := by
    rw [List.append_assoc]
    exact h.stuck (i :: outer)
  unfinished _ := by simp

end Refused

end Reading

/-! ## What a rule tells -/

/-- The signs that a sum, a product or a factor goes on with. -/
def Level.signs : Level → TokenKind → Bool
  | .expr => TokenKind.isSign
  | .term => TokenKind.isMulOp
  | .factor => fun _ => false

/-- What a rule of the level, tried at the cursor `x`, has made of the tokens. -/
inductive Report (ts : List Token) (l : Level) (x : Cursor) : View Node → Prop where
  /-- No operand starts here. -/
  | absent (h : Refused ts x.index x.index [] .operand) : Report ts l x (.noMatch, x)
  /-- All that belongs together was read. Alternatives may have failed on the way, but none later
  than two tokens before the end. -/
  | whole {n : Node} {c : Cursor} (hread : Read ts x.index c.index) (hat : c.At ts)
      (hdepth : c.depth ≤ max x.depth (c.index - 2)) (hnext : begins l.signs c.rest = false) :
      Report ts l x (.matched n, c)
  /-- What follows the sign at the cursor was given up. -/
  | part {n : Node} {c : Cursor} {v : Nat} {opened : List Nat} {phase : Phase}
      (hrefused : Refused ts x.index v opened phase) (hlt : x.index < c.index) (hat : c.At ts)
      (hv : c.index < v) (hknows : c.Knows ts v) (hnext : begins l.signs c.rest = true)
      (hdrops : (Reader.verdict ⟨opened, phase⟩ v).Drops c.index) :
      Report ts l x (.matched n, c)
  /-- The operand at the cursor was given up. -/
  | abandoned {e : Failure} {c : Cursor} {v b : Nat} {opened : List Nat} {phase : Phase}
      (hrefused : Refused ts x.index v opened phase) (hindex : c.index = x.index) (hat : c.At ts)
      (hv : x.index < v) (hknows : c.Knows ts v)
      (hverdict : Reader.verdict ⟨opened, phase⟩ v = .abandoned x.index b)
      (hfound : e.found = ts[b]?) : Report ts l x (.failed e, c)
  /-- The failure is final. -/
  | final {e : Failure} {c : Cursor} {v b : Nat} {opened : List Nat} {phase : Phase}
      (hrefused : Refused ts x.index v opened phase) (hv : x.index < v)
      (hindex : x.index + lookahead < c.index)
      (hverdict : Reader.verdict ⟨opened, phase⟩ v = .final b)
      (hfound : e.found = ts[b]?) : Report ts l x (.failed e, c)

variable {ts : List Token} {l : Level} {x : Cursor}

/-- Noting a failure tells nothing new: a deeper one is known, or it is final. So a rule may note
its failure, as all of them do, and its report stays the same. -/
theorem Report.noted {r : View Node} (h : Report ts l x r) : Report ts l x (View.noted r) := by
  cases h with
  | absent h => exact .absent h
  | whole hread hat hdepth hnext => exact .whole hread hat hdepth hnext
  | part hrefused hlt hat hv hknows hnext hdrops =>
    exact .part hrefused hlt hat hv hknows hnext hdrops
  | abandoned hrefused hindex hat hv hknows hverdict hfound =>
    rw [View.noted_failed, hknows.note (by omega)]
    exact .abandoned hrefused hindex hat hv hknows hverdict hfound
  | final hrefused hv hindex hverdict hfound =>
    exact .final hrefused hv (by rw [Cursor.index_note]; exact hindex) hverdict hfound

/-! ## Chains -/

namespace Tier

variable (t : Tier)

/-- A chain goes on with its own signs and with those of its items. -/
theorem signs_level (k : TokenKind) : t.level.signs k = (t.isSign k || t.itemLevel.signs k) := by
  cases t <;> cases k <;> rfl

/-- No sign of an item is one of the chain, so a chain whose item ends before a sign of the item
ends there too. -/
theorem isSign_of_signs {k : TokenKind} (h : t.itemLevel.signs k = true) : t.isSign k = false := by
  cases t with
  | sum =>
    change k.isMulOp = true at h
    change k.isAddOp = false
    cases k <;> simp_all [TokenKind.isAddOp, TokenKind.isMulOp]
  | product => cases h

theorem isSign_tokenKind {k : TokenKind} (h : t.isSign k = true) : k.isSign = true := by
  cases t with
  | sum => simp [TokenKind.isSign, show k.isAddOp = true from h]
  | product => simp [TokenKind.isSign, show k.isMulOp = true from h]

theorem begins_isSign_of_signs {ts : List Token} (h : begins t.itemLevel.signs ts = true) :
    begins t.isSign ts = false := by
  cases ts with
  | nil => rfl
  | cons u us => exact t.isSign_of_signs h

/-- What a chain goes on with, looked up at the head of the tokens. -/
theorem begins_level {ts : List Token} :
    begins t.level.signs ts = (begins t.isSign ts || begins t.itemLevel.signs ts) := by
  cases ts with
  | nil => rfl
  | cons u us => exact t.signs_level u.kind

/-- A round that fails right after its sign is given up, and the chain ends before the sign. It does
not end as if the sign had not been there: the failure of the round is remembered, and with it the
place where the reader stops. -/
theorem report_swallowed {c d : Cursor} {o : Token} {r : List Token} {left : Node} {e : Failure}
    {again : Token × Node → Cursor → View Node} {v : Nat} {opened : List Nat} {phase : Phase}
    (hread : Read ts x.index c.index) (hat : c.At ts) (hdepth : c.depth ≤ c.index)
    (hr : c.rest = o :: r) (ho : t.isSign o.kind = true) (hindex : d.index = c.index + 1)
    (hrefused : Refused ts (c.index + 1) v opened phase) (hv : c.index < v)
    (hknows : d.Knows ts v)
    (hdrops : (Reader.verdict ⟨opened, phase⟩ v).Drops c.index) :
    Report ts t.level x (afterRound c left again (.failed e, d)) := by
  -- one token is too few to be committed to the round
  have hcommit : c.committed d = false := by
    rw [Cursor.committed, hindex]
    exact decide_eq_false (by simp [lookahead])
  -- the chain goes back before the sign, but keeps what the round has learned
  have hswallowed : ((c.note e).learn e d).Knows ts v := by
    refine hknows.learn ?_ e
    rw [Cursor.note_of_le hdepth]
    exact hv
  have hnext : begins t.level.signs c.rest = true := by
    rw [t.begins_level, hr, begins_cons, ho, Bool.true_or]
  rw [afterRound, hcommit, if_neg Bool.false_ne_true]
  refine .part (hrefused.after_sign hread (hat.getElem? hr) (t.isSign_tokenKind ho)) ?_
    (hat.of_eq ?_ ?_) ?_ hswallowed ?_ ?_
  · simpa using hread.lt
  · simp
  · simp
  · simpa using hv
  · simpa using hnext
  · simpa using hdrops

/-- The rest of a chain reports on the chain as a whole. Recursion on the tokens that are left: a
round is one more item, and the item reports by assumption. Of the five reports of an item one lets
the chain go on, and the other four end it. -/
theorem report_tail {k : Nat}
    (hitem : ∀ y : Cursor, y.rest.length < k → y.At ts → y.depth ≤ y.index →
      Report ts t.itemLevel y (t.item y))
    (hx : x.depth ≤ x.index) (c : Cursor) (left : Node) (hc : c.rest.length ≤ k)
    (hread : Read ts x.index c.index) (hat : c.At ts)
    (hdepth : c.depth ≤ max x.depth (c.index - 2))
    (hnext : begins t.itemLevel.signs c.rest = false) :
    Report ts t.level x (t.tail c left) := by
  have hlt := hread.lt
  have hle : c.depth ≤ c.index := by omega
  rw [t.tail_eq]
  cases hb : begins t.isSign c.rest with
  | false =>
    rw [t.signed_of_begins_false hb, afterRound, Cursor.accept_of_le (Nat.le_refl _)]
    refine .whole hread hat hdepth ?_
    rw [t.begins_level, hb, hnext, Bool.or_false]
  | true =>
    -- a sign follows, so there is one more round, and its item decides
    obtain ⟨o, r, hr, ho⟩ := exists_cons_of_begins hb
    have hget := hat.getElem? hr
    have hsign := t.isSign_tokenKind ho
    have hlen : (c.skip 1).rest.length < c.rest.length := by
      rw [Cursor.rest_skip_one hr, hr, List.length_cons]
      exact Nat.lt_succ_self _
    have hy := hitem (c.skip 1) (by omega) (hat.skip 1) (Nat.le_succ_of_le hle)
    rw [t.signed_of_sign hr ho]
    generalize t.item (c.skip 1) = view at hy
    cases hy with
    | absent h =>
      -- no item after the sign: the failure is noted at the place of the item
      have hnote :
          ((c.skip 1).note ((c.skip 1).refuse (some t.expected))).Knows ts (c.index + 1) := by
        rw [Cursor.note_of_le (Nat.le_succ_of_le hle)]
        exact ⟨rfl, _, rfl, (hat.skip 1).head?⟩
      exact t.report_swallowed hread hat hle hr ho (by simp) h (Nat.lt_succ_self _) hnote
        (.inl (by simp [Reader.verdict]))
    | @whole v d hread' hat' hdepth' hnext' =>
      -- one more item, and the rest of the chain is shorter
      have hlt' := hread'.lt
      have hlenc := hat.length_rest
      have hlend := hat'.length_rest
      rw [Cursor.index_skip] at hlt'
      rw [Cursor.depth_skip] at hdepth'
      have hshorter : (c.accept d).rest.length < c.rest.length := by
        rw [Cursor.rest_accept]
        omega
      refine report_tail hitem hx (c.accept d) _ (by omega) ?_ ?_ ?_ ?_
      · rw [Cursor.index_accept]
        exact hread.append_sign hget hsign hread'
      · exact hat'.of_eq (Cursor.rest_accept c d) (Cursor.index_accept c d)
      · rw [Cursor.depth_accept, Cursor.index_accept]
        omega
      · rwa [Cursor.rest_accept]
    | @part v d w opened phase hrefused hlt' hat' hv hknows hnext' hdrops =>
      -- the item ends before a sign of its own, and so does the chain
      rw [Cursor.index_skip] at hlt'
      have hdeeper : c.depth ≤ d.depth := by
        rw [hknows.1]
        omega
      rw [afterSign, afterRound, Cursor.accept_of_le hdeeper, t.tail_eq,
        t.signed_of_begins_false (t.begins_isSign_of_signs hnext'), afterRound,
        Cursor.accept_of_le (Nat.le_refl _)]
      refine .part (hrefused.after_sign hread hget hsign) (by omega) hat' hv hknows ?_ hdrops
      rw [t.begins_level, hnext', Bool.or_true]
    -- the item was given up at its own bracket, which stands right behind the sign
    | @abandoned e d v b opened phase hrefused hindex hat' hv hknows hverdict hfound =>
      rw [Cursor.index_skip] at hindex hv hverdict
      rw [afterSign, View.noted_failed, hknows.note (by omega)]
      exact t.report_swallowed hread hat hle hr ho hindex hrefused (by omega) hknows
        (.inr ⟨b, hverdict⟩)
    | @final e d v b opened phase hrefused hv hindex hverdict hfound =>
      rw [Cursor.index_skip] at hindex hv
      -- the item was final, and the sign before it only makes the round longer
      have hcommit : c.committed (d.note e) = true := by
        rw [Cursor.committed, Cursor.index_note]
        exact decide_eq_true (by omega)
      rw [afterSign, View.noted_failed, afterRound, hcommit, if_pos rfl]
      refine .final (hrefused.after_sign hread hget hsign) (by omega) ?_ hverdict hfound
      rw [Cursor.index_accept, Cursor.index_note]
      omega
termination_by c.rest.length
decreasing_by exact hshorter

/-- A chain of items that report reports itself. What its first item has to say decides, unless the
item was read whole and the rest of the chain has more. -/
theorem report_whole {k : Nat}
    (hitem : ∀ y : Cursor, y.rest.length < k → y.At ts → y.depth ≤ y.index →
      Report ts t.itemLevel y (t.item y))
    (x : Cursor) (hlen : x.rest.length < k) (hat : x.At ts) (hx : x.depth ≤ x.index) :
    Report ts t.level x (t.whole x) := by
  have hfirst := hitem x hlen hat hx
  rw [t.whole_eq]
  generalize t.item x = view at hfirst
  -- an item that was read whole hands on to the rest; the other reports are those of the chain
  cases hfirst with
  | absent h => exact .absent h
  | @whole v d hread hat' hdepth hnext =>
    have hlt := hread.lt
    have hlenx := hat.length_rest
    have hlend := hat'.length_rest
    exact (t.report_tail hitem hx d v (by omega) hread hat' hdepth hnext).noted
  | @part v d w opened phase hrefused hlt hat' hv hknows hnext hdrops =>
    -- the cursor stands at a sign of the item, which the chain cannot go on with
    rw [afterItem, t.tail_eq, t.signed_of_begins_false (t.begins_isSign_of_signs hnext), afterRound,
      Cursor.accept_of_le (Nat.le_refl _)]
    refine .part hrefused hlt hat' hv hknows ?_ hdrops
    rw [t.begins_level, hnext, Bool.or_true]
  | abandoned hrefused hindex hat' hv hknows hverdict hfound =>
    exact Report.noted (.abandoned hrefused hindex hat' hv hknows hverdict hfound)
  | final hrefused hv hindex hverdict hfound =>
    exact Report.noted (.final hrefused hv hindex hverdict hfound)

end Tier

/-! ## Factors -/

/-- Where the rest does not begin with a wanted kind, the token at the place is not of it. -/
theorem Cursor.At.kind_of_begins {want : TokenKind → Bool} (hat : x.At ts)
    (h : begins want x.rest = false) : ∀ t, ts[x.index]? = some t → want t.kind = false := by
  intro t ht
  rw [← hat.head?] at ht
  obtain ⟨r, hr⟩ := List.head?_eq_some_iff.1 ht
  rwa [hr, begins_cons] at h

/-- A factor goes on with nothing. -/
theorem begins_signs_factor (ts : List Token) : begins Level.factor.signs ts = false := by
  cases ts <;> rfl

/-- A sum does not apply where no factor starts. Neither tier looks at anything but the first token
for that. -/
theorem expr_eq_noMatch (hn : begins (· == .number) x.rest = false)
    (ho : begins (· == .openParen) x.rest = false) : (expr x).view = (.noMatch, x) := by
  have hterm : Tier.product.whole x = (.noMatch, x) := by
    rw [Tier.whole_eq, Tier.item, factor_eq_noMatch hn ho]
    rfl
  have hexpr := Tier.sum.whole_eq x
  rw [Tier.item, show (term x).view = _ from hterm] at hexpr
  exact hexpr

section Group

variable {y c d : Cursor} {e e' : Failure} {v b : Nat} {opened : List Nat} {phase : Phase}

/-- A bracketed sum that failed far from its bracket fails the factor, whatever has been tried there
before. -/
theorem report_of_committed (hindex : y.index = x.index) (hd : x.index + lookahead < d.index)
    (hrefused : Refused ts x.index v opened phase) (hv : x.index < v)
    (hverdict : Reader.verdict ⟨opened, phase⟩ v = .final b) (hfound : e'.found = ts[b]?) :
    Report ts .factor x (View.noted (afterGroup y e c (.failed e', d))) := by
  have hcommit : y.committed d = true := decide_eq_true (by omega)
  rw [afterGroup, hcommit, if_pos rfl]
  refine Report.noted (.final hrefused hv ?_ hverdict hfound)
  rwa [Cursor.index_accept]

/-- One that failed near its bracket is given up. It got as far as the reference did, so its failure
is the one that is handed on, and the depth stays that of the place where the reader stops. -/
theorem report_of_near (hindex : y.index = x.index) (hat : y.At ts)
    (hd : d.index ≤ x.index + lookahead) (hc : c.index ≤ d.index)
    (hrefused : Refused ts x.index v opened phase) (hv : x.index < v)
    (hknows : (y.learn e' d).Knows ts v)
    (hverdict : Reader.verdict ⟨opened, phase⟩ v = .abandoned x.index b)
    (hfound : e'.found = ts[b]?) :
    Report ts .factor x (View.noted (afterGroup y e c (.failed e', d))) := by
  have hcommit : y.committed d = false := decide_eq_false (by omega)
  -- the failure has been learned of already, so noting it does nothing
  have hnote : (y.learn e' d).note e' = y.learn e' d := by
    refine hknows.note ?_ e'
    rwa [Cursor.index_learn, hindex]
  rw [afterGroup, hcommit, if_neg Bool.false_ne_true, if_pos hc, hnote]
  refine Report.noted (.abandoned hrefused ?_ ?_ hv hknows hverdict hfound)
  · rwa [Cursor.index_learn]
  · exact hat.of_eq (Cursor.rest_learn y e' d) (Cursor.index_learn y d e')

/-- A sum that ends before something else than the closing bracket fails at that token, and how far
the token is from the bracket decides whether this is final. -/
theorem report_of_mismatch (hindex : y.index = x.index) (hat : y.At ts) (hc : c.index ≤ d.index)
    (hrefused : Refused ts x.index v opened phase) (hv : x.index < v)
    (hknows : d.index ≤ x.index + lookahead → (y.learn e' d).Knows ts v)
    (hverdict : Reader.verdict ⟨opened, phase⟩ v = .mismatch x.index d.index)
    (hfound : e'.found = ts[d.index]?) :
    Report ts .factor x (View.noted (afterGroup y e c (.failed e', d))) := by
  unfold Verdict.mismatch at hverdict
  split at hverdict
  · next hd => exact report_of_committed hindex hd hrefused hv hverdict hfound
  · next hd =>
    have hd := Nat.le_of_not_lt hd
    exact report_of_near hindex hat hd hc hrefused hv (hknows hd) hverdict hfound

/-- What the bracket at `y` makes of the sum inside it, tried after a reference has failed. The sum
reports with its own brackets, and each report is read with this bracket around it
(`Verdict.within`). -/
theorem report_group {o : Token} {r : List Token} (hr : y.rest = o :: r)
    (ho : o.kind = .openParen) (hi : begins (· == .ident) r = false) (hat : y.At ts)
    (hindex : y.index = x.index) (hdepth : y.depth = x.index + 1) (hc : c.index = x.index + 1)
    {view : View Node} (hview : Report ts .expr (y.skip 1) view) :
    Report ts .factor x (View.noted (afterGroup y e c (afterOpening o view))) := by
  have hget : ts[x.index]? = some o := hindex ▸ hat.getElem? hr
  have hident : ∀ t, ts[x.index + 1]? = some t → t.kind ≠ .ident := by
    rw [← Cursor.rest_skip_one hr] at hi
    intro t ht
    refine ne_of_beq_false ((hat.skip 1).kind_of_begins hi t ?_)
    rwa [Cursor.index_skip, hindex]
  cases hview with
  | absent h =>
    -- nothing in the brackets: both alternatives fail at the token after the bracket
    rw [Cursor.index_skip, hindex] at h
    have hskip : (y.skip 1).index = x.index + 1 := by rw [Cursor.index_skip, hindex]
    have hfound : ((y.skip 1).refuse (some .exprClosing)).found = ts[x.index + 1]? := by
      rw [← hskip]
      exact (hat.skip 1).head?
    refine report_of_mismatch hindex hat (by omega) (.opening hget ho hident h)
      (Nat.lt_succ_self _) (fun _ => ?_) ?_ (hskip ▸ hfound)
    · rw [Cursor.learn_of_le (Nat.le_of_eq (y.depth_skip 1)) (by omega)]
      exact ⟨hskip, _, rfl, hfound⟩
    · rw [hskip]
      rfl
  | @whole n d hread hat' hdepth' hnext =>
    rw [Cursor.index_skip, hindex] at hread
    rw [Cursor.depth_skip, hdepth] at hdepth'
    have hlt := hread.lt
    -- a whole sum: closed, or not closed where it ends
    cases hclose : begins (· == .closeParen) d.rest with
    | true =>
      obtain ⟨p, s, hs, hp⟩ := exists_cons_of_begins hclose
      rw [afterOpening, if_pos hclose, afterGroup, View.noted_matched]
      refine .whole ?_ ?_ ?_ ?_
      · rw [Cursor.index_accept]
        exact .bracket hget ho hident hread (hat'.getElem? hs) (eq_of_beq hp)
      · exact (hat'.skip 1).of_eq (Cursor.rest_accept _ _) (Cursor.index_accept _ _)
      · rw [Cursor.depth_accept, Cursor.index_accept, Cursor.depth_skip, Cursor.index_skip, hdepth]
        omega
      · exact begins_signs_factor _
    | false =>
      -- the sum is whole, so the reader stops where it ends
      rw [afterOpening, if_neg (by rw [hclose]; exact Bool.false_ne_true)]
      have hnext' : ∀ t, ts[d.index]? = some t → t.kind ≠ .closeParen ∧ t.kind.isSign = false :=
        fun t ht => ⟨ne_of_beq_false (hat'.kind_of_begins hclose t ht),
          hat'.kind_of_begins hnext t ht⟩
      refine report_of_mismatch hindex hat (by omega) (.unclosed hget ho hident hread hnext')
        (by omega) (fun hnear => ?_) rfl hat'.head?
      rw [Cursor.learn_of_le (by simp only [lookahead] at hnear; omega) (by omega)]
      exact ⟨rfl, _, rfl, hat'.head?⟩
  | @part n d v opened phase hrefused hlt hat' hv hknows hnext hdrops =>
    -- the sum ends before a sign, where the closing bracket is wanted
    rw [Cursor.index_skip, hindex] at hrefused hlt
    have hclose : begins (· == .closeParen) d.rest = false := by
      obtain ⟨t, s, hs, ht⟩ := exists_cons_of_begins hnext
      rw [hs, begins_cons, beq_eq_false_iff_ne]
      rintro hk
      rw [hk] at ht
      cases ht
    rw [afterOpening, if_neg (by rw [hclose]; exact Bool.false_ne_true)]
    refine report_of_mismatch hindex hat (by omega) (hrefused.inside hget ho hident (by omega))
      (by omega) (fun _ => hknows.learn (by omega) _) ?_ hat'.head?
    rw [Reader.verdict_append, hdrops.within (by omega)]
  | @abandoned e' d v b opened phase hrefused hindex' hat' hv hknows hverdict hfound =>
    -- the first operand was given up at its own bracket, right after this one
    rw [Cursor.index_skip, hindex] at hrefused hindex' hv hverdict
    rw [afterOpening]
    refine report_of_near hindex hat (by simp only [lookahead]; omega) (by omega)
      (hrefused.inside hget ho hident hv) (by omega) (hknows.learn (by omega) _) ?_ hfound
    rw [Reader.verdict_append, hverdict, Verdict.within, if_pos rfl]
  -- a failure that was final inside is final here
  | @final e' d v b opened phase hrefused hv hindex' hverdict hfound =>
    rw [Cursor.index_skip, hindex] at hrefused hindex' hv
    rw [afterOpening]
    refine report_of_committed hindex (by omega) (hrefused.inside hget ho hident hv) (by omega) ?_
      hfound
    rw [Reader.verdict_append, hverdict, Verdict.within]

end Group

/-- A name after the bracket, and then no closing bracket. The bracketed sum is tried too, and fails
before the name, which is not as far as the reference got; so the failure of the reference is the
one that counts. -/
theorem report_named {o i : Token} {r : List Token} (hr : x.rest = o :: i :: r)
    (ho : o.kind = .openParen) (hi : i.kind = .ident) (hp : begins (· == .closeParen) r = false)
    (hat : x.At ts) (hx : x.depth ≤ x.index) : Report ts .factor x (factor x).view := by
  have hnumber : begins (· == .number) x.rest = false := by simp [hr, ho]
  have hkpi := kpi_eq_failed_closing hr ho hi hp
  have hget : ts[x.index]? = some o := hat.getElem? hr
  have hname : ts[x.index + 1]? = some i := (hat.skip 1).getElem? (Cursor.rest_skip_one hr)
  have hrest : (x.skip 2).rest = r := by simp [Cursor.skip, hr]
  have hfound : ((x.skip 2).refuse (some .closing)).found = ts[x.index + 2]? := (hat.skip 2).head?
  have hclosing := (hat.skip 2).kind_of_begins (hrest.symm ▸ hp)
  rw [factor_eq_group hnumber hkpi (x.committed_skip (by decide)), Cursor.learn_skip hx]
  generalize hy : Cursor.mk x.rest x.index (some ((x.skip 2).refuse (some .closing)))
    (x.index + 2) = y
  have hyrest : y.rest = o :: i :: r := by rw [← hy, hr]
  have hyindex : y.index = x.index := by rw [← hy]
  have hydepth : y.depth = x.index + 2 := by rw [← hy]
  have hknows : y.Knows ts (x.index + 2) := ⟨hydepth, _, by rw [← hy], hfound⟩
  -- the name starts no sum
  have hgroup : (group y).view =
      (.failed ((y.skip 1).refuse (some .exprClosing)), y.skip 1) := by
    have hskip : (y.skip 1).rest = i :: r := Cursor.rest_skip_one hyrest
    rw [group_eq hyrest ho, expr_eq_noMatch (by simp [hskip, hi]) (by simp [hskip, hi])]
    rfl
  have hcommit : y.committed (y.skip 1) = false := y.committed_skip (by decide)
  have hlearn : y.learn ((y.skip 1).refuse (some .exprClosing)) (y.skip 1) = y :=
    Cursor.learn_of_index_lt (Nat.le_refl _) (by rw [Cursor.index_skip]; omega)
  rw [hgroup, afterGroup, hcommit, if_neg Bool.false_ne_true,
    if_neg (by rw [Cursor.index_skip, Cursor.index_skip]; omega), hlearn,
    hknows.note (by omega)]
  refine Report.noted (.abandoned (.named hget ho hname hi ?_) hyindex ?_ (by omega) hknows ?_
    hfound)
  · exact fun t ht => ne_of_beq_false (hclosing t ht)
  · exact hat.of_eq (hyrest.trans hr.symm) hyindex
  · exact if_neg (by simp [lookahead])

/-- A factor reports where the sums inside its brackets do. The first three tokens decide which of
its alternatives is the one that matters. -/
theorem report_factor
    (hexpr : ∀ y : Cursor, y.rest.length < x.rest.length → y.At ts → y.depth ≤ y.index →
      Report ts .expr y (expr y).view)
    (hat : x.At ts) (hx : x.depth ≤ x.index) : Report ts .factor x (factor x).view := by
  cases hn : begins (· == .number) x.rest with
  | true =>
    obtain ⟨t, r, hr, ht⟩ := exists_cons_of_begins hn
    rw [factor_eq_number hr (eq_of_beq ht)]
    exact .whole (.number (hat.getElem? hr) (eq_of_beq ht)) (hat.skip 1) (Nat.le_max_left _ _)
      (begins_signs_factor _)
  | false =>
    cases hb : begins (· == .openParen) x.rest with
    | false =>
      rw [factor_eq_noMatch hn hb]
      exact .absent (.operand fun t ht => ⟨ne_of_beq_false (hat.kind_of_begins hn t ht),
        ne_of_beq_false (hat.kind_of_begins hb t ht)⟩)
    | true =>
      obtain ⟨o, r, hr, ho⟩ := exists_cons_of_begins hb
      have ho : o.kind = .openParen := eq_of_beq ho
      -- no name after the bracket: a bracketed sum, tried at a cursor one failure wiser
      cases hi : begins (· == .ident) r with
      | false =>
        rw [factor_eq_group hn (kpi_eq_failed_ident hr ho hi) (x.committed_skip (by decide)),
          Cursor.learn_skip hx]
        generalize hy : Cursor.mk x.rest x.index
          (some ((x.skip 1).refuse (some .identClosing))) (x.index + 1) = y
        have hyrest : y.rest = o :: r := by rw [← hy, hr]
        have hyindex : y.index = x.index := by rw [← hy]
        have hydepth : y.depth = x.index + 1 := by rw [← hy]
        have hyat : y.At ts := hat.of_eq (hyrest.trans hr.symm) hyindex
        rw [group_eq hyrest ho]
        refine report_group hyrest ho hi hyat hyindex hydepth rfl
          (hexpr (y.skip 1) ?_ (hyat.skip 1) ?_)
        · rw [Cursor.rest_skip_one hyrest, hr]
          exact Nat.lt_succ_self _
        · rw [Cursor.depth_skip, Cursor.index_skip]
          omega
      | true =>
        obtain ⟨i, r, rfl, hi⟩ := exists_cons_of_begins hi
        cases hp : begins (· == .closeParen) r with
        | false => exact report_named hr ho (eq_of_beq hi) hp hat hx
        | true =>
          obtain ⟨p, r, rfl, hp⟩ := exists_cons_of_begins hp
          rw [factor_eq_agg hr ho (eq_of_beq hi) (eq_of_beq hp)]
          have hname : ts[x.index + 1]? = some i := (hat.skip 1).getElem? (Cursor.rest_skip_one hr)
          have hrest : (x.skip 2).rest = p :: r := by simp [Cursor.skip, hr]
          have hclosing : ts[x.index + 2]? = some p := (hat.skip 2).getElem? hrest
          have hread := Read.reference (hat.getElem? hr) ho hname (eq_of_beq hi) hclosing
            (eq_of_beq hp)
          exact .whole hread (hat.skip 3) (Nat.le_max_left _ _) (begins_signs_factor _)

/-- Sums report what the reader makes of the tokens, and with them terms and factors. By induction
on the number of tokens, since a bracket leads back to a sum with fewer of them. -/
theorem report_expr (k : Nat) :
    ∀ x : Cursor, x.rest.length < k → x.At ts → x.depth ≤ x.index →
      Report ts .expr x (expr x).view := by
  -- `k` bounds the tokens that are left, as a bracket opens a sum with fewer of them
  induction k with
  | zero =>
    intro x hx
    omega
  | succ k ih =>
    have hfactor : ∀ y : Cursor, y.rest.length < k + 1 → y.At ts → y.depth ≤ y.index →
        Report ts .factor y (Tier.product.item y) := by
      intro y hy
      exact report_factor fun z hz => ih z (by omega)
    exact Tier.sum.report_whole (Tier.product.report_whole hfactor)

/-! ## Whole formulas -/

/-- The failure reported for a formula that is read in part: the deepest one, if it is further on
than the cursor. -/
def Cursor.reported (c : Cursor) : Failure :=
  if c.index ≥ c.depth then c.refuse none else c.deepest.getD (c.refuse none)

/-- What is made of a formula once a sum was read from it. -/
def afterSum : View Node → Except Failure Node
  | (.failed e, _) => .error e
  | (.noMatch, c) => .error c.reported
  | (.matched n, c) => if c.rest.isEmpty then .ok n else .error c.reported

/-- The parser of a token list without the bounds of its rules. -/
theorem parseTokens_eq (ts : List Token) :
    parseTokens ts = afterSum (expr (.start ts)).view := by
  simp only [parseTokens, Step.view]
  cases (expr (.start ts)).outcome <;> rfl

namespace Cursor

/-- A cursor that stands behind all failures is refused for its own token. -/
theorem reported_of_le {c : Cursor} (hat : c.At ts) (h : c.depth ≤ c.index) :
    c.reported.found = ts[c.index]? := by
  rw [reported, if_pos h]
  exact hat.head?

/-- One that knows of a failure further on is refused for that. -/
theorem Knows.reported {c : Cursor} {v : Nat} (h : c.Knows ts v) (hv : c.index < v) :
    c.reported.found = ts[v]? := by
  obtain ⟨rfl, e, he, hfound⟩ := h
  rw [Cursor.reported, if_neg (by omega), he]
  exact hfound

end Cursor

/-- Where a formula starts, no bracket is open, and the reader stops for good. -/
theorem Refused.halt_eq {v : Nat} {opened : List Nat} {phase : Phase}
    (h : Refused ts 0 v opened phase) : halt ts = (v, ⟨opened, phase⟩) := by
  have hreach := h.reach []
  have hstuck := h.stuck []
  rw [List.append_nil] at hreach hstuck
  exact (eq_halt hreach hstuck).symm

/-- After an operand, outside all brackets, the reader stops where no sign follows: there is nothing
that a closing bracket could close. -/
theorem Cursor.At.stuck {c : Cursor} (hat : c.At ts)
    (hnext : begins Level.expr.signs c.rest = false) : Stuck ts (c.index, ⟨[], .complete⟩) := by
  intro t ht
  cases hk : decide (t.kind = .closeParen) with
  | true =>
    -- no bracket is open, so a closing one cannot come either
    rw [of_decide_eq_true hk]
    rfl
  | false => exact Reader.next_complete (of_decide_eq_false hk) (hat.kind_of_begins hnext t ht)

/-- **The parser follows the reader.** Tokens are accepted where the reader comes to their end with
nothing missing. Where it stops before, they are refused, and the failure is about the token that is
blamed for it. -/
theorem parseTokens_cases (ts : List Token) :
    (∃ n, parseTokens ts = .ok n ∧ halt ts = (ts.length, ⟨[], .complete⟩)) ∨
    ∃ e, parseTokens ts = .error e ∧ halt ts ≠ (ts.length, ⟨[], .complete⟩) ∧
      e.found = ts[blame ts]? := by
  have hstart : (Cursor.start ts).At ts := rfl
  have hreport :=
    report_expr (ts.length + 1) (.start ts) (Nat.lt_succ_self _) hstart (Nat.le_refl _)
  rw [parseTokens_eq]
  generalize (expr (.start ts)).view = view at hreport
  -- whatever the rule has made of a refusal, the reader stops at its place and not at the end
  have hrefused : ∀ {v opened phase}, Refused ts (Cursor.start ts).index v opened phase →
      halt ts = (v, ⟨opened, phase⟩) ∧ halt ts ≠ (ts.length, ⟨[], .complete⟩) := by
    intro v opened phase h
    have hhalt : halt ts = (v, ⟨opened, phase⟩) := h.halt_eq
    refine ⟨hhalt, fun heq => ?_⟩
    obtain ⟨-, rfl, rfl⟩ : v = ts.length ∧ opened = [] ∧ phase = .complete := by
      simpa using hhalt.symm.trans heq
    exact h.unfinished rfl rfl
  cases hreport with
  | absent h =>
    obtain ⟨hhalt, hne⟩ := hrefused h
    refine .inr ⟨_, rfl, hne, ?_⟩
    rw [blame, hhalt]
    exact Cursor.reported_of_le hstart (Nat.le_refl _)
  | @whole n c hread hat hdepth hnext =>
    have hreach := hread []
    have hle : c.depth ≤ c.index := by
      change c.depth ≤ max 0 (c.index - 2) at hdepth
      omega
    -- a sum was read: nothing is left, or the reader stops at the token that is
    cases hc : c.rest with
    | nil =>
      have hlen := hat.length_rest
      have hend : c.index = ts.length := by
        have := Reach.le_length hreach (Nat.zero_le _)
        rw [hc, List.length_nil] at hlen
        omega
      rw [hend] at hreach
      exact .inl ⟨n, by rw [afterSum, hc]; rfl, (eq_halt hreach (stuck_length _)).symm⟩
    | cons t r =>
      have hget := hat.getElem? hc
      have hhalt := (eq_halt hreach (hat.stuck hnext)).symm
      refine .inr ⟨c.reported, by rw [afterSum, hc]; rfl, fun heq => ?_, ?_⟩
      · -- a token is left, so this is not the end
        rw [show c.index = ts.length from congrArg Prod.fst (hhalt.symm.trans heq),
          List.getElem?_eq_none (Nat.le_refl _)] at hget
        cases hget
      · rw [blame, hhalt]
        exact Cursor.reported_of_le hat hle
  -- the sum ends before a sign, and the failure behind the sign is reported
  | @part n c v opened phase h hlt hat hv hknows hnext hdrops =>
    obtain ⟨hhalt, hne⟩ := hrefused h
    have hc : c.rest.isEmpty = false := by
      obtain ⟨t, r, hr, -⟩ := exists_cons_of_begins hnext
      rw [hr]
      rfl
    refine .inr ⟨c.reported, by rw [afterSum, hc]; rfl, hne, ?_⟩
    rw [hknows.reported hv, blame, hhalt, hdrops.blamed]
  | @abandoned e c v b opened phase h hindex hat hv hknows hverdict hfound =>
    obtain ⟨hhalt, hne⟩ := hrefused h
    refine .inr ⟨e, rfl, hne, ?_⟩
    rw [hfound, blame, hhalt, Reader.blamed, hverdict]
    rfl
  | @final e c v b opened phase h hv hindex hverdict hfound =>
    obtain ⟨hhalt, hne⟩ := hrefused h
    refine .inr ⟨e, rfl, hne, ?_⟩
    rw [hfound, blame, hhalt, Reader.blamed, hverdict]

/-! ## Formulas -/

/-- A formula parses if all of it is scanned and the reader comes to its end. -/
theorem exists_parse_iff (f : String) :
    (∃ n, parse f = .ok n) ↔
      (scan f).complete = true ∧
        halt (scan f).tokens = ((scan f).tokens.length, ⟨[], .complete⟩) := by
  simp only [parse_ok_iff, exists_and_left]
  refine and_congr_right fun _ => ?_
  rcases parseTokens_cases (scan f).tokens with ⟨n, hn, hend⟩ | ⟨e, he, hne, -⟩
  · simp only [hn, hend, Except.ok.injEq, exists_eq']
  · simp only [he, hne, reduceCtorEq, exists_false]

/-- The place of a syntax error is that of the token to blame, or where scanning has stopped. A text
that does not scan has no token to blame, and its tokens are not even looked at. -/
theorem pos_of_parse_error {f : String} {fault : Fault} (h : parse f = .error fault) :
    fault.pos =
      if (scan f).complete then
        ((scan f).tokens[blame (scan f).tokens]?.map Token.pos).getD (scan f).stop
      else (scan f).stop := by
  simp only [parse] at h
  split at h
  · next hscan =>
    -- the tokens were refused, and the failure names the one to blame
    rcases parseTokens_cases (scan f).tokens with ⟨n, hn, -⟩ | ⟨e, he, -, hfound⟩
    · rw [hn] at h
      cases h
    · rw [he] at h
      obtain rfl := Except.error.inj h
      rw [if_pos hscan, Fault.pos, hfound]
  · next hscan =>
    obtain rfl := Except.error.inj h
    rw [if_neg hscan, Fault.pos]

end KpiReport.Formula
