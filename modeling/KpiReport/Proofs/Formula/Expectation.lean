import KpiReport.Proofs.Formula.Lexemes
import KpiReport.Proofs.Formula.Refusal

/-!
# What a syntax error says was expected

A syntax error names a token, and mostly what should have stood in its place. The two come from one
of many attempts: of the failures that repetitions swallow and alternatives leave behind, the
deepest is kept, and which one that is depends on the depths alone. So every failure has to be true
by itself, and then it does not matter which is reported.

* **`Reader.Admits`** — what a reader can take next, in the words of an expectation.
* **`Honest`** — a failure is about a place that the reader of the formula comes to, and it expects
  what the reader can take there. Every failure that a rule ends with or remembers is honest
  (`told_expr`): the rules are followed by the reader from the start of the formula on.
* **`Expected.Derives.viable`** — a reader that wants an operand takes all words of a tree
  (`GrammarTree.reach`), so what an honest failure expects can go on.
* **`parseTokens_error_cases`** — a failure that expects nothing is about the token where the reader
  stops, and no grammatical formula goes on with that one.
* **`parseFormula_error_expectation`** — the statement about syntax errors.
-/

namespace KpiReport.Formula

/-! ## Expectations -/

/-- The strings of words that are derived from an expectation. A message that names an operand
stands for every operand of the grammar, so one expectation has many such strings; only the closing
bracket stands for itself. -/
inductive Expected.Derives : Expected → List Word → Prop where
  | term {n : Node} (h : GrammarTree .term n) : Derives .term n.words
  | factor {n : Node} (h : GrammarTree .factor n) : Derives .factor n.words
  | closing : Derives .closing [Word.closing]
  | exprClosing {n : Node} (h : GrammarTree .expr n) :
      Derives .exprClosing (n.words ++ [Word.closing])
  | identClosing (name : String) : Derives .identClosing [⟨.ident, name⟩, Word.closing]

namespace Reader

/-- An operand can come next: nothing was read yet, a sign has just been read, or a bracket has just
been opened. -/
def Wants (r : Reader) : Prop := r.phase = .operand ∨ r.phase = .opening

/-- The reader can take what is expected. A closing bracket needs an open one. -/
def Admits (r : Reader) : Expected → Prop
  | .term | .factor => r.Wants
  | .closing => (r.phase = .named ∨ r.phase = .complete) ∧ r.opened ≠ []
  | .exprClosing | .identClosing => r.phase = .opening ∧ r.opened ≠ []

section Next

variable {r : Reader} {i : Nat}

theorem next_number (h : r.Wants) : r.next i .number = some ⟨r.opened, .complete⟩ := by
  rw [next]
  exact if_pos h

theorem next_openParen (h : r.Wants) : r.next i .openParen = some ⟨i :: r.opened, .opening⟩ := by
  rw [next]
  exact if_pos h

/-- A closing bracket closes the innermost open one, behind a name as well as behind an operand. -/
theorem next_closeParen {b : Nat} {outer : List Nat} {phase : Phase}
    (h : phase = .named ∨ phase = .complete) :
    next ⟨b :: outer, phase⟩ i .closeParen = some ⟨outer, .complete⟩ := by
  rw [next, if_pos h]

/-- A name is read only right behind an opening bracket. That makes it a reference. -/
theorem next_ident {opened : List Nat} :
    next ⟨opened, .opening⟩ i .ident = some ⟨opened, .named⟩ := rfl

end Next

end Reader

/-- The failure is about a place that the reader of the formula comes to, and what it expects can
come there.

Nothing is said about how deep the failure is, and nothing about other failures. That is what lets
the property pass through `Cursor.accept`, `Cursor.note` and `Cursor.learn`, which pick one of two
failures by their depths alone. -/
def Honest (ts : List Token) (e : Failure) : Prop :=
  ∃ k r x, Reach ts (0, .start) (k, r) ∧ e.found = ts[k]? ∧ e.expected = some x ∧ r.Admits x

/-! ## Failures that are remembered -/

namespace Cursor

/-- The deepest failure so far, if there is one, is honest. This is the invariant that every rule
hands on. -/
def Trusts (ts : List Token) (x : Cursor) : Prop :=
  ∀ e, x.deepest = some e → Honest ts e

namespace Trusts

variable {ts : List Token} {x b : Cursor} {e : Failure}

theorem skip (h : x.Trusts ts) (k : Nat) : (x.skip k).Trusts ts := h

theorem accept (hx : x.Trusts ts) (hb : b.Trusts ts) : (x.accept b).Trusts ts := by
  unfold Cursor.accept
  split
  · exact hb
  · exact hx

theorem of_deepest {y : Cursor} (he : Honest ts e) (h : y.deepest = some e) : y.Trusts ts := by
  intro e' he'
  obtain rfl : e = e' := Option.some.inj (h.symm.trans he')
  exact he

/-- A failure that is noted is either kept as the deepest one or dropped for a deeper one. -/
theorem note (hx : x.Trusts ts) (he : Honest ts e) : (x.note e).Trusts ts := by
  unfold Cursor.note
  split
  · exact of_deepest he rfl
  · exact hx

/-- An attempt that is given up leaves behind its own failure, the deepest one before it, or the one
that it ended with. -/
theorem learn (hx : x.Trusts ts) (he : Honest ts e) (hb : b.Trusts ts) :
    (x.learn e b).Trusts ts := by
  unfold Cursor.learn
  split
  · exact hb
  · split
    · exact of_deepest he rfl
    · exact hx

end Trusts

end Cursor

/-! ## What the rules tell -/

/-- The reader of the formula comes to the place `i` with the brackets in `outer` open, and an
operand can come next. This is what has to be known before a rule is tried there. -/
def Awaits (ts : List Token) (i : Nat) (outer : List Nat) : Prop :=
  ∃ r : Reader, r.Wants ∧ r.opened = outer ∧ Reach ts (0, .start) (i, r)

/-- What a rule makes of the tokens at the cursor `x`, where the brackets in `outer` are open: it
finds nothing, or it reads an operand that the reader follows it through, or it fails honestly. What
it remembers is honest in every case. -/
inductive Told (ts : List Token) (outer : List Nat) (x : Cursor) : View Node → Prop where
  | absent : Told ts outer x (.noMatch, x)
  | read {n : Node} {c : Cursor} (hat : c.At ts)
      (hreach : Reach ts (0, .start) (c.index, ⟨outer, .complete⟩)) (hc : c.Trusts ts) :
      Told ts outer x (.matched n, c)
  | failed {e : Failure} {c : Cursor} (he : Honest ts e) (hc : c.Trusts ts) :
      Told ts outer x (.failed e, c)

/-- Where fewer than `k` tokens are left, and an operand can come next, the rule leaves honest
failures only. The bound is there for the induction, which goes from a bracket to the sum inside
it. -/
def Tells (ts : List Token) (outer : List Nat) (rule : Cursor → View Node) (k : Nat) : Prop :=
  ∀ y : Cursor, y.rest.length < k → y.At ts → Awaits ts y.index outer → y.Trusts ts →
    Told ts outer y (rule y)

section Telling

variable {ts : List Token} {outer : List Nat} {x c d : Cursor} {e : Failure} {r : Reader}
  {t o : Token} {s : List Token} {k : Nat}

/-- A rule that notes the failure it ends with is as honest as before. -/
theorem Told.noted {view : View Node} (h : Told ts outer x view) :
    Told ts outer x (View.noted view) := by
  cases h with
  | absent => exact .absent
  | read hat hreach hc => exact .read hat hreach hc
  | failed he hc => exact .failed he (hc.note he)

/-- Refusing the token at the cursor is honest where the reader can take what is expected. -/
theorem honest_refuse {want : Expected} (hat : c.At ts)
    (hreach : Reach ts (0, .start) (c.index, r)) (hr : r.Admits want) :
    Honest ts (c.refuse (some want)) :=
  ⟨c.index, r, want, hreach, hat.head?, rfl, hr⟩

theorem reach_next {i : Nat} {r' : Reader} (hreach : Reach ts (0, .start) (i, r))
    (ht : ts[i]? = some t) (hnext : r.next i t.kind = some r') :
    Reach ts (0, .start) (i + 1, r') :=
  hreach.tail (Move.of_next ht hnext)

/-- At the start of the formula the reader waits for an operand, with no bracket open. -/
theorem awaits_start (ts : List Token) : Awaits ts 0 [] :=
  ⟨.start, .inl rfl, rfl, .refl⟩

/-- Behind an operand and a sign the reader waits for an operand again, in the same brackets. -/
theorem awaits_sign {i : Nat} (hreach : Reach ts (0, .start) (i, ⟨outer, .complete⟩))
    (ht : ts[i]? = some t) (hk : t.kind.isSign = true) : Awaits ts (i + 1) outer :=
  ⟨⟨outer, .operand⟩, .inl rfl, rfl, reach_next hreach ht (Reader.next_sign hk)⟩

/-! ### Chains -/

/-- A round that fails is given up or final. Either way its failure is honest, and a round that is
given up leaves the chain where it stood, behind the items that it has read before. -/
theorem told_afterRound_failed {left : Node} {again : Token × Node → Cursor → View Node}
    (hat : c.At ts) (hreach : Reach ts (0, .start) (c.index, ⟨outer, .complete⟩))
    (hc : c.Trusts ts) (he : Honest ts e) (hd : d.Trusts ts) :
    Told ts outer x (Tier.afterRound c left again (.failed e, d)) := by
  have hlearned : ((c.note e).learn e d).Trusts ts := (hc.note he).learn he hd
  simp only [Tier.afterRound]
  split
  · exact .failed he (hlearned.accept hd)
  · refine .read (hat.of_eq ?_ ?_) ?_ hlearned
    · simp
    · simp
    · simpa using hreach

namespace Tier

variable (tier : Tier)

/-- Both tiers expect an operand, and by another name each. -/
theorem admits_expected (h : r.Wants) : r.Admits tier.expected := by
  cases tier <;> exact h

/-- The rest of a chain, once its first item was read. The items are followed one by one: each is
read behind its sign, and the round that ends the chain has failed honestly. -/
theorem told_tail (hitem : Tells ts outer tier.item k) (c : Cursor) (left : Node)
    (hlen : c.rest.length ≤ k) (hat : c.At ts)
    (hreach : Reach ts (0, .start) (c.index, ⟨outer, .complete⟩)) (hc : c.Trusts ts) :
    Told ts outer x (tier.tail c left) := by
  rw [tier.tail_eq]
  cases hb : begins tier.isSign c.rest with
  -- no sign, and the chain ends here
  | false =>
    rw [tier.signed_of_begins_false hb]
    show Told ts outer x (.matched left, c.accept c)
    rw [Cursor.accept_of_le (Nat.le_refl _)]
    exact .read hat hreach hc
  | true =>
    obtain ⟨o, r, hr, ho⟩ := exists_cons_of_begins hb
    have hget : ts[c.index]? = some o := hat.getElem? hr
    have hsign : o.kind.isSign = true := tier.isSign_tokenKind ho
    -- a round takes the sign at least, so the recursion ends
    have hshort : (c.skip 1).rest.length < c.rest.length := by
      rw [Cursor.rest_skip_one hr, hr, List.length_cons]
      omega
    have hawaits : Awaits ts (c.skip 1).index outer := awaits_sign hreach hget hsign
    have hitem' := hitem (c.skip 1) (by omega) (hat.skip 1) hawaits (hc.skip 1)
    rw [tier.signed_of_sign hr ho]
    rcases hview : tier.item (c.skip 1) with ⟨v | _ | e, d⟩
    · -- one more item, and the chain goes on behind it
      have hless : d.rest.length < (c.skip 1).rest.length := tier.rest_lt_of_item hview
      rw [hview] at hitem'
      cases hitem' with
      | read hat' hreach' hd =>
        have hshorter : (c.accept d).rest.length < c.rest.length := by
          rw [Cursor.rest_accept]
          omega
        have hat'' : (c.accept d).At ts :=
          hat'.of_eq (Cursor.rest_accept c d) (Cursor.index_accept c d)
        rw [← Cursor.index_accept c d] at hreach'
        exact told_tail hitem (c.accept d) _ (by omega) hat'' hreach' (hc.accept hd)
    · rw [hview] at hitem'
      cases hitem' with
      | absent =>
        -- the item is missing, and it is what the reader wants
        obtain ⟨r', hwants, -, hr'⟩ := hawaits
        have he : Honest ts ((c.skip 1).refuse (some tier.expected)) :=
          honest_refuse (hat.skip 1) hr' (tier.admits_expected hwants)
        exact told_afterRound_failed hat hreach hc he ((hc.skip 1).note he)
    · rw [hview] at hitem'
      cases hitem' with
      | failed he hd => exact told_afterRound_failed hat hreach hc he (hd.note he)
termination_by c.rest.length
decreasing_by exact hshorter

/-- A chain is told honestly when its items are. If the first item is missing or fails, that is all
the chain has to tell; otherwise the rest of it is told from there. -/
theorem told_whole (hitem : Tells ts outer tier.item k) : Tells ts outer tier.whole k := by
  intro x hlen hat hx htrusts
  have hfirst := hitem x hlen hat hx htrusts
  rw [tier.whole_eq]
  rcases hview : tier.item x with ⟨head | _ | e, d⟩
  · have hless : d.rest.length < x.rest.length := tier.rest_lt_of_item hview
    rw [hview] at hfirst
    cases hfirst with
    | read hat' hreach hd =>
      apply Told.noted
      exact tier.told_tail hitem d head (by omega) hat' hreach hd
  · rw [hview] at hfirst
    exact hfirst.noted
  · rw [hview] at hfirst
    exact hfirst.noted

end Tier

/-! ### Factors -/

/-- The bracketed sum, tried at `y` after the reference has failed with `e` at the cursor `c`. Its
opening bracket stands at the place `i`.

The failure of the two alternatives that is reported may be either one. Both are honest, so which of
them is deeper need not be known. -/
theorem told_afterGroup {y : Cursor} {o : Token} {i : Nat} {view : View Node}
    (hskip : (y.skip 1).At ts)
    (hbracket : Reach ts (0, .start) (y.index + 1, ⟨i :: outer, .opening⟩))
    (hy : y.Trusts ts) (he : Honest ts e)
    (hview : Told ts (i :: outer) (y.skip 1) view) :
    Told ts outer x (View.noted (afterGroup y e c (afterOpening o view))) := by
  -- however the sum fails, its failure is reported or the one of the reference is
  have hfailed : ∀ e' d', Honest ts e' → d'.Trusts ts →
      Told ts outer x (View.noted (afterGroup y e c (.failed e', d'))) := by
    intro e' d' he' hd'
    have hlearned : (y.learn e' d').Trusts ts := hy.learn he' hd'
    apply Told.noted
    simp only [afterGroup]
    split
    · exact .failed he' (hlearned.accept hd')
    · split
      · exact .failed he' (hlearned.note he')
      · exact .failed he (hlearned.note he)
  cases hview with
  -- nothing stands behind the bracket that a sum could begin with
  | absent =>
    have hadmits : Reader.Admits ⟨i :: outer, .opening⟩ .exprClosing :=
      ⟨rfl, List.cons_ne_nil _ _⟩
    exact hfailed _ _ (honest_refuse hskip hbracket hadmits) (hy.skip 1)
  | @read inner d hat' hreach hd =>
    simp only [afterOpening]
    cases hclose : begins (· == .closeParen) d.rest with
    | false =>
      have hadmits : Reader.Admits ⟨i :: outer, .complete⟩ .closing :=
        ⟨.inr rfl, List.cons_ne_nil _ _⟩
      rw [if_neg Bool.false_ne_true]
      exact hfailed _ _ (honest_refuse hat' hreach hadmits) hd
    | true =>
      obtain ⟨p, s, hs, hp⟩ := exists_cons_of_begins hclose
      have hkind : p.kind = .closeParen := eq_of_beq hp
      have hclosed : Reach ts (0, .start) (d.index + 1, ⟨outer, .complete⟩) := by
        apply reach_next hreach (hat'.getElem? hs)
        rw [hkind]
        exact Reader.next_closeParen (.inr rfl)
      rw [if_pos rfl]
      show Told ts outer x (.matched _, y.accept (d.skip 1))
      refine .read ?_ ?_ (hy.accept (hd.skip 1))
      · exact (hat'.skip 1).of_eq (Cursor.rest_accept _ _) (Cursor.index_accept _ _)
      · rw [Cursor.index_accept]
        exact hclosed
  | failed he' hd => exact hfailed _ _ he' hd

/-- Where a reference was tried and has failed with `e`, the bracketed sum is tried. The reference
has looked at fewer tokens than the lookahead, so it does not commit the rule. -/
theorem told_group {i : Nat}
    (hexpr : ∀ inner, Tells ts inner (fun y => (expr y).view) x.rest.length)
    (hs : x.rest = o :: s) (ho : o.kind = .openParen)
    (hkpi : (kpi x).view = (.failed e, x.skip i)) (hi : i ≤ lookahead) (he : Honest ts e)
    (hopened : Reach ts (0, .start) (x.index + 1, ⟨x.index :: outer, .opening⟩))
    (hat : x.At ts) (htrusts : x.Trusts ts) : Told ts outer x (factor x).view := by
  have hnumber : begins (· == .number) x.rest = false := by simp [hs, ho]
  have hy : (x.learn e (x.skip i)).Trusts ts := htrusts.learn he (htrusts.skip i)
  have hyat : (x.learn e (x.skip i)).At ts :=
    hat.of_eq (Cursor.rest_learn _ _ _) (Cursor.index_learn _ _ _)
  have hyrest : (x.learn e (x.skip i)).rest = o :: s := by
    rw [Cursor.rest_learn, hs]
  have hyindex : (x.learn e (x.skip i)).index = x.index := Cursor.index_learn _ _ _
  rw [factor_eq_group hnumber hkpi (x.committed_skip hi)]
  generalize x.learn e (x.skip i) = y at hy hyat hyrest hyindex
  rw [← hyindex] at hopened
  have hshort : (y.skip 1).rest.length < x.rest.length := by
    rw [Cursor.rest_skip_one hyrest, hs, List.length_cons]
    omega
  have hinner := hexpr (y.index :: outer) (y.skip 1) hshort (hyat.skip 1)
    ⟨_, .inr rfl, rfl, hopened⟩ (hy.skip 1)
  rw [group_eq hyrest ho]
  exact told_afterGroup (hyat.skip 1) hopened hy he hinner

/-- A bracket starts a reference or a sum. The reference is tried first, and where it fails the
reader says what is missing: the name behind the bracket, or the bracket behind the name. -/
theorem told_bracket (hexpr : ∀ inner, Tells ts inner (fun y => (expr y).view) x.rest.length)
    (hs : x.rest = o :: s) (ho : o.kind = .openParen)
    (hopened : Reach ts (0, .start) (x.index + 1, ⟨x.index :: outer, .opening⟩))
    (hat : x.At ts) (htrusts : x.Trusts ts) : Told ts outer x (factor x).view := by
  cases hi : begins (· == .ident) s with
  -- the name is missing
  | false =>
    have hadmits : Reader.Admits ⟨x.index :: outer, .opening⟩ .identClosing :=
      ⟨rfl, List.cons_ne_nil _ _⟩
    have he : Honest ts ((x.skip 1).refuse (some .identClosing)) :=
      honest_refuse (hat.skip 1) hopened hadmits
    exact told_group hexpr hs ho (kpi_eq_failed_ident hs ho hi) (by decide) he hopened hat htrusts
  | true =>
    obtain ⟨i, u, rfl, hident⟩ := exists_cons_of_begins hi
    have hikind : i.kind = .ident := eq_of_beq hident
    have higet : ts[x.index + 1]? = some i := (hat.skip 1).getElem? (Cursor.rest_skip_one hs)
    have hnamed : Reach ts (0, .start) (x.index + 2, ⟨x.index :: outer, .named⟩) := by
      apply reach_next hopened higet
      rw [hikind]
      exact Reader.next_ident
    cases hp : begins (· == .closeParen) u with
    -- the name is there, but the bracket behind it is missing
    | false =>
      have hadmits : Reader.Admits ⟨x.index :: outer, .named⟩ .closing :=
        ⟨.inl rfl, List.cons_ne_nil _ _⟩
      have he : Honest ts ((x.skip 2).refuse (some .closing)) :=
        honest_refuse (hat.skip 2) hnamed hadmits
      exact told_group hexpr hs ho (kpi_eq_failed_closing hs ho hikind hp) (by decide) he hopened
        hat htrusts
    | true =>
      obtain ⟨p, v, rfl, hclose⟩ := exists_cons_of_begins hp
      have hpkind : p.kind = .closeParen := eq_of_beq hclose
      have hprest : (x.skip 2).rest = p :: v := by simp [Cursor.skip, hs]
      rw [factor_eq_agg hs ho hikind hpkind]
      refine .read (hat.skip 3) ?_ (htrusts.skip 3)
      apply reach_next hnamed ((hat.skip 2).getElem? hprest)
      rw [hpkind]
      exact Reader.next_closeParen (.inl rfl)

/-- A factor is told honestly when the sums inside of its brackets are. Numbers and brackets begin a
factor; at all other tokens there is none, and no failure either. -/
theorem told_factor (hexpr : ∀ inner, Tells ts inner (fun y => (expr y).view) x.rest.length)
    (hat : x.At ts) (hx : Awaits ts x.index outer) (htrusts : x.Trusts ts) :
    Told ts outer x (factor x).view := by
  -- the first token decides: a number, a bracket, or no factor
  obtain ⟨r, hwants, rfl, hreach⟩ := hx
  cases hn : begins (· == .number) x.rest with
  | true =>
    obtain ⟨t, s, hs, ht⟩ := exists_cons_of_begins hn
    have hkind : t.kind = .number := eq_of_beq ht
    rw [factor_eq_number hs hkind]
    refine .read (hat.skip 1) ?_ (htrusts.skip 1)
    apply reach_next hreach (hat.getElem? hs)
    rw [hkind]
    exact Reader.next_number hwants
  | false =>
    cases hb : begins (· == .openParen) x.rest with
    | false =>
      rw [factor_eq_noMatch hn hb]
      exact .absent
    | true =>
      obtain ⟨o, s, hs, ho⟩ := exists_cons_of_begins hb
      have hkind : o.kind = .openParen := eq_of_beq ho
      have hopened : Reach ts (0, .start) (x.index + 1, ⟨x.index :: r.opened, .opening⟩) := by
        apply reach_next hreach (hat.getElem? hs)
        rw [hkind]
        exact Reader.next_openParen hwants
      exact told_bracket hexpr hs hkind hopened hat htrusts

/-- Sums are followed by the reader, and leave honest failures only. -/
theorem told_expr (k : Nat) : ∀ outer, Tells ts outer (fun x => (expr x).view) k := by
  -- `k` bounds the tokens that are left, as a bracket opens a sum with fewer of them
  induction k with
  | zero =>
    intro outer x hx
    omega
  | succ k ih =>
    intro outer
    have hfactor : Tells ts outer Tier.product.item (k + 1) := by
      intro y hy
      exact told_factor fun inner z hz => ih inner z (by omega)
    exact Tier.sum.told_whole (Tier.product.told_whole hfactor)

end Telling

/-! ## What can go on -/

/-- The tokens from the place `i` on start with the words `ws`. What is expected at a place need not
stand there; it is put there, and then the reader goes through it. -/
def Stands (ts : List Token) (i : Nat) (ws : List Word) : Prop :=
  ws <+: (ts.drop i).map Token.word

section Going

variable {ts : List Token} {i : Nat} {us vs ws : List Word} {w : Word} {l : Level} {n : Node}
  {r : Reader}

namespace Stands

theorem left (h : Stands ts i (us ++ vs)) : Stands ts i us :=
  (List.prefix_append us vs).trans h

theorem right (h : Stands ts i (us ++ vs)) : Stands ts (i + us.length) vs := by
  obtain ⟨rest, hrest⟩ := h
  refine ⟨rest, ?_⟩
  rw [← List.drop_drop, List.map_drop, ← hrest, List.append_assoc, List.drop_left]

theorem tail (h : Stands ts i (w :: ws)) : Stands ts (i + 1) ws := by
  have hsplit : Stands ts i ([w] ++ ws) := h
  exact hsplit.right

/-- The token at the place is of the kind of the first word. Its text need not be looked at. -/
theorem head (h : Stands ts i (w :: ws)) : ∃ t, ts[i]? = some t ∧ t.kind = w.kind := by
  obtain ⟨rest, hrest⟩ := h
  have hget : ts[i]?.map Token.word = some w := by
    rw [← List.head?_drop, ← List.head?_map, ← hrest]
    rfl
  obtain ⟨t, ht, rfl⟩ := Option.map_eq_some_iff.1 hget
  exact ⟨t, ht, rfl⟩

end Stands

/-- No tree starts with a name. A bracket before it can therefore not be the bracket of a
reference. -/
theorem GrammarTree.not_ident (h : GrammarTree l n) (hn : Stands ts i n.words) :
    ∀ t, ts[i]? = some t → t.kind ≠ .ident := by
  obtain ⟨w, ws, hw, hkind⟩ := h.words_head
  rw [hw] at hn
  obtain ⟨t, ht, hk⟩ := hn.head
  intro t' ht' hident
  obtain rfl : t = t' := Option.some.inj (ht.symm.trans ht')
  rw [← hk, hident] at hkind
  exact hkind.elim nofun nofun

/-- A tree is an operand, whatever is open around it. By induction on the tree: a bracket is passed
together with what is inside, and a sign joins the operands around it. -/
theorem GrammarTree.read (h : GrammarTree l n) :
    ∀ {i : Nat}, Stands ts i n.words → Read ts i (i + n.words.length) := by
  induction h with
  | number _ text =>
    intro i hn
    obtain ⟨t, ht, hk⟩ := hn.head
    exact Read.number ht hk
  | agg _ name =>
    intro i hn
    obtain ⟨o, ho, hok⟩ := hn.head
    obtain ⟨t, ht, hk⟩ := hn.tail.head
    obtain ⟨p, hp, hpk⟩ := hn.tail.tail.head
    exact Read.reference ho hok ht hk hp hpk
  | @paren _ inner hi ih =>
    intro i hn
    -- the bracket, the sum inside, and the closing bracket behind all of its words
    have hinner : Stands ts (i + 1) inner.words := hn.left.tail
    obtain ⟨o, ho, hok⟩ := hn.head
    obtain ⟨p, hp, hpk⟩ := hn.right.head
    have hlength : i + (Word.opening :: inner.words).length = i + 1 + inner.words.length := by
      rw [List.length_cons]
      omega
    rw [hlength] at hp
    have hread := Read.bracket ho hok (hi.not_ident hinner) (ih hinner) hp hpk
    rwa [Node.words, List.length_append, ← Nat.add_assoc, hlength]
  | ofFactor _ ih => exact ih
  | ofTerm _ ih => exact ih
  | @mulDiv _ op l r hop _ _ ihl ihr | @addSub _ op l r hop _ _ ihl ihr =>
    intro i hn
    have hright : Stands ts (i + l.words.length) (Word.sign op :: r.words) := hn.right
    obtain ⟨o, ho, hok⟩ := hright.head
    -- what stands between the operands is a sign of either tier
    have hsign : o.kind.isSign = true := by
      rw [hok, TokenKind.isSign]
      simp only [isMulOp_sign, isAddOp_sign, hop, Bool.or_true, Bool.true_or]
    have hread := (ihl hn.left).append_sign ho hsign (ihr hright.tail)
    rw [Node.words, List.length_append, List.length_cons]
    rwa [show i + (l.words.length + (r.words.length + 1)) =
      i + l.words.length + 1 + r.words.length by omega]

/-- A reader that wants an operand gets through all words of a tree, and nothing more is open behind
it. -/
theorem GrammarTree.reach (h : GrammarTree l n) (hn : Stands ts i n.words) (hr : r.Wants) :
    Reach ts (i, r) (i + n.words.length, ⟨r.opened, .complete⟩) := by
  have hread : Read ts i (i + n.words.length) := h.read hn
  obtain ⟨opened, phase⟩ := r
  rcases hr with rfl | rfl
  · exact hread opened
  · exact Reach.of_opening (hread opened) hread.lt (h.not_ident hn)

/-- Where a bracket is open, and a name or an operand was read in it, the closing bracket is
taken. -/
theorem reach_closing (hw : Stands ts i [Word.closing])
    (hr : (r.phase = .named ∨ r.phase = .complete) ∧ r.opened ≠ []) :
    ∃ r', Reach ts (i, r) (i + 1, r') := by
  obtain ⟨p, hp, hk⟩ := hw.head
  obtain ⟨opened, phase⟩ := r
  obtain ⟨b, outer, rfl⟩ := List.exists_cons_of_ne_nil hr.2
  have hnext : Reader.next ⟨b :: outer, phase⟩ i p.kind = some ⟨outer, .complete⟩ := by
    rw [hk]
    exact Reader.next_closeParen hr.1
  exact ⟨_, .single (Move.of_next hp hnext)⟩

/-- The reader takes all words of what it admits. The cases are the five expectations; what is
expected inside a bracket ends with the bracket that closes it. -/
theorem Expected.Derives.reach {x : Expected} (h : x.Derives ws) (hw : Stands ts i ws)
    (hr : r.Admits x) : ∃ r', Reach ts (i, r) (i + ws.length, r') := by
  cases h with
  | term h => exact ⟨_, h.reach hw hr⟩
  | factor h => exact ⟨_, h.reach hw hr⟩
  | closing => exact reach_closing hw hr
  | exprClosing h =>
    have hinner := h.reach hw.left (.inr hr.1)
    obtain ⟨r', hclosed⟩ := reach_closing (r := ⟨r.opened, .complete⟩) hw.right ⟨.inr rfl, hr.2⟩
    rw [List.length_append, ← Nat.add_assoc]
    exact ⟨r', hinner.trans hclosed⟩
  | identClosing name =>
    obtain ⟨t, ht, hk⟩ := hw.head
    obtain ⟨opened, phase⟩ := r
    obtain ⟨rfl, hopened⟩ := hr
    have hnamed : Reader.next ⟨opened, .opening⟩ i t.kind = some ⟨opened, .named⟩ := by
      rw [hk]
      exact Reader.next_ident
    obtain ⟨r', hclosed⟩ := reach_closing (r := ⟨opened, .named⟩) hw.tail ⟨.inl rfl, hopened⟩
    exact ⟨r', hclosed.head (Move.of_next ht hnamed)⟩

/-- A word that the lexer can give is spelled as its kind asks for. -/
theorem Word.Lexical.spelled (h : w.Lexical) : w.Spelled := by
  cases h with
  | number | ident => exact nofun
  | mark hspelling =>
    intro s hs
    exact Option.some.inj (hspelling.symm.trans hs)

theorem Word.spelled_of_spelling?_eq_none {w : Word} (h : w.kind.spelling? = none) :
    w.Spelled := by
  intro s hs
  rw [h] at hs
  cases hs

/-- All words of a tree are spelled as their kinds ask for: marks by the grammar, numbers and names
because any text will do for them. -/
theorem GrammarTree.spelled_words (h : GrammarTree l n) : ∀ w ∈ n.words, w.Spelled := by
  induction h with
  | number _ text => exact List.forall_mem_singleton.2 (Word.spelled_of_spelling?_eq_none rfl)
  | agg _ name =>
    have hopening : Word.opening.Spelled := Word.lexical_opening.spelled
    have hname : (Word.mk .ident name).Spelled := Word.spelled_of_spelling?_eq_none rfl
    simp only [Node.words, List.forall_mem_cons, Word.spelled_closing]
    exact ⟨hopening, hname, trivial, List.forall_mem_nil _⟩
  | paren _ _ ih =>
    have hopening : Word.opening.Spelled := Word.lexical_opening.spelled
    simp only [Node.words, List.cons_append, List.forall_mem_cons, List.forall_mem_append]
    exact ⟨hopening, ih, Word.spelled_closing, List.forall_mem_nil _⟩
  | ofFactor _ ih => exact ih
  | ofTerm _ ih => exact ih
  | mulDiv _ hop _ _ ihl ihr =>
    simp only [Node.words, List.forall_mem_append, List.forall_mem_cons]
    exact ⟨ihl, (Word.lexical_sign (.inr hop)).spelled, ihr⟩
  | addSub _ hop _ _ ihl ihr =>
    simp only [Node.words, List.forall_mem_append, List.forall_mem_cons]
    exact ⟨ihl, (Word.lexical_sign (.inl hop)).spelled, ihr⟩

/-- So are the words that are derived from an expectation. -/
theorem Expected.Derives.spelled {x : Expected} (h : x.Derives ws) : ∀ w ∈ ws, w.Spelled := by
  cases h with
  | term h => exact h.spelled_words
  | factor h => exact h.spelled_words
  | closing => exact List.forall_mem_singleton.2 Word.spelled_closing
  | exprClosing h =>
    exact List.forall_mem_append.2
      ⟨h.spelled_words, List.forall_mem_singleton.2 Word.spelled_closing⟩
  | identClosing name =>
    exact List.forall_mem_cons.2 ⟨nofun, List.forall_mem_singleton.2 Word.spelled_closing⟩

/-- The tokens that the reader has taken start some grammatical formula. -/
theorem viable_of_reach (hs : AllSpelled ts) (h : Reach ts (0, .start) (i, r)) :
    Viable (((ts.take i).map Token.word).map some) := by
  obtain ⟨n, hn, hstarts⟩ := exists_tree_of_take hs h
  exact ⟨n, hn, (hstarts.map some).trans (List.prefix_append _ _)⟩

/-- What the reader admits can follow the tokens that it has taken: put behind them, it is taken as
well, and what a reader takes starts a formula. -/
theorem Expected.Derives.viable {x : Expected} (hws : x.Derives ws) (hs : AllSpelled ts)
    (hreach : Reach ts (0, .start) (i, r)) (hr : r.Admits x) :
    Viable (((ts.take i).map Token.word ++ ws).map some) := by
  -- the words are put behind the tokens that were taken; up to there nothing changes
  have hi : (ts.take i).length = i :=
    List.length_take_of_le (Reach.le_length hreach (Nat.zero_le _))
  have hwords : ((ts.take i ++ ws.map Word.token).drop i).map Token.word = ws := by
    rw [List.drop_left' hi, map_word_map_token]
  have hstands : Stands (ts.take i ++ ws.map Word.token) i ws :=
    ⟨[], (List.append_nil ws).trans hwords.symm⟩
  have hspelled : AllSpelled (ts.take i ++ ws.map Word.token) := by
    intro t ht
    rcases List.mem_append.1 ht with h | h
    · exact hs t (List.mem_of_mem_take h)
    · obtain ⟨w, hw, rfl⟩ := List.mem_map.1 h
      exact hws.spelled w hw
  -- the reader takes these as before, and then the derived words
  obtain ⟨r', hmore⟩ := hws.reach hstands hr
  have hviable := viable_of_reach hspelled ((hreach.take_append (ws.map Word.token)).trans hmore)
  rwa [List.take_of_length_le (by simp [hi]), List.map_append, map_word_map_token] at hviable

end Going

/-! ## Failures of whole formulas -/

section Whole

variable {ts : List Token} {e : Failure}

/-- When the deepest failure lies behind the place where the reading has ended, it is the one that
is reported. -/
theorem reported_of_trusts {c : Cursor} (h : c.Trusts ts) (he : c.deepest = some e)
    (hlt : c.index < c.depth) : Honest ts c.reported := by
  rw [Cursor.reported, if_neg (by omega), he]
  exact h e he

/-- A formula is refused with an honest failure, or with one that expects nothing and is about the
token that the reader stops at.

The second kind arises where no rule has failed at all: there is no operand at the very start, or
the formula is complete and tokens are left over. -/
theorem parseTokens_error_cases (h : parseTokens ts = .error e) :
    Honest ts e ∨ (e.expected = none ∧ e.found = ts[(halt ts).1]?) := by
  -- the same run is looked at twice: for what it remembers, and for where it ends
  have hstart : (Cursor.start ts).At ts := rfl
  have hlength : (Cursor.start ts).rest.length < ts.length + 1 := Nat.lt_succ_self _
  have htrusts : (Cursor.start ts).Trusts ts := nofun
  have htold : Told ts [] (.start ts) (expr (.start ts)).view :=
    told_expr (ts.length + 1) [] (.start ts) hlength hstart (awaits_start ts) htrusts
  have hreport := report_expr (ts.length + 1) (.start ts) hlength hstart (Nat.le_refl _)
  rw [parseTokens_eq] at h
  generalize (expr (.start ts)).view = view at htold hreport h
  cases hreport with
  -- no operand at the start: nothing was tried, nothing is expected
  | absent hrefused =>
    obtain rfl := Except.error.inj h
    rw [hrefused.halt_eq]
    exact .inr ⟨rfl, Cursor.reported_of_le hstart (Nat.le_refl _)⟩
  -- the reader stops with the parser, and the next token is refused without an expectation
  | @whole n c hread hat hdepth hnext =>
    have hle : c.depth ≤ c.index := by
      change c.depth ≤ max 0 (c.index - 2) at hdepth
      omega
    have hhalt : halt ts = (c.index, ⟨[], .complete⟩) := (eq_halt (hread []) (hat.stuck hnext)).symm
    cases hc : c.rest with
    | nil =>
      rw [afterSum, hc] at h
      cases h
    | cons t r =>
      rw [afterSum, hc] at h
      obtain rfl := Except.error.inj h
      rw [hhalt]
      exact .inr ⟨by rw [Cursor.reported, if_pos hle]; rfl, Cursor.reported_of_le hat hle⟩
  -- the parser ends before the reader does, because a round was given up; its failure is deepest
  | @part n c v opened phase hrefused hlt hat hv hknows hnext hdrops =>
    obtain ⟨t, r, hc, -⟩ := exists_cons_of_begins hnext
    rw [afterSum, hc] at h
    obtain rfl := Except.error.inj h
    obtain ⟨rfl, e, he, -⟩ := hknows
    cases htold with
    | read _ _ hc => exact .inl (reported_of_trusts hc he hv)
  | abandoned | final =>
    obtain rfl := Except.error.inj h
    cases htold with
    | failed he _ => exact .inl he

end Whole

/-- The failure `e` is true of the formula with the tokens `ts`, and is about the place `k` in it,
which may be the end. -/
structure Failure.Truthful (e : Failure) (ts : List Token) (k : Nat) : Prop where
  le : k ≤ ts.length
  found : e.found = ts[k]?
  /-- Some grammatical formula starts with the tokens before. -/
  before : Viable (((ts.take k).map Token.word).map some)
  /-- So does one with any words derived from what is expected in its place. -/
  expected : ∀ x, e.expected = some x → ∀ ws, x.Derives ws →
    Viable (((ts.take k).map Token.word ++ ws).map some)
  /-- Where nothing is expected, no grammatical formula goes on with the token itself. -/
  unexpected : e.expected = none → ¬ Viable ((sentence (ts.map Token.word)).take (k + 1))

/-- An honest failure is true: the reader comes to the place of it, and what is expected there can
be read. -/
theorem Honest.truthful {ts : List Token} {e : Failure} (hs : AllSpelled ts) (h : Honest ts e) :
    ∃ k, e.Truthful ts k := by
  obtain ⟨k, r, x, hreach, hfound, hexpected, hadmits⟩ := h
  -- the place, the tokens before it and what can go on; it does expect something
  refine ⟨k, ?_, hfound, viable_of_reach hs hreach, ?_, ?_⟩
  · exact Reach.le_length hreach (Nat.zero_le _)
  · intro x' hx' ws hws
    obtain rfl : x = x' := Option.some.inj (hexpected.symm.trans hx')
    exact hws.viable hs hreach hadmits
  · intro hnone
    rw [hexpected] at hnone
    cases hnone

/-- Whatever a formula is refused with is true of some place in it. For an honest failure this is
the place that it is about, and otherwise the one where the reader stops. -/
theorem truthful_of_parseTokens {ts : List Token} {e : Failure} (hs : AllSpelled ts)
    (h : parseTokens ts = .error e) : ∃ k, e.Truthful ts k := by
  rcases parseTokens_error_cases h with hhonest | ⟨hnone, hfound⟩
  · exact hhonest.truthful hs
  · -- no grammatical formula goes on with the token that the reader stops at
    refine ⟨(halt ts).1, ?_, hfound, viable_of_reach hs (reach_halt ts), ?_, ?_⟩
    · exact Reach.le_length (reach_halt ts) (Nat.zero_le _)
    · intro x hx
      rw [hnone] at hx
      cases hx
    · intro _
      rcases parseTokens_cases ts with ⟨n, hn, -⟩ | ⟨-, -, hne, -⟩
      · rw [h] at hn
        cases hn
      · exact not_viable_halt hne

end KpiReport.Formula

/-! ## Syntax errors -/

namespace KpiReport

open Formula

/-- A syntax error is about one token of the formula, or its end, and what it says is true: a
grammatical formula starts with the tokens before, and it can go on with everything that is expected
there. Where nothing is expected, none goes on with the token itself. -/
theorem parseFormula_error_expectation {f : String} {err : CompileError}
    (hlex : (scan f).complete = true) (herr : parseFormula f = .error err) :
    let ts := (scan f).tokens
    ∃ e k, Formula.parse f = .error (.unexpected e (scan f).stop) ∧
      err = .malformed f ((scan f).place k).line ((scan f).place k).column e.message ∧
      e.Truthful ts k ∧ ∀ j ≤ ts.length, err.PointsAt ((scan f).place j) → j = k := by
  intro ts
  obtain ⟨e, he, rfl⟩ := (parseFormula_eq_error_iff hlex).1 herr
  obtain ⟨k, hk⟩ := truthful_of_parseTokens (fun t ht => spelled_of_mem_scan ht) he
  have hpoints := CompileError.PointsAt.ofFault (f := f) hk.found
  refine ⟨e, k, ?_, ?_, hk, ?_⟩
  · rw [Formula.parse, if_pos hlex, he]
    rfl
  · rw [CompileError.ofFault, Fault.pos, hk.found]
    rfl
  · -- tokens at different places have different positions
    intro j hj hpoints'
    apply Nat.le_antisymm
    · exact Nat.le_of_not_lt fun hlt =>
        hpoints.not_before hpoints' (place_scanFrom_before _ _ _ _ hlt hj)
    · exact Nat.le_of_not_lt fun hlt =>
        hpoints'.not_before hpoints (place_scanFrom_before _ _ _ _ hlt hk.le)

/-- In brackets a sign without an operand is refused in place of the closing bracket. The sign
stands at the third column, and the bracket could indeed have been closed there. -/
theorem parseFormula_error_expectation_bracket :
    ∃ (err : CompileError) (e : Failure), (scan "(1+)").complete = true ∧
      parseFormula "(1+)" = .error err ∧
      err = .malformed "(1+)" 1 3 e.message ∧ e.Truthful (scan "(1+)").tokens 2 := by
  have hlex : (scan "(1+)").complete = true := by decide +kernel
  have hhalt : halt (scan "(1+)").tokens = (3, ⟨[0], .operand⟩) := by decide +kernel
  obtain ⟨err, herr, hpoints⟩ := exists_parseFormula_error hlex (by rw [hhalt]; decide +kernel)
  obtain ⟨e, k, -, hmessage, htruthful, hunique⟩ := parseFormula_error_expectation hlex herr
  have hblame : blame (scan "(1+)").tokens = 2 := by decide +kernel
  have hplace : (scan "(1+)").place 2 = ⟨2, 1, 3⟩ := by decide +kernel
  rw [hblame] at hpoints
  obtain rfl : 2 = k := hunique 2 (by decide +kernel) hpoints
  rw [hplace] at hmessage
  exact ⟨err, e, hlex, herr, hmessage, htruthful⟩

end KpiReport
