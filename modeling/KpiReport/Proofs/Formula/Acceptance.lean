import KpiReport.Proofs.Formula.Derivation

/-!
# The parser accepts exactly the grammar

The headline is `parse_ok_iff_grammarTree`: a text parses to a tree exactly when it scans and the
tree is one of the grammar with the words of the text. Neither the failures that a repetition
swallows nor those that are final change that, for any nesting depth.

## The architecture

* **`BuiltFrom.sound`** — a match is built from the tokens it has consumed, and a tree that is built
  from well spelled tokens is one of the grammar with their words.
* **`Reads`** — some tokens have certain words, and others are left after them.
* **`grammarTree_complete`** — tokens with the words of a tree are read as that tree. A chain is
  followed from left to right: reading the words of its left part leads to the rest of the chain
  with that part in hand (`Tier.Leads`), and one more signed item leads on. No rule fails on the
  way, except for the reference that is tried before each bracketed sum, and that failure is never
  final.
-/

namespace KpiReport.Formula

/-! ## A match is a tree of the grammar -/

/-- All tokens are spelled as their kinds say. -/
def AllSpelled (ts : List Token) : Prop :=
  ∀ t ∈ ts, t.word.Spelled

theorem AllSpelled.head {t : Token} {r : List Token} (h : AllSpelled (t :: r)) : t.word.Spelled :=
  h t List.mem_cons_self

/-- Tokens are well spelled where those on the two sides of one of them are, and the one itself. -/
theorem allSpelled_append_cons (ls : List Token) {rs : List Token} {o : Token} :
    AllSpelled (ls ++ o :: rs) ↔ AllSpelled ls ∧ o.word.Spelled ∧ AllSpelled rs := by
  simp only [AllSpelled, List.forall_mem_append, List.forall_mem_cons]

/-- The words of two operands and the sign between them. -/
theorem map_word_of_sign {ls rs : List Token} {o : Token} (ho : o.word = Word.sign o.text) :
    (ls ++ o :: rs).map Token.word =
      ls.map Token.word ++ Word.sign o.text :: rs.map Token.word := by
  rw [List.map_append, List.map_cons, ho]

/-- A tree that is built from well spelled tokens is one of the grammar and has their words. The
tokens were asked for by their kinds; spelling is what makes the sign in the tree the sign that was
read. -/
theorem BuiltFrom.sound {l : Level} {n : Node} {us : List Token} (h : BuiltFrom l n us)
    (hs : AllSpelled us) : GrammarTree l n ∧ n.words = us.map Token.word := by
  induction h with
  | number ht =>
    refine ⟨.number _ _, ?_⟩
    rw [Node.words, ← ht]
    rfl
  | @agg o i p ho hi hp =>
    obtain ⟨hos, hps, -⟩ := (allSpelled_append_cons [o, i]).1 hs
    refine ⟨.agg _ _, ?_⟩
    rw [Node.words, ← hos.head.eq_opening ho, ← hps.eq_closing hp, ← hi]
    rfl
  | @paren o p inner us ho _ hp ih =>
    obtain ⟨hos, hps, -⟩ := (allSpelled_append_cons _).1 hs
    obtain ⟨-, -, hus⟩ := (allSpelled_append_cons []).1 hos
    obtain ⟨htree, hwords⟩ := ih hus
    refine ⟨.paren _ htree, ?_⟩
    rw [Node.words, hwords, ← hos.head.eq_opening ho, ← hps.eq_closing hp, List.map_append]
    rfl
  -- the two levels that pass a tree on keep its words
  | ofFactor _ ih => exact (ih hs).imp_left .ofFactor
  | ofTerm _ ih => exact (ih hs).imp_left .ofTerm
  | mulDiv ho _ _ ihl ihr =>
    obtain ⟨hls, hos, hrs⟩ := (allSpelled_append_cons _).1 hs
    obtain ⟨hl, hlw⟩ := ihl hls
    obtain ⟨hr, hrw⟩ := ihr hrs
    obtain ⟨hop, hword⟩ := hos.eq_sign_of_isMulOp ho
    exact ⟨.mulDiv _ hop hl hr, by rw [Node.words, hlw, hrw, map_word_of_sign hword]⟩
  | addSub ho _ _ ihl ihr =>
    obtain ⟨hls, hos, hrs⟩ := (allSpelled_append_cons _).1 hs
    obtain ⟨hl, hlw⟩ := ihl hls
    obtain ⟨hr, hrw⟩ := ihr hrs
    obtain ⟨hop, hword⟩ := hos.eq_sign_of_isAddOp ho
    exact ⟨.addSub _ hop hl hr, by rw [Node.words, hlw, hrw, map_word_of_sign hword]⟩

/-! ## Reading words -/

/-- The tokens `ts` start with the words `ws`, and `rest` is left after them. -/
def Reads (ts : List Token) (ws : List Word) (rest : List Token) : Prop :=
  ∃ us, ts = us ++ rest ∧ us.map Token.word = ws

namespace Reads

variable {ts rest : List Token} {us vs ws : List Word} {w : Word}

theorem of_nil (h : Reads ts [] rest) : ts = rest := by
  obtain ⟨us, rfl, hus⟩ := h
  rw [List.map_eq_nil_iff.1 hus, List.nil_append]

theorem of_cons (h : Reads ts (w :: ws) rest) :
    ∃ t r, ts = t :: r ∧ t.word = w ∧ Reads r ws rest := by
  obtain ⟨us, rfl, hus⟩ := h
  obtain ⟨t, r, rfl, ht, hr⟩ := List.map_eq_cons_iff.1 hus
  exact ⟨t, r ++ rest, rfl, ht, r, rfl, hr⟩

/-- Words can be read in two goes, with some tokens in between that are left by the first and taken
by the second. -/
theorem of_append (h : Reads ts (us ++ vs) rest) : ∃ rs, Reads ts us rs ∧ Reads rs vs rest := by
  obtain ⟨xs, rfl, hxs⟩ := h
  obtain ⟨as, bs, rfl, ha, hb⟩ := List.map_eq_append_iff.1 hxs
  exact ⟨bs ++ rest, ⟨as, by rw [List.append_assoc], ha⟩, bs, rfl, hb⟩

end Reads

/-! ## The tiers in the grammar -/

namespace Tier

/-- The signs of a chain, as they are written. -/
def signs : Tier → List String
  | sum => sumSigns
  | product => productSigns

theorem bare_node (t : Tier) (pos : Position) (op : String) (l r : Node) :
    (t.node pos op l r).bare = t.node .start op l.bare r.bare := by
  cases t <;> rfl

/-- A sign of the tier has a word that is taken for one. -/
theorem isSign_sign (t : Tier) {op : String} (h : op ∈ t.signs) :
    t.isSign (Word.sign op).kind = true := by
  cases t with
  | sum => exact isAddOp_sign h
  | product => exact isMulOp_sign h

end Tier

/-! ## A tree of the grammar is matched -/

/-- At `x` the rule reads the tree `n`, up to its positions, and leaves `rest`. -/
def Completes (rule : Cursor → View Node) (x : Cursor) (n : Node) (rest : List Token) : Prop :=
  ∃ m c, rule x = (.matched m, c) ∧ m.bare = n.bare ∧ c.rest = rest

namespace Tier

/-- At `x` the chain reads the tree `n`, up to its positions, and goes on from `rest`. -/
def Leads (t : Tier) (x : Cursor) (n : Node) (rest : List Token) : Prop :=
  ∃ m c, t.whole x = View.noted (t.tail c m) ∧ m.bare = n.bare ∧ c.rest = rest

variable {x : Cursor} {n l r : Node} {o : Token} {s rest : List Token} {op : String}

/-- A chain starts with its first item, and what is left of it is its rest. -/
theorem leads_of_item (t : Tier) (h : Completes t.item x n rest) : t.Leads x n rest := by
  obtain ⟨m, c, hm, hbare, hrest⟩ := h
  refine ⟨m, c, ?_, hbare, hrest⟩
  rw [t.whole_eq, hm, afterItem]

/-- A chain that is followed by a sign and an item goes on after them. No failure is met here, so
the item is taken over and the round after it begins. -/
theorem leads_node (t : Tier) (pos : Position) (hl : t.Leads x l (o :: s))
    (ho : o.word = Word.sign op) (hop : op ∈ t.signs)
    (hr : ∀ y : Cursor, y.rest = s → Completes t.item y r rest) :
    t.Leads x (t.node pos op l r) rest := by
  obtain ⟨m, c, hm, hmbare, hc⟩ := hl
  obtain ⟨v, d, hv, hvbare, hd⟩ := hr (c.skip 1) (Cursor.rest_skip_one hc)
  -- the token has the kind and the text of the sign in the tree
  have hkind : t.isSign o.kind = true := by
    have hk : o.kind = (Word.sign op).kind := congrArg Word.kind ho
    rw [hk]
    exact t.isSign_sign hop
  have htext : o.text = op := by
    have ht : o.text = (Word.sign op).text := congrArg Word.text ho
    rw [ht, Word.text_sign]
  refine ⟨t.node o.pos o.text m v, c.accept d, ?_, ?_, ?_⟩
  · rw [hm, t.tail_eq, t.signed_of_sign hc hkind, hv]
    rfl
  · rw [t.bare_node, t.bare_node, hmbare, hvbare, htext]
  · rw [Cursor.rest_accept, hd]

/-- A chain ends where no sign follows. Until then it only leads on, and this is where it is settled
what it has matched. -/
theorem completes_of_leads (t : Tier) (h : t.Leads x n rest)
    (hrest : begins t.isSign rest = false) : Completes t.whole x n rest := by
  obtain ⟨m, c, hm, hbare, rfl⟩ := h
  refine ⟨m, c.accept c, ?_, hbare, Cursor.rest_accept c c⟩
  rw [hm, t.tail_eq, t.signed_of_begins_false hrest]
  rfl

end Tier

/-- Where brackets hold a sum, a factor reads it. The reference is tried first and fails, one token
ahead, because a sum starts with a number or a bracket and never with a name. -/
theorem factor_completes_paren {x : Cursor} {o : Token} {r rest : List Token} {inner : Node}
    (pos : Position) (hr : x.rest = o :: r) (ho : o.word = Word.opening)
    (hinner : GrammarTree .expr inner) (hread : Reads r (inner.words ++ [Word.closing]) rest)
    (hexpr : ∀ y s, Reads y.rest inner.words s → begins TokenKind.isMulOp s = false →
      Tier.sum.Leads y inner s) :
    Completes Tier.product.item x (.paren pos inner) rest := by
  have hokind : o.kind = .openParen := congrArg Word.kind ho
  obtain ⟨w, ws, hw, hkind⟩ := hinner.words_head
  -- no identifier follows the bracket, so the reference fails, and the bracketed sum is tried
  have hident : begins (· == .ident) r = false := by
    rw [hw] at hread
    obtain ⟨t, r', rfl, rfl, -⟩ := hread.of_cons
    rcases hkind with hk | hk <;> simp [show t.kind = _ from hk]
  have hkpi := kpi_eq_failed_ident hr hokind hident
  have hnumber : begins (· == .number) x.rest = false := by simp [hr, hokind]
  have hcommit : x.committed (x.skip 1) = false := x.committed_skip (by decide)
  have hfactor := factor_eq_group hnumber hkpi hcommit
  have hy : (x.learn ((x.skip 1).refuse (some .identClosing)) (x.skip 1)).rest = o :: r := by
    rw [Cursor.rest_learn, hr]
  generalize x.learn ((x.skip 1).refuse (some .identClosing)) (x.skip 1) = y at hfactor hy
  obtain ⟨mid, hmid, hlast⟩ := hread.of_append
  obtain ⟨p, s, rfl, hp, hs⟩ := hlast.of_cons
  obtain rfl := hs.of_nil
  have hpkind : p.kind = .closeParen := congrArg Word.kind hp
  -- the closing bracket is no sign, so the sum ends before it
  have hlead : Tier.sum.Leads (y.skip 1) inner (p :: s) := by
    apply hexpr
    · rw [Cursor.rest_skip_one hy]
      exact hmid
    · rw [begins_cons, hpkind]
      rfl
  obtain ⟨m, c, hm, hbare, hc⟩ := Tier.sum.completes_of_leads hlead (by
    rw [begins_cons, hpkind]
    rfl)
  refine ⟨.paren o.pos m, y.accept (c.skip 1), ?_, ?_, ?_⟩
  · have hclose : begins (· == .closeParen) c.rest = true := by simp [hc, hpkind]
    have hgroup : (group y).view = (.matched (.paren o.pos m), c.skip 1) := by
      rw [group_eq hy hokind, show (expr (y.skip 1)).view = _ from hm, afterOpening, if_pos hclose]
    rw [Tier.item, hfactor, hgroup]
    rfl
  · rw [Node.bare, Node.bare, hbare]
  · rw [Cursor.rest_accept, Cursor.rest_skip_one hc]

/-- What completeness means at each level. A sum that is followed by a product sign would go on with
it, and so is left out. -/
def CompleteAt : Level → Node → Prop
  | .factor, n => ∀ x rest, Reads x.rest n.words rest → Completes Tier.product.item x n rest
  | .term, n => ∀ x rest, Reads x.rest n.words rest → Tier.product.Leads x n rest
  | .expr, n => ∀ x rest, Reads x.rest n.words rest → begins TokenKind.isMulOp rest = false →
      Tier.sum.Leads x n rest

/-- Tokens with the words of a tree are read as that tree. Induction on the tree: a leaf is read by
its kind, a bracketed sum by `factor_completes_paren`, and an operation by following its left part
up to the sign. -/
theorem grammarTree_complete {l : Level} {n : Node} (h : GrammarTree l n) : CompleteAt l n := by
  induction h with
  | number pos text =>
    intro x rest hread
    obtain ⟨t, r, hr, ht, hnil⟩ := hread.of_cons
    obtain rfl := hnil.of_nil
    have hkind : t.kind = .number := congrArg Word.kind ht
    have htext : t.text = text := congrArg Word.text ht
    refine ⟨_, _, factor_eq_number hr hkind, ?_, Cursor.rest_skip_one hr⟩
    rw [htext, Node.bare, Node.bare]
  | agg pos name =>
    intro x rest hread
    obtain ⟨o, r, hr, ho, hread⟩ := hread.of_cons
    obtain ⟨i, r, rfl, hi, hread⟩ := hread.of_cons
    obtain ⟨p, r, rfl, hp, hnil⟩ := hread.of_cons
    obtain rfl := hnil.of_nil
    have hitext : i.text = name := congrArg Word.text hi
    refine ⟨_, _, factor_eq_agg hr (congrArg Word.kind ho) (congrArg Word.kind hi)
      (congrArg Word.kind hp), ?_, ?_⟩
    · rw [hitext, Node.bare, Node.bare]
    · simp [Cursor.skip, hr]
  | paren pos hinner ih =>
    intro x rest hread
    obtain ⟨o, r, hr, ho, hread⟩ := hread.of_cons
    exact factor_completes_paren pos hr ho hinner hread ih
  | ofFactor _ ih =>
    intro x rest hread
    exact Tier.product.leads_of_item (ih x rest hread)
  -- the left part leads up to the sign, whatever stands behind it
  | mulDiv pos hop _ _ ihl ihr =>
    intro x rest hread
    obtain ⟨mid, hl, hread⟩ := hread.of_append
    obtain ⟨o, s, rfl, ho, hr⟩ := hread.of_cons
    refine Tier.product.leads_node pos (ihl x _ hl) ho hop ?_
    intro y hy
    exact ihr y rest (hy ▸ hr)
  | ofTerm _ ih =>
    intro x rest hread hrest
    exact Tier.sum.leads_of_item (Tier.product.completes_of_leads (ih x rest hread) hrest)
  | addSub pos hop _ _ ihl ihr =>
    intro x rest hread hrest
    obtain ⟨mid, hl, hread⟩ := hread.of_append
    obtain ⟨o, s, rfl, ho, hr⟩ := hread.of_cons
    -- a sum sign is no product sign, so the left part can be followed up to it
    have hsum : begins TokenKind.isMulOp (o :: s) = false := by
      rw [begins_cons, show o.kind = _ from congrArg Word.kind ho]
      exact isMulOp_sign_of_mem_sumSigns hop
    refine Tier.sum.leads_node pos (ihl x _ hl hsum) ho hop ?_
    intro y hy
    exact Tier.product.completes_of_leads (ihr y rest (hy ▸ hr)) hrest

/-! ## Whole formulas -/

/-- A token list parses to nothing but a tree of the grammar with its words. -/
theorem parseTokens_sound {ts : List Token} {n : Node} (hs : AllSpelled ts)
    (h : parseTokens ts = .ok n) : GrammarTree .expr n ∧ n.words = ts.map Token.word :=
  (parseTokens_builtFrom h).sound hs

/-- A token list with the words of a tree parses to that tree. There is nothing after the last
token, and so no product sign either. -/
theorem parseTokens_complete {ts : List Token} {n : Node} (hn : GrammarTree .expr n)
    (hw : n.words = ts.map Token.word) : ∃ m, parseTokens ts = .ok m ∧ m.bare = n.bare := by
  have hread : Reads (Cursor.start ts).rest n.words [] := ⟨ts, (List.append_nil ts).symm, hw.symm⟩
  have hlead := grammarTree_complete hn (.start ts) [] hread rfl
  obtain ⟨m, c, hm, hbare, hc⟩ := Tier.sum.completes_of_leads hlead rfl
  exact ⟨m, parseTokens_ok_iff.2 ⟨c, hm, hc⟩, hbare⟩

/-- Whatever a formula parses to is a tree of the grammar with the words of the formula. Scanned
tokens are well spelled, so this asks for nothing more. -/
theorem parse_sound {f : String} {n : Node} (h : parse f = .ok n) :
    GrammarTree .expr n ∧ n.words = (scan f).tokens.map Token.word :=
  parseTokens_sound (fun _ => spelled_of_mem_scan) (parse_ok_iff.1 h).2

/-- A formula with the words of a tree parses to that tree. -/
theorem parse_complete {f : String} {n : Node} (hscan : (scan f).complete = true)
    (hn : GrammarTree .expr n) (hw : n.words = (scan f).tokens.map Token.word) :
    ∃ m, parse f = .ok m ∧ m.bare = n.bare := by
  obtain ⟨m, hm, hbare⟩ := parseTokens_complete hn hw
  exact ⟨m, parse_ok_iff.2 ⟨hscan, hm⟩, hbare⟩

/-- **The parser accepts exactly the grammar.** A text parses to the tree `n`, positions aside, if
and only if the whole text scans and `n` is a tree of the grammar whose words are its tokens. -/
theorem parse_ok_iff_grammarTree (f : String) (n : Node) :
    (∃ m, parse f = .ok m ∧ m.bare = n.bare) ↔
      (scan f).complete = true ∧ GrammarTree .expr n ∧
        n.words = (scan f).tokens.map Token.word := by
  constructor
  · -- positions are given by the parser and not by the tree on the right side
    rintro ⟨m, hm, hbare⟩
    obtain ⟨htree, hwords⟩ := parse_sound hm
    refine ⟨(parse_ok_iff.1 hm).1, htree.of_bare_eq hbare.symm, ?_⟩
    rw [← Node.words_eq_of_bare_eq hbare, hwords]
  · rintro ⟨hscan, htree, hwords⟩
    exact parse_complete hscan htree hwords

end KpiReport.Formula
