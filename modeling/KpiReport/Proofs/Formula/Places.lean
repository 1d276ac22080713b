import KpiReport.Proofs.Formula.Reading
import KpiReport.Proofs.Formula.Refusal
import KpiReport.Proofs.Formula.Tiling
import Mathlib.Data.List.Nodup

/-!
# Where the nodes of a tree stand

A tree that was parsed is read next to its text: its positions say which token each node comes from.

* **`Node.Located`** — what the positions of a tree say about the tokens of its text. A number has
  its own token, brackets have the pair of tokens that match each other, and an operation has its
  sign, with all of one operand before it and all of the other one behind it.
* **`pairwise_precedes_scan`** — the tokens of a text stand one behind the other: in the bytes,
  since none begins before the one in front of it has ended, and in the lines and columns.
* **`BuiltFrom.located`** — a tree that is built from such tokens is located. That brackets match is
  counted along the tree (`BuiltFrom.closing?_append`): what a tree is built from closes all it
  opens.
* **`positions_of_parse`** — so a parsed tree is located. No two of its nodes have one position, for
  they take them from different tokens: a walk over the tree meets the positions of its tokens, only
  not in their order (`GrammarTree.positions_walk_perm`).
-/

namespace KpiReport.Formula

/-! ## What positions say -/

/-- The whole of a token stands before the next one starts, in bytes and in lines and columns. -/
def Token.Precedes (t u : Token) : Prop :=
  t.ending ≤ u.pos.offset ∧ t.pos.Before u.pos

/-- The index of the bracket that closes an open one, where `depth` more were opened after it. -/
def closing? (depth : Nat) : List Token → Option Nat
  | [] => none
  | t :: ts =>
    if t.kind = .closeParen ∧ depth = 0 then some 0
    else (closing? (depthAfter depth t.word) ts).map (· + 1)

/-- The tokens `us` are an opening bracket at the position, the tokens `inner`, and the closing
bracket that matches it, whatever follows. -/
def Bracketed (pos : Position) (inner us : List Token) : Prop :=
  ∃ o c, us = o :: inner ++ [c] ∧ o.kind = .openParen ∧ c.kind = .closeParen ∧ o.pos = pos ∧
    ∀ rest, closing? 0 (inner ++ c :: rest) = some inner.length

/-- The tokens `us` are those of two operands with the sign at the position between them. -/
def Signed (isSign : TokenKind → Bool) (pos : Position) (op : String) (ls rs us : List Token) :
    Prop :=
  ∃ o, us = ls ++ o :: rs ∧ isSign o.kind = true ∧ o.text = op ∧ o.pos = pos ∧
    (∀ t ∈ ls, t.Precedes o) ∧ ∀ t ∈ rs, o.Precedes t

namespace Node

/-- The position of a node; none where no formula stands. -/
def position? : Node → Option Position
  | number pos _ | addSub pos .. | mulDiv pos .. | paren pos _ | agg pos _ => some pos
  | hole _ => none

/-- The tokens are those of the tree, and all positions in it are where they should be. -/
def Located : Node → List Token → Prop
  | number pos text, us => ∃ t, us = [t] ∧ t.kind = .number ∧ t.text = text ∧ t.pos = pos
  | agg pos name, us => ∃ i, Bracketed pos [i] us ∧ i.kind = .ident ∧ i.text = name
  | paren pos inner, us => ∃ is, Bracketed pos is us ∧ inner.Located is
  | addSub pos op l r, us =>
    ∃ ls rs, Signed TokenKind.isAddOp pos op ls rs us ∧ l.Located ls ∧ r.Located rs
  | mulDiv pos op l r, us =>
    ∃ ls rs, Signed TokenKind.isMulOp pos op ls rs us ∧ l.Located ls ∧ r.Located rs
  | hole _, _ => False

end Node

/-! ## Tokens stand one behind the other -/

/-- Each token ends before any later one begins, in bytes. What is behind a token in a tiling is
tiled from its end on, so no offset there is smaller. -/
theorem Tiling.pairwise_ending {before cs : List Char} {s : Scan} (h : Tiling before cs s) :
    s.tokens.Pairwise fun t u => t.ending ≤ u.pos.offset := by
  induction h with
  | stop => exact .nil
  | @token before gap rest w s _ _ hs ih =>
    refine .cons (fun u hu => ?_) ih
    have hu : u.pos.offset ∈ s.offsets :=
      List.mem_append_left _ (List.mem_map_of_mem (f := fun t => t.pos.offset) hu)
    calc byteSize (before ++ gap) + byteSize w.text.toList
        = byteSize (before ++ gap ++ w.text.toList) := (byteSize_append _ _).symm
      _ ≤ u.pos.offset := hs.le_offsets _ hu

/-- Lines and columns grow from token to token as well. -/
theorem pairwise_before_scan (f : String) :
    (scan f).tokens.Pairwise fun t u => t.pos.Before u.pos := by
  rw [List.pairwise_iff_getElem]
  intro i j hi hj hij
  have hbefore := place_scanFrom_before .start f.toList i j hij (Nat.le_of_lt hj)
  change ((scan f).place i).Before ((scan f).place j) at hbefore
  rwa [Scan.place, Scan.place, List.getElem?_eq_getElem hi, List.getElem?_eq_getElem hj] at hbefore

/-- Of two tokens of a formula the first one stands before the second one as a whole. -/
theorem pairwise_precedes_scan (f : String) : (scan f).tokens.Pairwise Token.Precedes :=
  (tiling_scan f).pairwise_ending.and (pairwise_before_scan f)

/-! ## Matching brackets -/

/-- Where nothing more was opened, a closing bracket is the one that is looked for. -/
theorem closing?_of_close {t : Token} {ts : List Token} (h : t.kind = .closeParen) :
    closing? 0 (t :: ts) = some 0 := by
  rw [closing?, if_pos ⟨h, rfl⟩]

/-- Any other token is passed over, with one bracket more or less to be closed. -/
theorem closing?_cons {t : Token} {ts : List Token} {depth : Nat}
    (h : t.kind ≠ .closeParen ∨ depth ≠ 0) :
    closing? depth (t :: ts) = (closing? (depthAfter depth t.word) ts).map (· + 1) := by
  rw [closing?, if_neg (not_and_or.2 h)]

theorem depthAfter_of_open {t : Token} (h : t.kind = .openParen) (depth : Nat) :
    depthAfter depth t.word = depth + 1 := by
  simp [depthAfter, Token.word, h]

theorem depthAfter_of_close {t : Token} (h : t.kind = .closeParen) (depth : Nat) :
    depthAfter (depth + 1) t.word = depth := by
  simp [depthAfter, Token.word, h]

/-- A token that is no bracket is passed over, and leaves the number of open brackets as it is. -/
theorem closing?_skip {t : Token} {ts : List Token} (ho : t.kind ≠ .openParen)
    (hc : t.kind ≠ .closeParen) (depth : Nat) :
    closing? depth (t :: ts) = (closing? depth ts).map (· + 1) := by
  -- of the kinds that are no bracket, none changes the depth
  have hdepth : depthAfter depth t.word = depth := by
    simp only [depthAfter, Token.word]
  rw [closing?_cons (.inl hc), hdepth]

/-- The tokens of a tree close what they open, and nothing else. A search that comes to them with
some brackets open leaves them with as many, so its result is that of the search behind them.
Induction on the tree. -/
theorem BuiltFrom.closing?_append {l : Level} {n : Node} {us : List Token} (h : BuiltFrom l n us)
    (depth : Nat) (rest : List Token) :
    closing? depth (us ++ rest) = (closing? depth rest).map (· + us.length) := by
  induction h generalizing depth rest with
  | @number t ht => exact closing?_skip (by simp [ht]) (by simp [ht]) depth
  | @agg o i p ho hi hp =>
    simp only [List.cons_append, List.nil_append]
    rw [closing?_cons (.inl (by simp [ho])), depthAfter_of_open ho,
      closing?_skip (by simp [hi]) (by simp [hi]), closing?_cons (.inr (Nat.succ_ne_zero depth)),
      depthAfter_of_close hp, Option.map_map, Option.map_map]
    rfl
  -- one bracket more inside, closed by the last token
  | @paren o p inner us ho _ hp ih =>
    simp only [List.cons_append, List.append_assoc, List.nil_append]
    rw [closing?_cons (.inl (by simp [ho])), depthAfter_of_open ho, ih,
      closing?_cons (.inr (Nat.succ_ne_zero depth)), depthAfter_of_close hp, Option.map_map,
      Option.map_map]
    congr 1
    funext k
    simp only [Function.comp_apply, List.length_cons, List.length_append, List.length_nil]
    omega
  | ofFactor _ ih | ofTerm _ ih => exact ih depth rest
  | @mulDiv o l r ls rs ho _ _ ihl ihr | @addSub o l r ls rs ho _ _ ihl ihr =>
    -- a sign opens and closes nothing, so only the two operands count
    rw [List.append_assoc, List.cons_append, ihl, closing?_skip ?_ ?_, ihr, Option.map_map,
      Option.map_map]
    · congr 1
      funext k
      simp only [Function.comp_apply, List.length_cons, List.length_append]
      omega
    all_goals
      intro hk
      rw [hk] at ho
      cases ho

/-- Brackets around a sum match each other: the search for the end of the opening one comes past the
whole sum. -/
theorem BuiltFrom.bracketed {n : Node} {o p : Token} {us : List Token} (ho : o.kind = .openParen)
    (h : BuiltFrom .expr n us) (hp : p.kind = .closeParen) :
    Bracketed o.pos us (o :: us ++ [p]) := by
  refine ⟨o, p, rfl, ho, hp, rfl, fun rest => ?_⟩
  rw [h.closing?_append, closing?_of_close hp, Option.map_some, Nat.zero_add]

/-! ## Parsed trees -/

/-- Of tokens in order, those before a sign and those behind it are the tokens of its two
operands. -/
theorem signed_of_pairwise {isSign : TokenKind → Bool} {o : Token} {ls rs : List Token}
    (ho : isSign o.kind = true) (hp : (ls ++ o :: rs).Pairwise Token.Precedes) :
    Signed isSign o.pos o.text ls rs (ls ++ o :: rs) := by
  obtain ⟨-, hright, hleft⟩ := List.pairwise_append.1 hp
  exact ⟨o, rfl, ho, rfl, rfl, fun t ht => hleft t ht o List.mem_cons_self,
    (List.pairwise_cons.1 hright).1⟩

/-- A tree that is built from tokens in order is located among them. A part of a tree is built from
a part of the tokens, which are in order too. -/
theorem BuiltFrom.located {l : Level} {n : Node} {us : List Token} (h : BuiltFrom l n us)
    (hp : us.Pairwise Token.Precedes) : n.Located us := by
  induction h with
  | number ht => exact ⟨_, rfl, ht, rfl, rfl⟩
  | @agg o i p ho hi hc =>
    refine ⟨i, ⟨o, p, rfl, ho, hc, rfl, fun rest => ?_⟩, hi, rfl⟩
    rw [List.singleton_append, closing?_skip (by simp [hi]) (by simp [hi]), closing?_of_close hc]
    rfl
  | @paren o p inner us ho hi hc ih =>
    -- the tokens between the brackets
    have hinner : us.Pairwise Token.Precedes :=
      (List.pairwise_append.1 (List.pairwise_cons.1 hp).2).1
    exact ⟨us, hi.bracketed ho hc, ih hinner⟩
  | ofFactor _ ih | ofTerm _ ih => exact ih hp
  | @mulDiv o l r ls rs ho _ _ ihl ihr | @addSub o l r ls rs ho _ _ ihl ihr =>
    obtain ⟨hleft, hright, -⟩ := List.pairwise_append.1 hp
    exact ⟨ls, rs, signed_of_pairwise ho hp, ihl hleft, ihr (List.pairwise_cons.1 hright).2⟩

/-- A walk over a tree meets its positions, though not in the order of the text: it comes to an
operation before it comes to its left operand. -/
theorem GrammarTree.positions_walk_perm {l : Level} {n : Node} (h : GrammarTree l n) :
    ((n.walk fun _ => true).map Node.position?).Perm (n.places.map some) := by
  induction h with
  | number | agg => exact .refl _
  | paren _ _ ih =>
    rw [Node.walk_paren, if_pos rfl, List.map_cons, Node.places, List.map_cons]
    exact ih.cons _
  | ofFactor _ ih | ofTerm _ ih => exact ih
  | mulDiv _ _ _ _ ihl ihr | addSub _ _ _ _ ihl ihr =>
    -- the sign is met before both operands and stands between them
    simp only [Node.walk_mulDiv, Node.walk_addSub, if_true, List.map_cons, List.map_append,
      Node.places]
    exact ((ihl.append ihr).cons _).trans List.perm_middle.symm

/-- No two tokens have one position, since one of them stands before the other. -/
theorem nodup_positions_scan (f : String) : ((scan f).tokens.map Token.pos).Nodup := by
  refine List.pairwise_map.2 ((pairwise_before_scan f).imp fun {t u} hbefore heq => ?_)
  rw [heq] at hbefore
  unfold Position.Before at hbefore
  omega

/-- **Positions lead back to the text.** In a parsed tree the position of a number is that of its
token, the position of brackets is that of the opening one, whose match is the last token of the
node, and the position of an operation is that of its sign, between the tokens of its operands.
Different nodes have different positions. -/
theorem positions_of_parse {f : String} {n : Node} (h : parse f = .ok n) :
    n.Located (scan f).tokens ∧ ((n.walk fun _ => true).map Node.position?).Nodup := by
  have hbuilt : BuiltFrom .expr n (scan f).tokens := parseTokens_builtFrom (parse_ok_iff.1 h).2
  -- its positions are those of different tokens
  have hplaces : n.places.Nodup := by
    rw [hbuilt.places_eq]
    exact (nodup_positions_scan f).sublist (List.filter_sublist.map Token.pos)
  refine ⟨hbuilt.located (pairwise_precedes_scan f), ?_⟩
  rw [(parse_sound h).1.positions_walk_perm.nodup_iff]
  exact hplaces.map fun _ _ h => Option.some.inj h

/-- A product over two lines: its sign takes two bytes and one column, and the line break starts a
new line. -/
theorem positions_of_parse_lines :
    ∃ n, parse "(a) ×\n2" = .ok n ∧ n.Located (scan "(a) ×\n2").tokens ∧
      ((n.walk fun _ => true).map Node.position?).Nodup ∧
      n = .mulDiv ⟨4, 1, 5⟩ "×" (.agg ⟨0, 1, 1⟩ "a") (.number ⟨7, 2, 1⟩ "2") := by
  let tree : Node := .mulDiv .start "×" (.agg .start "a") (.number .start "2")
  have htree : GrammarTree .expr tree :=
    .ofTerm (.mulDiv _ (by decide) (.ofFactor (.agg _ _)) (.number _ _))
  obtain ⟨n, hn, hbare⟩ :=
    parse_complete (f := "(a) ×\n2") (by decide +kernel) htree (by decide +kernel)
  obtain ⟨hlocated, hnodup⟩ := positions_of_parse hn
  refine ⟨n, hn, hlocated, hnodup, ?_⟩
  have htokens : (scan "(a) ×\n2").tokens =
      [⟨.openParen, "(", ⟨0, 1, 1⟩⟩, ⟨.ident, "a", ⟨1, 1, 2⟩⟩, ⟨.closeParen, ")", ⟨2, 1, 3⟩⟩,
        ⟨.cross, "×", ⟨4, 1, 5⟩⟩, ⟨.number, "2", ⟨7, 2, 1⟩⟩] := by decide +kernel
  rw [htokens] at hlocated
  -- the tree is a product of a reference and a number, and its tokens are the five of the text
  cases n <;> simp only [tree, Node.bare, reduceCtorEq, Node.mulDiv.injEq] at hbare
  obtain ⟨-, rfl, hl, hr⟩ := hbare
  rename_i l r
  cases l <;> simp only [Node.bare, reduceCtorEq, Node.agg.injEq] at hl
  cases r <;> simp only [Node.bare, reduceCtorEq, Node.number.injEq] at hr
  obtain ⟨-, rfl⟩ := hl
  obtain ⟨-, rfl⟩ := hr
  obtain ⟨ls, rs, ⟨o, hus, -, -, rfl, -⟩, ⟨i, ⟨b, c, rfl, -, -, rfl, -⟩, -⟩, ⟨t, rfl, -, -, rfl⟩⟩ :=
    hlocated
  obtain ⟨rfl, rfl, rfl, rfl, rfl, -⟩ := by simpa using hus
  rfl

end KpiReport.Formula
