import KpiReport.Proofs.Formula.Grammar
import KpiReport.Proofs.Formula.Rules

/-!
# The tokens that a tree is built from

The words of a tree say what it consists of, and not where that was read. A parsed tree is *built
from* tokens: each of its nodes takes its text and its position from tokens of its own, and the
tokens between those are what its children are built from.

* **`BuiltFrom`** — a tree of one of the three levels is built from a list of tokens, none left
  over. Only the kinds of the tokens are asked for, so nothing is said about their spelling.
* **`expr_traced`** — whatever a rule matches is built from the tokens it has consumed. A swallowed
  failure leaves its tokens unread, so nothing is claimed about them. Induction on the number of
  tokens, one step for each level of the grammar; `Tier.whole_traced` is that step for sums and
  products at once.
* **`parseTokens_builtFrom`** — so a parsed tree is built from all the tokens of its text.
* **`BuiltFrom.places_eq`** — the positions of a tree, in the order of its text, are those of its
  tokens; names and closing brackets lend theirs to no node. With the tree without its positions
  they determine it (`Node.eq_of_places_eq`).
-/

namespace KpiReport.Formula

/-- The tree, of the given level, is built from the tokens. -/
inductive BuiltFrom : Level → Node → List Token → Prop where
  | number {t : Token} (ht : t.kind = .number) : BuiltFrom .factor (.number t.pos t.text) [t]
  | agg {o i p : Token} (ho : o.kind = .openParen) (hi : i.kind = .ident)
      (hp : p.kind = .closeParen) : BuiltFrom .factor (.agg o.pos i.text) [o, i, p]
  | paren {o p : Token} {inner : Node} {us : List Token} (ho : o.kind = .openParen)
      (hi : BuiltFrom .expr inner us) (hp : p.kind = .closeParen) :
      BuiltFrom .factor (.paren o.pos inner) (o :: us ++ [p])
  | ofFactor {n : Node} {us : List Token} (h : BuiltFrom .factor n us) : BuiltFrom .term n us
  | mulDiv {o : Token} {l r : Node} {ls rs : List Token} (ho : o.kind.isMulOp = true)
      (hl : BuiltFrom .term l ls) (hr : BuiltFrom .factor r rs) :
      BuiltFrom .term (.mulDiv o.pos o.text l r) (ls ++ o :: rs)
  | ofTerm {n : Node} {us : List Token} (h : BuiltFrom .term n us) : BuiltFrom .expr n us
  | addSub {o : Token} {l r : Node} {ls rs : List Token} (ho : o.kind.isAddOp = true)
      (hl : BuiltFrom .expr l ls) (hr : BuiltFrom .term r rs) :
      BuiltFrom .expr (.addSub o.pos o.text l r) (ls ++ o :: rs)

/-! ## The tiers -/

namespace Tier

/-- The level of the items of a chain. -/
def itemLevel : Tier → Level
  | sum => .term
  | product => .factor

/-- The level of a chain. -/
def level : Tier → Level
  | sum => .expr
  | product => .term

/-- A single item is a chain. -/
theorem builtFrom_of_item (t : Tier) {n : Node} {us : List Token}
    (h : BuiltFrom t.itemLevel n us) : BuiltFrom t.level n us := by
  cases t with
  | sum => exact .ofTerm h
  | product => exact .ofFactor h

/-- A chain grows on its right: what is built so far, a sign and one more item. The sign gives the
operation its text and its position. -/
theorem builtFrom_node (t : Tier) {o : Token} {l r : Node} {ls rs : List Token}
    (ho : t.isSign o.kind = true) (hl : BuiltFrom t.level l ls) (hr : BuiltFrom t.itemLevel r rs) :
    BuiltFrom t.level (t.node o.pos o.text l r) (ls ++ o :: rs) := by
  cases t with
  | sum => exact .addSub ho hl hr
  | product => exact .mulDiv ho hl hr

end Tier

/-! ## A match is built from what was consumed -/

/-- Whatever the rule matches at `x` is a tree of the level, built from what was consumed. -/
def Traced (l : Level) (rule : Cursor → View Node) (x : Cursor) : Prop :=
  ∀ n c, rule x = (.matched n, c) → ∃ us, x.rest = us ++ c.rest ∧ BuiltFrom l n us

/-- The rest of a chain adds its tokens to those of the part in hand. Recursion on the tokens that
are left, since each round takes a sign and an item; the items themselves are traced as far as they
are shorter than `k`, which the caller sees to. -/
theorem Tier.tail_traced (t : Tier) {k : Nat}
    (hitem : ∀ y, y.rest.length < k → Traced t.itemLevel t.item y)
    (x : Cursor) (left : Node) (hx : x.rest.length < k) {ls : List Token}
    (hleft : BuiltFrom t.level left ls) {n : Node} {c : Cursor}
    (h : t.tail x left = (.matched n, c)) :
    ∃ us, x.rest = us ++ c.rest ∧ BuiltFrom t.level n (ls ++ us) := by
  rcases t.tail_matched h with ⟨o, v, d, hsig, hrest⟩ | ⟨rfl, hc⟩
  · obtain ⟨r, hr, ho, hv⟩ := t.signed_matched hsig
    have hskip : (x.skip 1).rest = r := Cursor.rest_skip_one hr
    have hlt : d.rest.length < r.length := hskip ▸ t.rest_lt_of_item hv
    have hlen : x.rest.length = r.length + 1 := by rw [hr, List.length_cons]
    -- the item after the sign
    obtain ⟨vs, hvs, hvbuilt⟩ := hitem (x.skip 1) (by rw [hskip]; omega) v d hv
    -- the rest of the chain, with that item added
    have hdrest : (x.accept d).rest = d.rest := Cursor.rest_accept x d
    obtain ⟨us, hus, hn⟩ := t.tail_traced hitem (x.accept d) _ (by rw [hdrest]; omega)
      (t.builtFrom_node ho hleft hvbuilt) hrest
    refine ⟨o :: (vs ++ us), ?_, ?_⟩
    · rw [hr, ← hskip, hvs, ← hdrest, hus, List.cons_append, List.append_assoc]
    · rwa [List.append_assoc, List.cons_append] at hn
  · -- the chain ends here and has taken nothing more
    refine ⟨[], hc.symm, ?_⟩
    rwa [List.append_nil]
termination_by x.rest.length
decreasing_by
  rw [hdrest]
  omega

/-- Where the items of a chain are traced, so is the chain. -/
theorem Tier.whole_traced (t : Tier) {k : Nat}
    (hitem : ∀ y, y.rest.length < k → Traced t.itemLevel t.item y)
    (x : Cursor) (hx : x.rest.length < k) : Traced t.level t.whole x := by
  intro n c h
  obtain ⟨head, d, hhead, htail⟩ := t.whole_matched h
  obtain ⟨hs, hhs, hbuilt⟩ := hitem x hx head d hhead
  have hlt : d.rest.length < x.rest.length := t.rest_lt_of_item hhead
  obtain ⟨us, hus, hn⟩ :=
    t.tail_traced hitem d head (by omega) (t.builtFrom_of_item hbuilt) htail
  exact ⟨hs ++ us, by rw [hhs, hus, List.append_assoc], hn⟩

/-- A factor is built from what it has consumed where the sums inside its brackets are. A bracketed
sum is tried at a cursor that has learned of a failed reference, but its tokens are the same. -/
theorem factor_traced {x : Cursor}
    (hexpr : ∀ y, y.rest.length < x.rest.length → Traced .expr Tier.sum.whole y) :
    Traced .factor Tier.product.item x := by
  intro n c h
  rcases factor_matched h with ⟨t, r, hr, ht, rfl, rfl⟩ |
    ⟨o, i, p, r, hr, ho, hi, hp, rfl, rfl⟩ | ⟨y, d, hy, hg, hc⟩
  · exact ⟨[t], hr, .number ht⟩
  · exact ⟨[o, i, p], hr, .agg ho hi hp⟩
  · -- only the tokens inside the brackets were read as a sum, and they are fewer
    obtain ⟨o, r, inner, e, p, s, hr, ho, he, hps, hp, rfl, hds⟩ := group_matched hg
    have hskip : (y.skip 1).rest = r := Cursor.rest_skip_one hr
    have hlt : (y.skip 1).rest.length < x.rest.length := by
      rw [hskip, ← hy, hr, List.length_cons]
      omega
    obtain ⟨us, hus, hinner⟩ := hexpr (y.skip 1) hlt inner e he
    refine ⟨o :: us ++ [p], ?_, .paren ho hinner hp⟩
    rw [← hy, hr, ← hskip, hus, hps, hc, hds, List.append_assoc, List.singleton_append,
      List.cons_append]

/-- Whatever is read as a sum is built from the tokens that were read, however deep its brackets
are. -/
theorem expr_traced (k : Nat) : ∀ x, x.rest.length < k → Traced .expr Tier.sum.whole x := by
  -- `k` bounds the tokens that are left: a bracket opens a sum with fewer of them
  induction k with
  | zero =>
    intro x hx
    omega
  | succ k ih =>
    have hfactor : ∀ y, y.rest.length < k + 1 → Traced .factor Tier.product.item y := by
      intro y hy
      exact factor_traced fun z hz => ih z (by omega)
    exact Tier.sum.whole_traced (Tier.product.whole_traced hfactor)

/-- A token list that parses to a tree is what the tree is built from: the sum is built from what it
has consumed, and nothing is left. -/
theorem parseTokens_builtFrom {ts : List Token} {n : Node} (h : parseTokens ts = .ok n) :
    BuiltFrom .expr n ts := by
  obtain ⟨c, hwhole, hc⟩ := parseTokens_ok_iff.1 h
  obtain ⟨us, hus, hn⟩ := expr_traced (ts.length + 1) (.start ts) (Nat.lt_succ_self _) n c hwhole
  rw [hc, List.append_nil] at hus
  rwa [show ts = us from hus]

/-! ## Where a tree takes its positions from -/

/-- The kinds of the tokens that nodes take their positions from. -/
def TokenKind.lendsPlace : TokenKind → Bool
  | .ident | .closeParen => false
  | _ => true

namespace Node

/-- The positions in a tree, in the order of its text. -/
def places : Node → List Position
  | number pos _ => [pos]
  | addSub pos _ l r => l.places ++ pos :: r.places
  | mulDiv pos _ l r => l.places ++ pos :: r.places
  | paren pos inner => pos :: inner.places
  | agg pos _ => [pos]
  | hole _ => []

/-- Taking the positions out of a tree leaves as many places for them. -/
theorem length_places_bare (n : Node) : n.bare.places.length = n.places.length := by
  induction n with
  | addSub _ _ _ _ ihl ihr | mulDiv _ _ _ _ ihl ihr =>
    simp only [bare, places, List.length_append, List.length_cons, ihl, ihr]
  | paren _ _ ih => simp only [bare, places, List.length_cons, ih]
  | number | agg | hole => rfl

theorem length_places_of_bare_eq {m n : Node} (h : m.bare = n.bare) :
    m.places.length = n.places.length := by
  rw [← length_places_bare, h, length_places_bare]

/-- A tree is given by its shape and its positions. The shape says how many positions belong to the
left part, so the list of all positions can be taken apart again. -/
theorem eq_of_places_eq {m n : Node} (h : m.bare = n.bare) (hp : m.places = n.places) : m = n := by
  induction n generalizing m with
  | number | agg =>
    cases m <;> simp only [bare, reduceCtorEq, number.injEq, agg.injEq, true_and] at h
    simp only [places, List.cons.injEq, and_true] at hp
    rw [h, hp]
  | addSub _ _ l r ihl ihr | mulDiv _ _ l r ihl ihr =>
    cases m <;> simp only [bare, reduceCtorEq, addSub.injEq, mulDiv.injEq, true_and] at h
    obtain ⟨hop, hl, hr⟩ := h
    -- the left parts have equally many positions, so the lists fall into the same parts
    obtain ⟨hlp, hrest⟩ := List.append_inj hp (length_places_of_bare_eq hl)
    obtain ⟨hpos, hrp⟩ := List.cons.inj hrest
    rw [hop, hpos, ihl hl hlp, ihr hr hrp]
  | paren _ _ ih =>
    cases m <;> simp only [bare, reduceCtorEq, paren.injEq, true_and] at h
    obtain ⟨hpos, hinner⟩ := List.cons.inj hp
    rw [hpos, ih h hinner]
  | hole =>
    cases m <;> simp only [bare, reduceCtorEq, hole.injEq] at h
    rw [h]

end Node

/-- The positions of a tree are those of its tokens, in order. A name between brackets is placed at
its bracket, and the closing bracket of a sum at none, so these two kinds are left out. -/
theorem BuiltFrom.places_eq {l : Level} {n : Node} {us : List Token} (h : BuiltFrom l n us) :
    n.places = (us.filter fun t => t.kind.lendsPlace).map Token.pos := by
  induction h with
  | @number t ht => simp [Node.places, ht, TokenKind.lendsPlace]
  | @agg o i p ho hi hp => simp [Node.places, ho, hi, hp, TokenKind.lendsPlace]
  | @paren o p inner us ho _ hp ih =>
    simp [Node.places, ih, ho, hp, TokenKind.lendsPlace]
  | ofFactor _ ih | ofTerm _ ih => exact ih
  | @mulDiv o l r ls rs ho _ _ ihl ihr | @addSub o l r ls rs ho _ _ ihl ihr =>
    -- a sign is neither a name nor a bracket
    have hlends : o.kind.lendsPlace = true := by
      revert ho
      cases o.kind <;> decide
    simp [Node.places, ihl, ihr, hlends]

end KpiReport.Formula
