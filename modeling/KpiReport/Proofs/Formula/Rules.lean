import KpiReport.Formula.Parser

/-!
# The rules of the parser as plain equations

The rules hand back a `Step`, which carries bounds on the tokens that are left. The bounds make the
recursion end and say nothing about the outcome, so they are forgotten here: `Step.view` is the
outcome of a rule and the cursor after it.

* **`Tier`** — sums and products are read by the same program, a chain of items with signs between
  them. A tier says which of the two is meant, and one equation for each of its three rules
  (`Tier.whole_eq`, `Tier.tail_eq`, `Tier.signed_of_sign`) covers both.
* **`factor_eq_number` / `factor_eq_agg` / `factor_eq_group` / `factor_eq_noMatch`** — what a factor
  does is decided by the first three tokens: the reference is tried before the bracketed sum, and
  its failure is never too deep to be abandoned.
-/

namespace KpiReport.Formula

/-! ## Forgetting the bounds -/

/-- The outcome of a rule and the cursor after it. -/
abbrev View (α : Type) := Outcome α × Cursor

/-- A step without its bounds. -/
def Step.view {α : Type} {n : Nat} (s : Step α n) : View α :=
  (s.outcome, s.cursor)

/-- A failed rule notes its failure at the cursor it has reached. -/
def View.noted {α : Type} : View α → View α
  | (.failed e, x) => (.failed e, x.note e)
  | r => r

section Step

variable {α : Type} {n : Nat}

@[simp] theorem Step.view_matched (v : α) (x : Cursor) (h : x.rest.length < n) :
    (Step.matched v x h).view = (.matched v, x) := rfl

@[simp] theorem Step.view_noMatch (x : Cursor) (h : x.rest.length ≤ n) :
    (Step.noMatch x h : Step α n).view = (.noMatch, x) := rfl

@[simp] theorem Step.view_failed (e : Failure) (x : Cursor) (h : x.rest.length ≤ n) :
    (Step.failed e x h : Step α n).view = (.failed e, x) := rfl

@[simp] theorem Step.view_widen {m : Nat} (s : Step α n) (h : n ≤ m) :
    (s.widen h).view = s.view := rfl

/-- A step that notes its failure does so without its bounds too. The lemmas about `view` are simp
lemmas, so that a rule opens up to what it does with outcomes and cursors. -/
@[simp] theorem Step.view_noted (s : Step α n) : s.noted.view = View.noted s.view := by
  obtain ⟨o, x, hb, hp⟩ := s
  cases o <;> rfl

@[simp] theorem View.noted_matched (v : α) (x : Cursor) :
    View.noted (.matched v, x) = (.matched v, x) := rfl

@[simp] theorem View.noted_noMatch (x : Cursor) :
    View.noted ((.noMatch, x) : View α) = (.noMatch, x) := rfl

@[simp] theorem View.noted_failed (e : Failure) (x : Cursor) :
    View.noted ((.failed e, x) : View α) = (.failed e, x.note e) := rfl

/-- Noting a failure leaves the outcome and the tokens as they are. In particular a match is one
before and after, which is the only case that the proofs of acceptance ask for. -/
theorem View.noted_eq_matched {r : View α} {v : α} {c : Cursor} :
    View.noted r = (.matched v, c) ↔ r = (.matched v, c) := by
  obtain ⟨o, x⟩ := r
  cases o <;> simp

theorem Step.outcome_of_view {s : Step α n} {o : Outcome α} {c : Cursor} (h : s.view = (o, c)) :
    s.outcome = o :=
  congrArg Prod.fst h

theorem Step.cursor_of_view {s : Step α n} {o : Outcome α} {c : Cursor} (h : s.view = (o, c)) :
    s.cursor = c :=
  congrArg Prod.snd h

/-- A match leaves fewer tokens than there were. The step carries the proof of it, and this is where
it is taken out: recursions over the tokens that are left end by it. -/
theorem Step.rest_lt_of_view {s : Step α n} {v : α} {c : Cursor} (h : s.view = (.matched v, c)) :
    c.rest.length < n := by
  have hlt := s.progress v (Step.outcome_of_view h)
  rwa [Step.cursor_of_view h] at hlt

end Step

/-! ## Moving a cursor -/

/-- The first token is of a wanted kind. -/
def begins (want : TokenKind → Bool) (ts : List Token) : Bool :=
  ts.head?.any fun t => want t.kind

@[simp] theorem begins_nil (want : TokenKind → Bool) : begins want [] = false := rfl

@[simp] theorem begins_cons (want : TokenKind → Bool) (t : Token) (r : List Token) :
    begins want (t :: r) = want t.kind := rfl

/-- Where the first token is of a wanted kind there is a first token. -/
theorem exists_cons_of_begins {want : TokenKind → Bool} {ts : List Token}
    (h : begins want ts = true) : ∃ t r, ts = t :: r ∧ want t.kind = true := by
  cases ts with
  | nil => simp at h
  | cons t r => exact ⟨t, r, rfl, h⟩

namespace Cursor

/-- The cursor some tokens further on. -/
def skip (x : Cursor) (k : Nat) : Cursor :=
  { x with rest := x.rest.drop k, index := x.index + k }

/-- The rest after one token, where the tokens are written out. -/
theorem rest_skip_one {x : Cursor} {t : Token} {r : List Token} (h : x.rest = t :: r) :
    (x.skip 1).rest = r := by
  simp [skip, h]

/-- Going on twice is going on once, by as many tokens together. -/
theorem skip_skip (x : Cursor) (j k : Nat) : (x.skip j).skip k = x.skip (j + k) := by
  simp [skip, Nat.add_assoc]

/-- A token of another kind, or none at all, is not taken. -/
theorem take?_eq_none {x : Cursor} {want : TokenKind → Bool} (h : begins want x.rest = false) :
    x.take? want = none := by
  obtain ⟨rest, index, deepest, depth⟩ := x
  cases rest with
  | nil => rfl
  | cons t r => simp_all [take?]

/-- A token of a wanted kind is taken, and the cursor is then one token further on. The bound that
comes with it is left to the caller. -/
theorem take?_eq_some {x : Cursor} {want : TokenKind → Bool} {t : Token} {r : List Token}
    (hr : x.rest = t :: r) (ht : want t.kind = true) :
    ∃ h, x.take? want = some (t, ⟨x.skip 1, h⟩) := by
  obtain ⟨rest, index, deepest, depth⟩ := x
  subst hr
  exact ⟨by simp [skip], by simp [take?, ht, skip]⟩

theorem take?_eq_some_of_kind {x : Cursor} {k : TokenKind} {t : Token} {r : List Token}
    (hr : x.rest = t :: r) (ht : t.kind = k) :
    ∃ h, x.take? (· == k) = some (t, ⟨x.skip 1, h⟩) :=
  take?_eq_some hr (beq_iff_eq.2 ht)

/-- A few tokens ahead an attempt can still be abandoned. A reference is three tokens long, so its
failure never gets further than that. -/
theorem committed_skip (x : Cursor) {k : Nat} (hk : k ≤ lookahead) :
    x.committed (x.skip k) = false := by
  have hnear : ¬ (x.skip k).index > x.index + lookahead := by
    simp only [skip]
    omega
  exact decide_eq_false hnear

/-- A copy that has learned nothing new is taken over as it is. This holds of every attempt that
matches outright, since nothing has failed in it. -/
theorem accept_skip (x : Cursor) (k : Nat) : x.accept (x.skip k) = x.skip k := by
  simp [accept, skip]

end Cursor

/-! ## Sums and products -/

/-- The two kinds of chain: terms with sum signs between them, and factors with product signs. -/
inductive Tier where
  | sum
  | product
deriving DecidableEq, Repr

namespace Tier

/-- The signs of a tier. -/
def isSign : Tier → TokenKind → Bool
  | sum => TokenKind.isAddOp
  | product => TokenKind.isMulOp

/-- The operation that a sign stands for. -/
def node : Tier → Position → String → Node → Node → Node
  | sum => .addSub
  | product => .mulDiv

/-- What is missing after a sign without an item. -/
def expected : Tier → Expected
  | sum => .term
  | product => .factor

/-- The rule for an item of the chain. -/
def item : Tier → Cursor → View Node
  | sum, x => (term x).view
  | product, x => (factor x).view

/-- The rule for the chain as a whole. -/
def whole : Tier → Cursor → View Node
  | sum, x => (expr x).view
  | product, x => (term x).view

/-- The rule for the rest of a chain, after `left`. -/
def tail : Tier → Cursor → Node → View Node
  | sum, x, left => (exprTail x left).view
  | product, x, left => (termTail x left).view

/-- The rule for a sign and the item after it. -/
def signed : Tier → Cursor → View (Token × Node)
  | sum, x => (opTerm x).view
  | product, x => (opFactor x).view

/-- What a chain makes of its first item. -/
def afterItem (rest : Cursor → Node → View Node) : View Node → View Node
  | (.matched head, c) => View.noted (rest c head)
  | r => View.noted r

/-- The two rules for chains are one program in two copies. This is the common shape of their
bodies, with the bounds on the left side and without them on the right. -/
theorem view_afterItem {n : Nat} (s : Step Node n)
    (rest : (c : Cursor) → Node → Step Node (c.rest.length + 1)) :
    Step.view (match ho : s.outcome with
      | .matched head => ((rest s.cursor head).widen (s.progress head ho)).noted
      | _ => s.noted) = afterItem (fun c head => (rest c head).view) s.view := by
  obtain ⟨o, c, hb, hp⟩ := s
  cases o with
  | matched head => exact Step.view_noted _
  | noMatch => rfl
  | failed e => rfl

/-- A chain is its first item, then the rest. With this equation the parser can be reasoned about
without its bounds and for sums and products at once. -/
theorem whole_eq (t : Tier) (x : Cursor) : t.whole x = afterItem t.tail (t.item x) := by
  cases t with
  | sum =>
    rw [whole, expr]
    exact view_afterItem (term x) exprTail
  | product =>
    rw [whole, term]
    exact view_afterItem (factor x) termTail

/-- What a repetition with the value `left` makes of one more round: it goes on after a match, and
ends where the round does not apply. A failed round ends it too, and fails it only where the round
got too far to be abandoned. -/
def afterRound {α : Type} (x : Cursor) (left : Node) (again : α → Cursor → View Node) :
    View α → View Node
  | (.matched v, c) => again v (x.accept c)
  | (.noMatch, c) => (.matched left, x.accept c)
  | (.failed e, c) =>
    if x.committed c then (.failed e, ((x.note e).learn e c).accept c)
    else (.matched left, (x.note e).learn e c)

/-- One round of a repetition, its bounds forgotten. The rest of the repetition is given as a
function with a proof that a token was consumed, so it has to be compared at each argument. -/
theorem view_round {α : Type} (x : Cursor) (left : Node) (s : Step α x.rest.length)
    {again : (v : α) → (y : Cursor) → y.rest.length < x.rest.length →
      Step Node (x.rest.length + 1)}
    {k : α → Cursor → View Node} (hk : ∀ v y hy, (again v y hy).view = k v y) :
    (round x left s again).view = afterRound x left k s.view := by
  obtain ⟨o, c, hb, hp⟩ := s
  cases o with
  | matched v => exact hk v _ _
  | noMatch => rfl
  | failed e =>
    -- abandoned or not, the learned cursor is the same
    simp only [round, Step.view, afterRound]
    split <;> rfl

/-- The rest of a chain is as many signed items as there are. One round is unfolded; the recursion
on the right is that of the chain with one item more. -/
theorem tail_eq (t : Tier) (x : Cursor) (left : Node) :
    t.tail x left =
      afterRound x left (fun v y => t.tail y (t.node v.1.pos v.1.text left v.2)) (t.signed x) := by
  cases t with
  | sum =>
    rw [tail, exprTail]
    exact view_round x left (opTerm x) fun _ _ _ => Step.view_widen _ _
  | product =>
    rw [tail, termTail]
    exact view_round x left (opFactor x) fun _ _ _ => Step.view_widen _ _

/-- Without a sign there is no signed item, and the cursor stays where it is. -/
theorem signed_of_begins_false (t : Tier) {x : Cursor} (h : begins t.isSign x.rest = false) :
    t.signed x = (.noMatch, x) := by
  cases t with
  | sum =>
    have htake : x.take? TokenKind.isAddOp = none := Cursor.take?_eq_none h
    rw [signed, opTerm, htake, Step.view_noMatch]
  | product =>
    have htake : x.take? TokenKind.isMulOp = none := Cursor.take?_eq_none h
    rw [signed, opFactor, htake, Step.view_noMatch]

/-- After a sign there has to be an item. -/
def afterSign (t : Tier) (o : Token) : View Node → View (Token × Node)
  | (.matched v, c) => (.matched (o, v), c)
  | (.noMatch, c) => View.noted (.failed (c.refuse (some t.expected)), c)
  | (.failed e, c) => View.noted (.failed e, c)

/-- With a sign in front a signed item is decided by the item after it: what was a matter of not
applying becomes a failure there, since after a sign it is too late. -/
theorem signed_of_sign (t : Tier) {x : Cursor} {o : Token} {r : List Token} (hr : x.rest = o :: r)
    (ho : t.isSign o.kind = true) : t.signed x = t.afterSign o (t.item (x.skip 1)) := by
  obtain ⟨hlt, htake⟩ := Cursor.take?_eq_some hr ho
  cases t with
  | sum =>
    change x.take? TokenKind.isAddOp = _ at htake
    rw [signed, opTerm, htake]
    simp only [item, Step.view]
    cases (term (x.skip 1)).outcome <;> rfl
  | product =>
    change x.take? TokenKind.isMulOp = _ at htake
    rw [signed, opFactor, htake]
    simp only [item, Step.view]
    cases (factor (x.skip 1)).outcome <;> rfl

/-! ### What a match can be -/

/-- A match has consumed a token, so a chain of items comes to an end. -/
theorem rest_lt_of_item (t : Tier) {x c : Cursor} {n : Node} (h : t.item x = (.matched n, c)) :
    c.rest.length < x.rest.length := by
  cases t with
  | sum => exact Step.rest_lt_of_view (s := term x) h
  | product => exact Step.rest_lt_of_view (s := factor x) h

/-- A match of a chain, read backwards: its first item has matched, and the rest from there. -/
theorem whole_matched (t : Tier) {x c : Cursor} {n : Node} (h : t.whole x = (.matched n, c)) :
    ∃ head d, t.item x = (.matched head, d) ∧ t.tail d head = (.matched n, c) := by
  rw [whole_eq] at h
  rcases hi : t.item x with ⟨head | _ | e, d⟩
  · rw [hi, afterItem, View.noted_eq_matched] at h
    exact ⟨head, d, rfl, h⟩
  · simp [hi, afterItem] at h
  · simp [hi, afterItem] at h

/-- A match of a signed item, read backwards: there is a sign of the tier, and an item after it.
This is what a repetition makes of a round that has matched. -/
theorem signed_matched (t : Tier) {x c : Cursor} {o : Token} {v : Node}
    (h : t.signed x = (.matched (o, v), c)) :
    ∃ r, x.rest = o :: r ∧ t.isSign o.kind = true ∧ t.item (x.skip 1) = (.matched v, c) := by
  cases hb : begins t.isSign x.rest with
  | false => simp [signed_of_begins_false t hb] at h
  | true =>
    obtain ⟨o', r, hr, ho⟩ := exists_cons_of_begins hb
    rw [signed_of_sign t hr ho] at h
    -- a sign was read, so all depends on the item after it
    rcases hi : t.item (x.skip 1) with ⟨v' | _ | e, d⟩
    · simp only [hi, afterSign, Prod.mk.injEq, Outcome.matched.injEq] at h
      obtain ⟨⟨rfl, rfl⟩, rfl⟩ := h
      exact ⟨r, hr, ho, rfl⟩
    · simp [hi, afterSign] at h
    · simp [hi, afterSign] at h

/-- A signed item that does not apply leaves the cursor alone: with a sign in front it would have
failed instead. -/
theorem signed_noMatch (t : Tier) {x c : Cursor} (h : t.signed x = (.noMatch, c)) : c = x := by
  cases hb : begins t.isSign x.rest with
  | false =>
    rw [signed_of_begins_false t hb] at h
    exact (congrArg Prod.snd h).symm
  | true =>
    obtain ⟨o, r, hr, ho⟩ := exists_cons_of_begins hb
    rw [signed_of_sign t hr ho] at h
    rcases hi : t.item (x.skip 1) with ⟨v | _ | e, d⟩ <;> simp [hi, afterSign] at h

/-- A match of the rest of a chain, read backwards. The chain either goes on after a signed item, or
ends where it stands; it ends also where a signed item has failed early enough. -/
theorem tail_matched (t : Tier) {x c : Cursor} {left n : Node}
    (h : t.tail x left = (.matched n, c)) :
    (∃ o v d, t.signed x = (.matched (o, v), d) ∧
      t.tail (x.accept d) (t.node o.pos o.text left v) = (.matched n, c)) ∨
    (n = left ∧ c.rest = x.rest) := by
  rw [tail_eq] at h
  rcases hs : t.signed x with ⟨⟨o, v⟩ | _ | e, d⟩
  · rw [hs] at h
    -- a signed item was read and the chain goes on behind it
    exact .inl ⟨o, v, d, rfl, h⟩
  · obtain rfl := signed_noMatch t hs
    simp only [hs, afterRound, Prod.mk.injEq, Outcome.matched.injEq] at h
    obtain ⟨rfl, rfl⟩ := h
    exact .inr ⟨rfl, Cursor.rest_accept _ _⟩
  · -- a failed item is swallowed here, and its tokens are left for whoever comes next
    simp only [hs, afterRound] at h
    split at h
    · simp at h
    · obtain ⟨hn, rfl⟩ := Prod.mk.inj h
      exact .inr ⟨(Outcome.matched.inj hn).symm, by simp⟩

end Tier

/-! ## The alternatives of a factor -/

/-- A number is read at its token. -/
theorem number_eq {x : Cursor} {t : Token} {r : List Token} (hr : x.rest = t :: r)
    (ht : t.kind = .number) :
    (number x).view = (.matched (.number t.pos t.text), x.skip 1) := by
  obtain ⟨hlt, htake⟩ := Cursor.take?_eq_some_of_kind hr ht
  rw [number, htake, Step.view_matched]

theorem number_eq_noMatch {x : Cursor} (h : begins (· == .number) x.rest = false) :
    (number x).view = (.noMatch, x) := by
  rw [number, Cursor.take?_eq_none h, Step.view_noMatch]

/-- No bracket, no reference: the rule does not apply, which is not a failure. -/
theorem kpi_eq_noMatch {x : Cursor} (h : begins (· == .openParen) x.rest = false) :
    (kpi x).view = (.noMatch, x) := by
  rw [kpi, Cursor.take?_eq_none h, Step.view_noMatch]

/-- A name between brackets is a reference. The three tokens are looked at one after the other, and
each is taken from the cursor that the one before has left. -/
theorem kpi_eq_agg {x : Cursor} {o i p : Token} {r : List Token} (hr : x.rest = o :: i :: p :: r)
    (ho : o.kind = .openParen) (hi : i.kind = .ident) (hp : p.kind = .closeParen) :
    (kpi x).view = (.matched (.agg o.pos i.text), x.skip 3) := by
  obtain ⟨h₁, ht₁⟩ := Cursor.take?_eq_some_of_kind hr ho
  have hr₁ : (x.skip 1).rest = i :: p :: r := Cursor.rest_skip_one hr
  obtain ⟨h₂, ht₂⟩ := Cursor.take?_eq_some_of_kind hr₁ hi
  have hr₂ : ((x.skip 1).skip 1).rest = p :: r := Cursor.rest_skip_one hr₁
  obtain ⟨h₃, ht₃⟩ := Cursor.take?_eq_some_of_kind hr₂ hp
  -- three single steps are one step of three
  simp only [kpi, ht₁, ht₂, ht₃, Step.view_matched]
  rw [Cursor.skip_skip, Cursor.skip_skip]

/-- A bracket without an identifier after it is no reference. The rule has applied by then, so this
is a failure, one token ahead. -/
theorem kpi_eq_failed_ident {x : Cursor} {o : Token} {r : List Token} (hr : x.rest = o :: r)
    (ho : o.kind = .openParen) (hi : begins (· == .ident) r = false) :
    (kpi x).view = (.failed ((x.skip 1).refuse (some .identClosing)), x.skip 1) := by
  obtain ⟨h₁, ht₁⟩ := Cursor.take?_eq_some_of_kind hr ho
  rw [← Cursor.rest_skip_one hr] at hi
  simp only [kpi, ht₁, Cursor.take?_eq_none hi, Step.view_failed]

/-- Nor is one whose identifier is not followed by the closing bracket. That failure is two tokens
ahead, where an attempt can still be abandoned. -/
theorem kpi_eq_failed_closing {x : Cursor} {o i : Token} {r : List Token}
    (hr : x.rest = o :: i :: r) (ho : o.kind = .openParen) (hi : i.kind = .ident)
    (hp : begins (· == .closeParen) r = false) :
    (kpi x).view = (.failed ((x.skip 2).refuse (some .closing)), x.skip 2) := by
  obtain ⟨h₁, ht₁⟩ := Cursor.take?_eq_some_of_kind hr ho
  have hr₁ : (x.skip 1).rest = i :: r := Cursor.rest_skip_one hr
  obtain ⟨h₂, ht₂⟩ := Cursor.take?_eq_some_of_kind hr₁ hi
  rw [← Cursor.rest_skip_one hr₁] at hp
  simp only [kpi, ht₁, ht₂, Cursor.take?_eq_none hp, Step.view_failed]
  rw [Cursor.skip_skip]

theorem group_eq_noMatch {x : Cursor} (h : begins (· == .openParen) x.rest = false) :
    (group x).view = (.noMatch, x) := by
  rw [group, Cursor.take?_eq_none h, Step.view_noMatch]

/-- After the opening bracket `o` there has to be a sum, and then the closing bracket. -/
def afterOpening (o : Token) : View Node → View Node
  | (.failed e, c) => (.failed e, c)
  | (.noMatch, c) => (.failed (c.refuse (some .exprClosing)), c)
  | (.matched inner, c) =>
    if begins (· == .closeParen) c.rest then (.matched (.paren o.pos inner), c.skip 1)
    else (.failed (c.refuse (some .closing)), c)

/-- A bracketed sum without its bounds: what comes after the bracket is that of the sum, and then
`afterOpening` decides. -/
theorem group_eq {x : Cursor} {o : Token} {r : List Token} (hr : x.rest = o :: r)
    (ho : o.kind = .openParen) : (group x).view = afterOpening o (expr (x.skip 1)).view := by
  obtain ⟨h₁, ht₁⟩ := Cursor.take?_eq_some_of_kind hr ho
  simp only [group, ht₁, Step.view]
  -- only after a sum is the closing bracket looked for
  cases (expr (x.skip 1)).outcome with
  | noMatch => rfl
  | failed e => rfl
  | matched inner =>
    simp only [afterOpening]
    cases hc : begins (· == .closeParen) (expr (x.skip 1)).cursor.rest with
    | true =>
      obtain ⟨p, s, hs, hp⟩ := exists_cons_of_begins hc
      obtain ⟨h₂, ht₂⟩ := Cursor.take?_eq_some_of_kind hs (eq_of_beq hp)
      simp only [ht₂]
      rfl
    | false =>
      simp only [Cursor.take?_eq_none hc]
      rfl

/-- A match of the bracketed sum, read backwards: a bracket, a sum, and the bracket that closes
it. -/
theorem group_matched {x c : Cursor} {n : Node} (h : (group x).view = (.matched n, c)) :
    ∃ o r inner d p s, x.rest = o :: r ∧ o.kind = .openParen ∧
      (expr (x.skip 1)).view = (.matched inner, d) ∧ d.rest = p :: s ∧ p.kind = .closeParen ∧
      n = .paren o.pos inner ∧ c.rest = s := by
  cases hb : begins (· == .openParen) x.rest with
  | false => simp [group_eq_noMatch hb] at h
  | true =>
    obtain ⟨o, r, hr, ho⟩ := exists_cons_of_begins hb
    have ho : o.kind = .openParen := eq_of_beq ho
    rw [group_eq hr ho] at h
    -- of the three outcomes of the sum only a match can be closed
    rcases hi : (expr (x.skip 1)).view with ⟨inner | _ | e, d⟩
    · simp only [hi, afterOpening] at h
      split at h
      · next hc =>
        obtain ⟨p, s, hs, hp⟩ := exists_cons_of_begins hc
        obtain ⟨hn, rfl⟩ := Prod.mk.inj h
        exact ⟨o, r, inner, d, p, s, hr, ho, rfl, hs, eq_of_beq hp,
          (Outcome.matched.inj hn).symm, Cursor.rest_skip_one hs⟩
      · simp at h
    · simp [hi, afterOpening] at h
    · simp [hi, afterOpening] at h

/-! ## A factor -/

section Alternative

variable {x : Cursor} {best : BestFailure} {s : Step Node x.rest.length}
  {otherwise : (y : Cursor) → y.rest = x.rest → BestFailure → Step Node x.rest.length}

/-- Of the alternatives of a factor the first one that matches is taken. -/
theorem alternative_of_matched {v : Node} {c : Cursor} (h : s.view = (.matched v, c)) :
    (alternative x best s otherwise).view = (.matched v, x.accept c) := by
  obtain ⟨o, c', hb, hp⟩ := s
  obtain ⟨rfl, rfl⟩ := Prod.mk.inj h
  rfl

/-- One that does not apply is passed over as if it had not been tried. -/
theorem alternative_of_noMatch {c : Cursor} (h : s.view = (.noMatch, c)) :
    (alternative x best s otherwise).view = (otherwise x rfl best).view := by
  obtain ⟨o, c', hb, hp⟩ := s
  obtain ⟨rfl, rfl⟩ := Prod.mk.inj h
  rfl

/-- One that has failed is final where it got too far; otherwise the next one is tried, and its
failure is entered among those to choose from in the end. -/
theorem alternative_of_failed {e : Failure} {c : Cursor} (h : s.view = (.failed e, c)) :
    (alternative x best s otherwise).view =
      if x.committed c then (.failed e, (x.learn e c).accept c)
      else (otherwise (x.learn e c) (by simp) (best.enter e c)).view := by
  obtain ⟨o, c', hb, hp⟩ := s
  obtain ⟨rfl, rfl⟩ := Prod.mk.inj h
  simp only [alternative]
  split <;> rfl

end Alternative

/-- A number is a factor, and no other alternative is looked at. -/
theorem factor_eq_number {x : Cursor} {t : Token} {r : List Token} (hr : x.rest = t :: r)
    (ht : t.kind = .number) :
    (factor x).view = (.matched (.number t.pos t.text), x.skip 1) := by
  rw [factor, Step.view_noted, alternative_of_matched (number_eq hr ht), Cursor.accept_skip,
    View.noted_matched]

/-- A name between brackets is a factor. It is tried before the bracketed sum, which would start
with the same bracket and fail at the name. -/
theorem factor_eq_agg {x : Cursor} {o i p : Token} {r : List Token}
    (hr : x.rest = o :: i :: p :: r) (ho : o.kind = .openParen) (hi : i.kind = .ident)
    (hp : p.kind = .closeParen) :
    (factor x).view = (.matched (.agg o.pos i.text), x.skip 3) := by
  have hn : begins (· == .number) x.rest = false := by simp [hr, ho]
  rw [factor, Step.view_noted, alternative_of_noMatch (number_eq_noMatch hn), Step.view_widen,
    alternative_of_matched (kpi_eq_agg hr ho hi hp), Cursor.accept_skip, View.noted_matched]

/-- Nothing else starts a factor: with neither a number nor a bracket no alternative applies. -/
theorem factor_eq_noMatch {x : Cursor} (hn : begins (· == .number) x.rest = false)
    (ho : begins (· == .openParen) x.rest = false) : (factor x).view = (.noMatch, x) := by
  rw [factor, Step.view_noted, alternative_of_noMatch (number_eq_noMatch hn), Step.view_widen,
    alternative_of_noMatch (kpi_eq_noMatch ho), Step.view_widen,
    alternative_of_noMatch (group_eq_noMatch ho), Step.view_noMatch, View.noted_noMatch]

/-- What a factor makes of the bracketed sum, tried at `y` after the reference has failed with `e`
at the cursor `c`. Of two failures the one that got further counts, and the later one of equals. -/
def afterGroup (y : Cursor) (e : Failure) (c : Cursor) : View Node → View Node
  | (.matched v, d) => (.matched v, y.accept d)
  | (.noMatch, _) => (.failed e, y.note e)
  | (.failed e', d) =>
    if y.committed d then (.failed e', (y.learn e' d).accept d)
    else if d.index ≥ c.index then (.failed e', (y.learn e' d).note e')
    else (.failed e, (y.learn e' d).note e)

/-- A bracket that opens no reference opens a bracketed sum. The failure of the reference is kept
while the sum is tried, and `afterGroup` says which of the two is reported if the sum fails as
well. -/
theorem factor_eq_group {x : Cursor} {e : Failure} {c : Cursor}
    (hn : begins (· == .number) x.rest = false) (hk : (kpi x).view = (.failed e, c))
    (hc : x.committed c = false) :
    (factor x).view =
      View.noted (afterGroup (x.learn e c) e c (group (x.learn e c)).view) := by
  rw [factor, Step.view_noted, alternative_of_noMatch (number_eq_noMatch hn), Step.view_widen,
    alternative_of_failed hk, hc, if_neg Bool.false_ne_true, Step.view_widen]
  -- the first failure always enters: it cannot be less deep than none
  have hbest : (BestFailure.mk none 0).enter e c = ⟨some e, c.index⟩ := by
    simp [BestFailure.enter]
  simp only [hbest]
  congr 1
  -- what the sum does at the cursor that knows of the failed reference
  rcases hg : (group (x.learn e c)).view with ⟨v | _ | e', d⟩
  · rw [alternative_of_matched hg]
    rfl
  · rw [alternative_of_noMatch hg]
    rfl
  · rw [alternative_of_failed hg]
    simp only [afterGroup, BestFailure.enter]
    split
    · rfl
    · by_cases hd : d.index ≥ c.index
      · simp only [hd, if_true]
        rfl
      · simp only [hd, if_false]
        rfl

/-- After an opening bracket there stands a reference, or an attempt to read one fails so early that
it can be abandoned. -/
theorem kpi_cases {x : Cursor} {o : Token} {r : List Token} (hr : x.rest = o :: r)
    (ho : o.kind = .openParen) :
    (∃ i p s, r = i :: p :: s ∧ i.kind = .ident ∧ p.kind = .closeParen) ∨
    ∃ e c, (kpi x).view = (.failed e, c) ∧ x.committed c = false := by
  -- which of the two tokens after the bracket is wrong decides how far the failure got
  cases hi : begins (· == .ident) r with
  | false =>
    exact .inr ⟨_, _, kpi_eq_failed_ident hr ho hi, x.committed_skip (by decide)⟩
  | true =>
    obtain ⟨i, s, rfl, hi⟩ := exists_cons_of_begins hi
    cases hp : begins (· == .closeParen) s with
    | false =>
      exact .inr ⟨_, _, kpi_eq_failed_closing hr ho (eq_of_beq hi) hp,
        x.committed_skip (by decide)⟩
    | true =>
      obtain ⟨p, s, rfl, hp⟩ := exists_cons_of_begins hp
      exact .inl ⟨i, p, s, rfl, eq_of_beq hi, eq_of_beq hp⟩

/-- A match of a factor, read backwards, in the three ways there are. In the last one the sum was
tried at a cursor that has learned of the failed reference, so only its tokens are those of `x`. -/
theorem factor_matched {x c : Cursor} {n : Node} (h : (factor x).view = (.matched n, c)) :
    (∃ t r, x.rest = t :: r ∧ t.kind = .number ∧ n = .number t.pos t.text ∧ c.rest = r) ∨
    (∃ o i p r, x.rest = o :: i :: p :: r ∧ o.kind = .openParen ∧ i.kind = .ident ∧
      p.kind = .closeParen ∧ n = .agg o.pos i.text ∧ c.rest = r) ∨
    (∃ y d, y.rest = x.rest ∧ (group y).view = (.matched n, d) ∧ c.rest = d.rest) := by
  cases hn : begins (· == .number) x.rest with
  | true =>
    obtain ⟨t, r, hr, ht⟩ := exists_cons_of_begins hn
    rw [factor_eq_number hr (eq_of_beq ht)] at h
    obtain ⟨hv, rfl⟩ := Prod.mk.inj h
    exact .inl ⟨t, r, hr, eq_of_beq ht, (Outcome.matched.inj hv).symm, Cursor.rest_skip_one hr⟩
  | false =>
    cases hb : begins (· == .openParen) x.rest with
    | false => simp [factor_eq_noMatch hn hb] at h
    | true =>
      obtain ⟨o, r, hr, ho⟩ := exists_cons_of_begins hb
      have ho : o.kind = .openParen := eq_of_beq ho
      -- the reference is tried first, and only where it fails the sum
      rcases kpi_cases hr ho with ⟨i, p, s, rfl, hi, hp⟩ | ⟨e, k, hk, hc⟩
      · rw [factor_eq_agg hr ho hi hp] at h
        obtain ⟨hv, rfl⟩ := Prod.mk.inj h
        refine .inr (.inl ⟨o, i, p, s, hr, ho, hi, hp, (Outcome.matched.inj hv).symm, ?_⟩)
        simp [Cursor.skip, hr]
      · rw [factor_eq_group hn hk hc, View.noted_eq_matched] at h
        -- the reference has failed and the bracketed sum decides; its failure is one of the factor
        rcases hg : (group (x.learn e k)).view with ⟨v | _ | e', d⟩
        · rw [hg] at h
          obtain ⟨hv, rfl⟩ := Prod.mk.inj h
          obtain rfl := Outcome.matched.inj hv
          exact .inr (.inr ⟨_, d, Cursor.rest_learn _ _ _, hg, Cursor.rest_accept _ _⟩)
        · simp [hg, afterGroup] at h
        · simp only [hg, afterGroup] at h
          repeat' split at h
          all_goals simp at h

/-! ## Whole formulas -/

/-- A token list is accepted if a sum is read and nothing is left after it. Which failures were met
on the way has no part in that. -/
theorem parseTokens_ok_iff {ts : List Token} {n : Node} :
    parseTokens ts = .ok n ↔ ∃ c, Tier.sum.whole (.start ts) = (.matched n, c) ∧ c.rest = [] := by
  simp only [parseTokens, Tier.whole, Step.view, Prod.mk.injEq]
  -- a sum that was read can still have tokens behind it
  cases (expr (.start ts)).outcome with
  | failed e => simp
  | noMatch => simp
  | matched m =>
    simp only [List.isEmpty_iff, Outcome.matched.injEq]
    split
    · next hc =>
      constructor
      · intro h
        exact ⟨_, ⟨Except.ok.inj h, rfl⟩, hc⟩
      · rintro ⟨_, ⟨rfl, rfl⟩, _⟩
        rfl
    · next hc => simp [hc]

/-- Wrapping an error changes no success. -/
theorem mapError_eq_ok_iff {ε ε' α : Type} {g : ε → ε'} {x : Except ε α} {a : α} :
    x.mapError g = .ok a ↔ x = .ok a := by
  cases x with
  | error e => constructor <;> intro h <;> cases h
  | ok b => constructor <;> intro h <;> exact congrArg _ (Except.ok.inj h)

/-- A formula is accepted if its text scans to the end and its tokens are accepted. -/
theorem parse_ok_iff {f : String} {n : Node} :
    parse f = .ok n ↔ (scan f).complete = true ∧ parseTokens (scan f).tokens = .ok n := by
  simp only [parse]
  cases hs : (scan f).complete with
  | false => simp
  | true => simp [mapError_eq_ok_iff]

end KpiReport.Formula
