import KpiReport.Proofs.Formula.Attempts

/-!
# The rules of the parser move on

The rules call each other on copies of their cursors, and failed copies are thrown away. Nothing in
that makes a run end by itself: a repetition whose rounds took no token would go on for ever, and so
would a bracket that opened a sum at the same place. Here the rules are taken as they call each
other, with no bound on the calls, and it is shown that they need none.

* **`Rule.body`** — one rule, with other rules run by whatever it is given. `Rule.runWithin` hands
  it back to itself, as often as a limit on nested calls allows.
* **`Rule.body_eq_view`** — all that a rule calls has a smaller measure than the rule itself: four
  for each token that is left, and a rank for the rule. So a run ends before the limit is reached,
  with what the parser makes of the tokens (`Rule.runWithin_eq_view`).
* **`Progress`** — where a rule leaves its cursor: further on after a match, at the same place where
  it does not apply, and never after the end of the tokens. If that holds of all calls, it holds of
  the rule that makes them (`Rule.progress_body`), hence of whole runs (`Rule.progress_runWithin`).
* **`Rounds`** — the rounds of a repetition that go on. Each has consumed a sign and an item, so
  there is a last one (`exists_rounds`).
* **`runs_end_further_on`** — all of it together, for every rule at every cursor of a token list.
-/

namespace KpiReport.Formula

/-! ## Rules and the calls they make -/

/-- The rules, with the type of what they read. The repetition of a chain and one round of it are
rules of their own, because they call and are called like the others. -/
inductive Rule : Type → Type where
  /-- A sum of terms (`expr`) or a product of factors (`term`). -/
  | chain (t : Tier) : Rule Node
  /-- The repetition in a chain, from where `left` has been read on. -/
  | repetition (t : Tier) (left : Node) : Rule Node
  /-- A sign and the item after it (`opTerm`, `opFactor`): one round of the repetition. -/
  | signed (t : Tier) : Rule (Token × Node)
  | factor : Rule Node
  | number : Rule Node
  | kpi : Rule Node
  | group : Rule Node

/-- The rule for the items of a tier. -/
def Tier.itemRule : Tier → Rule Node
  | sum => .chain product
  | product => .factor

/-- A rule that starts with a token of a wanted kind and goes on with `next`. Where no such token
stands the rule does not apply, and the cursor stays. -/
def onFirst {α : Type} (want : TokenKind → Bool) (x : Cursor)
    (next : Token → Option (View α)) : Option (View α) :=
  match x.rest with
  | t :: _ => if want t.kind then next t else some (.noMatch, x)
  | [] => some (.noMatch, x)

/-- A factor: the rules in the list are tried in turn, each on a copy of the cursor that has learned
from the failures before. -/
def attempts (call : Rule Node → Cursor → Option (View Node)) :
    List (Rule Node) → Cursor → BestFailure → Option (View Node)
  | [], x, best =>
    match best.failure with
    | some e => some (.failed e, x.note e)
    | none => some (.noMatch, x)
  | r :: rs, x, best => do
    match ← call r x with
    | (.matched v, c) => return (.matched v, x.accept c)
    | (.noMatch, _) => attempts call rs x best
    | (.failed e, c) =>
      if x.committed c then return (.failed e, (x.learn e c).accept c)
      else attempts call rs (x.learn e c) (best.enter e c)

namespace Rule

/-- What the parser makes of the tokens at a cursor. -/
def view : {α : Type} → Rule α → Cursor → View α
  | _, chain t, x => t.whole x
  | _, repetition t left, x => t.tail x left
  | _, signed t, x => t.signed x
  | _, factor, x => (KpiReport.Formula.factor x).view
  | _, number, x => (KpiReport.Formula.number x).view
  | _, kpi, x => (KpiReport.Formula.kpi x).view
  | _, group, x => (KpiReport.Formula.group x).view

/-- One rule, which has other rules run by `call`. There is no result where one of them has none.

The calls are not bounded here, and no cursor is compared with another. What makes runs end is
proved, not built in. -/
def body (call : {β : Type} → Rule β → Cursor → Option (View β)) :
    {α : Type} → Rule α → Cursor → Option (View α)
  | _, chain t, x => do
    match ← call t.itemRule x with
    | (.matched head, c) => (call (repetition t head) c).map View.noted
    | r => return View.noted r
  | _, repetition t left, x => do
    match ← call (signed t) x with
    | (.matched (o, v), c) => call (repetition t (t.node o.pos o.text left v)) (x.accept c)
    | (.noMatch, c) => return (.matched left, x.accept c)
    | (.failed e, c) =>
      if x.committed c then return (.failed e, ((x.note e).learn e c).accept c)
      else return (.matched left, (x.note e).learn e c)
  | _, signed t, x =>
    onFirst t.isSign x fun o => (call t.itemRule (x.skip 1)).map (t.afterSign o)
  | _, factor, x => (attempts call [number, kpi, group] x ⟨none, 0⟩).map View.noted
  | _, number, x => some (KpiReport.Formula.number x).view
  | _, kpi, x => some (KpiReport.Formula.kpi x).view
  | _, group, x =>
    onFirst (· == .openParen) x fun o => (call (chain .sum) (x.skip 1)).map (afterOpening o)

/-- A run in which at most `limit` calls are open at a time. Where that is not enough there is no
result. -/
def runWithin : (limit : Nat) → {α : Type} → Rule α → Cursor → Option (View α)
  | 0, _, _, _ => none
  | limit + 1, _, rule, x => rule.body (runWithin limit) x

/-! ## Runs end -/

/-- How many calls a rule has open before it comes to a further token. A sum opens a product, that a
factor, and that one of its alternatives, all at the same place. -/
def rank {α : Type} : Rule α → Nat
  | chain .sum => 4
  | chain .product => 3
  | repetition _ _ => 2
  | factor => 2
  | signed _ => 1
  | number => 1
  | kpi => 1
  | group => 1

/-- What gets smaller with every call: first the tokens that are left, then the rank. A token counts
for more than the largest difference of two ranks. -/
def measure {α : Type} (rule : Rule α) (x : Cursor) : Nat :=
  4 * x.rest.length + rule.rank

/-- `call` does what the parser does, for all runs of a measure below `n`. This is the induction
hypothesis on runs, as a property of what `body` is given. -/
def AnswersBelow (call : {β : Type} → Rule β → Cursor → Option (View β)) (n : Nat) : Prop :=
  ∀ {β : Type} (r : Rule β) (y : Cursor), r.measure y < n → call r y = some (r.view y)

theorem rank_pos {α : Type} (rule : Rule α) : 0 < rule.rank := by
  cases rule with
  | chain t => cases t <;> decide
  | repetition | signed | factor | number | kpi | group => exact Nat.succ_pos _

/-- No rule has more than four calls open before it takes a token. -/
theorem rank_le {α : Type} (rule : Rule α) : rule.rank ≤ 4 := by
  cases rule with
  | chain t => cases t <;> decide
  | repetition | signed | factor | number | kpi | group => simp [rank]

/-- The items of a chain are of a lower rank than the chain. -/
theorem rank_itemRule_lt (t : Tier) : t.itemRule.rank < (chain t).rank := by
  cases t <;> decide

/-- So is the repetition after the first item, though it may stand at the end of the tokens. -/
theorem rank_repetition_lt (t : Tier) (left : Node) :
    (repetition t left).rank < (chain t).rank := by
  cases t <;> simp [rank]

theorem view_itemRule (t : Tier) (x : Cursor) : t.itemRule.view x = t.item x := by
  cases t <;> rfl

end Rule

/-- A match of a signed item has consumed the sign, and at least one more token. -/
theorem Tier.rest_add_two_le_of_signed (t : Tier) {x c : Cursor} {v : Token × Node}
    (h : t.signed x = (.matched v, c)) : c.rest.length + 2 ≤ x.rest.length := by
  obtain ⟨o, v⟩ := v
  obtain ⟨r, hr, -, hitem⟩ := t.signed_matched h
  have hlt := t.rest_lt_of_item hitem
  rw [Cursor.rest_skip_one hr] at hlt
  rw [hr, List.length_cons]
  omega

section First

variable {α : Type} {want : TokenKind → Bool} {x : Cursor} {next : Token → Option (View α)}

theorem onFirst_of_begins_false (h : begins want x.rest = false) :
    onFirst want x next = some (.noMatch, x) := by
  unfold onFirst
  split
  · next hr =>
    rw [hr, begins_cons] at h
    rw [if_neg (by simp [h])]
  · rfl

theorem onFirst_of_cons {t : Token} {r : List Token} (hr : x.rest = t :: r)
    (ht : want t.kind = true) : onFirst want x next = next t := by
  simp [onFirst, hr, ht]

/-- Either the rule does not apply, or it has gone on after its first token. -/
theorem onFirst_eq_some {v : View α} (h : onFirst want x next = some v) :
    v = (.noMatch, x) ∨ ∃ t r, x.rest = t :: r ∧ next t = some v := by
  cases hb : begins want x.rest with
  | false =>
    rw [onFirst_of_begins_false hb] at h
    exact .inl (Option.some.inj h).symm
  | true =>
    obtain ⟨t, r, hr, ht⟩ := exists_cons_of_begins hb
    rw [onFirst_of_cons hr ht] at h
    exact .inr ⟨t, r, hr, h⟩

end First

/-- One more alternative, where both it and those after it have results. What is kept of a failure
is the same whether the alternatives are called or written out. -/
theorem attempts_cons {call : Rule Node → Cursor → Option (View Node)} {r : Rule Node}
    {rs : List (Rule Node)} {x : Cursor} {best : BestFailure} {s : Step Node x.rest.length}
    {otherwise : (y : Cursor) → y.rest = x.rest → BestFailure → Step Node x.rest.length}
    (hcall : call r x = some s.view)
    (hrest : ∀ y hy best', attempts call rs y best' = some (otherwise y hy best').view) :
    attempts call (r :: rs) x best = some (alternative x best s otherwise).view := by
  rcases hs : s.view with ⟨v | _ | e, c⟩
  · simp [attempts, hcall, hs, alternative_of_matched hs]
  · simp [attempts, hcall, hs, alternative_of_noMatch hs, hrest x rfl]
  · simp only [attempts, hcall, hs, alternative_of_failed hs, Option.bind_eq_bind,
      Option.bind_some]
    split
    · rfl
    · exact hrest _ (Cursor.rest_learn x e c) _

namespace Rule

section Calls

variable {call : {β : Type} → Rule β → Cursor → Option (View β)} {x : Cursor}

/-- A chain calls the rule for its items, which is of lower rank at the same place, and its
repetition, for which fewer tokens are left. -/
theorem body_chain (t : Tier) (hcall : AnswersBelow call ((chain t).measure x)) :
    (chain t).body call x = some ((chain t).view x) := by
  have hitem : call t.itemRule x = some (t.item x) := by
    rw [← view_itemRule]
    exact hcall _ _ (Nat.add_lt_add_left (rank_itemRule_lt t) _)
  rw [view, t.whole_eq]
  rcases h : t.item x with ⟨head | _ | e, c⟩
  · -- the first item has taken a token, and the repetition is called behind it
    have hlt := t.rest_lt_of_item h
    have hrepetition := hcall (repetition t head) c (by
      have := rank_repetition_lt t head
      simp only [measure]
      omega)
    simp [body, hitem, h, hrepetition, Tier.afterItem, view]
  · simp [body, hitem, h, Tier.afterItem]
  · simp [body, hitem, h, Tier.afterItem]

/-- A repetition calls one round at the same place, and itself behind a round that has taken two
tokens. -/
theorem body_repetition (t : Tier) (left : Node)
    (hcall : AnswersBelow call ((repetition t left).measure x)) :
    (repetition t left).body call x = some ((repetition t left).view x) := by
  have hsigned : call (signed t) x = some (t.signed x) :=
    hcall (signed t) x (Nat.lt_succ_self _)
  rw [view, t.tail_eq]
  rcases h : t.signed x with ⟨⟨o, v⟩ | _ | e, c⟩
  · -- the round has taken a sign and an item, and the repetition is called behind both
    have hlt := t.rest_add_two_le_of_signed h
    have hagain := hcall (repetition t (t.node o.pos o.text left v)) (x.accept c) (by
      simp only [measure, rank, Cursor.rest_accept]
      omega)
    simp [body, hsigned, h, hagain, Tier.afterRound, view]
  · simp [body, hsigned, h, Tier.afterRound]
  · simp only [body, hsigned, h, Tier.afterRound, Option.bind_eq_bind, Option.bind_some]
    split <;> rfl

/-- A round calls the rule for the items behind the sign. One token fewer makes up for its rank,
which may be higher. -/
theorem body_signed (t : Tier) (hcall : AnswersBelow call ((signed t).measure x)) :
    (signed t).body call x = some ((signed t).view x) := by
  rw [view, body]
  cases hb : begins t.isSign x.rest with
  | false => rw [t.signed_of_begins_false hb, onFirst_of_begins_false hb]
  | true =>
    obtain ⟨o, r, hr, ho⟩ := exists_cons_of_begins hb
    have hitem : call t.itemRule (x.skip 1) = some (t.item (x.skip 1)) := by
      rw [← view_itemRule]
      refine hcall _ _ ?_
      -- the item may be of rank four, and the round is of rank one: the sign makes up for it
      have hrank := rank_itemRule_lt t
      have hle := rank_le (chain t)
      rw [measure, measure, Cursor.rest_skip_one hr, hr, List.length_cons]
      omega
    rw [t.signed_of_sign hr ho, onFirst_of_cons hr ho, hitem, Option.map_some]

/-- A bracket calls the sum inside, behind itself. It is here that a rule calls one of a higher
rank, and that the tokens that are left have to come first in the measure. -/
theorem body_group (hcall : AnswersBelow call (group.measure x)) :
    group.body call x = some (group.view x) := by
  rw [view, body]
  cases hb : begins (· == .openParen) x.rest with
  | false => rw [group_eq_noMatch hb, onFirst_of_begins_false hb]
  | true =>
    obtain ⟨o, r, hr, ho⟩ := exists_cons_of_begins hb
    -- the same at the bracket, where a sum is called again
    have hsum : call (chain .sum) (x.skip 1) = some (expr (x.skip 1)).view := by
      refine hcall (chain .sum) _ ?_
      simp only [measure, rank, Cursor.rest_skip_one hr, hr, List.length_cons]
      omega
    rw [group_eq hr (eq_of_beq ho), onFirst_of_cons hr ho, hsum, Option.map_some]

/-- A factor calls its three alternatives at the same place. Each is of lower rank, and learning
from a failure moves no cursor. -/
theorem body_factor (hcall : AnswersBelow call (factor.measure x)) :
    factor.body call x = some (factor.view x) := by
  -- the copies on which the alternatives are tried stand where `x` stands
  have halternative : ∀ (r : Rule Node) (y : Cursor), r.rank < factor.rank → y.rest = x.rest →
      call r y = some (r.view y) := by
    intro r y hr hy
    refine hcall r y ?_
    rw [measure, measure, hy]
    exact Nat.add_lt_add_left hr _
  rw [view, KpiReport.Formula.factor, Step.view_noted]
  refine congrArg (Option.map View.noted)
    (attempts_cons (halternative number x (by decide) rfl) fun y₁ h₁ best₁ => ?_)
  rw [Step.view_widen]
  refine attempts_cons (halternative kpi y₁ (by decide) h₁) fun y₂ h₂ best₂ => ?_
  rw [Step.view_widen]
  refine attempts_cons (halternative group y₂ (by decide) (h₂.trans h₁)) fun y₃ h₃ best₃ => ?_
  obtain ⟨failure, reached⟩ := best₃
  cases failure <;> rfl

/-- A rule does what the parser does if all that it calls does, and it calls nothing but what has a
smaller measure. -/
theorem body_eq_view {α : Type} (rule : Rule α) (hcall : AnswersBelow call (rule.measure x)) :
    rule.body call x = some (rule.view x) := by
  cases rule with
  | chain t => exact body_chain t hcall
  | repetition t left => exact body_repetition t left hcall
  | signed t => exact body_signed t hcall
  | factor => exact body_factor hcall
  | number => rfl
  | kpi => rfl
  | group => exact body_group hcall

end Calls

/-- A run comes to its end if it may have as many calls open as the measure says. By induction on
the limit: what is called has a smaller measure, so one call less is enough for it. -/
theorem runWithin_eq_view {limit : Nat} :
    ∀ {α : Type} (rule : Rule α) (x : Cursor), rule.measure x ≤ limit →
      rule.runWithin limit x = some (rule.view x) := by
  induction limit with
  | zero =>
    intro α rule x h
    -- a rule has at least itself open, so the limit cannot be zero
    have hpos := rule.rank_pos
    rw [measure] at h
    omega
  | succ limit ih =>
    intro α rule x h
    exact rule.body_eq_view fun r y hlt => ih r y (by omega)

end Rule

/-! ## Where a run leaves its cursor -/

/-- A cursor in a token list, at one of the tokens or at their end. Every cursor that a run comes to
is one. -/
structure Cursor.Within (ts : List Token) (x : Cursor) : Prop where
  stands : x.At ts
  le_length : x.index ≤ ts.length

namespace Cursor.Within

variable {ts : List Token} {x b : Cursor}

theorem of_eq (h : x.Within ts) {y : Cursor} (hrest : y.rest = x.rest)
    (hindex : y.index = x.index) : y.Within ts :=
  ⟨h.stands.of_eq hrest hindex, hindex ▸ h.le_length⟩

theorem skip (h : x.Within ts) {k : Nat} (hk : k ≤ x.rest.length) : (x.skip k).Within ts := by
  refine ⟨h.stands.skip k, ?_⟩
  have hlen := h.stands.length_rest
  have hle := h.le_length
  rw [index_skip]
  omega

theorem skip_one (h : x.Within ts) {t : Token} {r : List Token} (hr : x.rest = t :: r) :
    (x.skip 1).Within ts :=
  h.skip (by simp [hr])

theorem accept (h : b.Within ts) (x : Cursor) : (x.accept b).Within ts :=
  h.of_eq (rest_accept x b) (index_accept x b)

theorem note (h : x.Within ts) (e : Failure) : (x.note e).Within ts :=
  h.of_eq (rest_note x e) (index_note x e)

theorem learn (h : x.Within ts) (e : Failure) (b : Cursor) : (x.learn e b).Within ts :=
  h.of_eq (rest_learn x e b) (index_learn x b e)

end Cursor.Within

theorem Cursor.within_start (ts : List Token) : (start ts).Within ts :=
  ⟨rfl, Nat.zero_le _⟩

/-- Where the cursor `x` of a token list is left by a rule whose matches take at least `least`
tokens. A rule that can match without a token always applies.

A match is `least` tokens further on. Where the rule does not apply the cursor is the one it was
given, with all that it remembers. A failure may have gone on by any number of tokens, but never
back. -/
inductive Progress {α : Type} (ts : List Token) (least : Nat) (x : Cursor) : View α → Prop where
  | matched {v : α} {c : Cursor} (hc : c.Within ts) (hfar : x.index + least ≤ c.index) :
      Progress ts least x (.matched v, c)
  | noMatch (h : 0 < least) : Progress ts least x (.noMatch, x)
  | failed {e : Failure} {c : Cursor} (hc : c.Within ts) (hle : x.index ≤ c.index) :
      Progress ts least x (.failed e, c)

/-- How many tokens a match of a rule takes at the least. A repetition may take none, and it is the
only rule that is called only after another has taken one. -/
def Rule.least {α : Type} : Rule α → Nat
  | chain _ => 1
  | repetition _ _ => 0
  | signed _ => 2
  | factor => 1
  | number => 1
  | kpi => 3
  | group => 3

namespace Progress

variable {α : Type} {ts : List Token} {m n : Nat} {x y : Cursor} {r : View α}

theorem noted (h : Progress ts n x r) : Progress ts n x (View.noted r) := by
  cases h with
  | matched hc hfar => exact .matched hc hfar
  | noMatch hn => exact .noMatch hn
  | failed hc hle => exact .failed (hc.note _) (by rwa [Cursor.index_note])

/-- What takes `m` tokens takes fewer as well, as long as it takes one. -/
theorem weaken (h : Progress ts m x r) (hn : 0 < n) (hle : n ≤ m) : Progress ts n x r := by
  cases h with
  | matched hc hfar => exact .matched hc (by omega)
  | noMatch => exact .noMatch hn
  | failed hc hle => exact .failed hc hle

/-- What always applies, run after `n` tokens were taken. -/
theorem after (h : Progress ts 0 y r) (hy : x.index + n ≤ y.index) : Progress ts n x r := by
  cases h with
  | matched hc hfar => exact .matched hc (by omega)
  | noMatch h0 => exact absurd h0 (Nat.lt_irrefl 0)
  | failed hc hle => exact .failed hc (by omega)

/-- Only where nothing applies does it matter which copy of a cursor was used. -/
theorem of_index_eq (h : Progress ts n y r) (hindex : y.index = x.index)
    (hr : r.1 ≠ .noMatch) : Progress ts n x r := by
  cases h with
  | matched hc hfar => exact .matched hc (hindex ▸ hfar)
  | noMatch => exact absurd rfl hr
  | failed hc hle => exact .failed hc (hindex ▸ hle)

end Progress

theorem Rule.least_itemRule (t : Tier) : t.itemRule.least = 1 := by
  cases t <;> rfl

section Runs

variable {ts : List Token} {x : Cursor}

/-- A number is one token. -/
theorem progress_number (hx : x.Within ts) : Progress ts 1 x (number x).view := by
  cases hn : begins (· == .number) x.rest with
  | false =>
    rw [number_eq_noMatch hn]
    exact .noMatch Nat.one_pos
  | true =>
    obtain ⟨t, r, hr, ht⟩ := exists_cons_of_begins hn
    rw [number_eq hr (eq_of_beq ht)]
    exact .matched (hx.skip_one hr) (Nat.le_refl _)

/-- A reference is three tokens, and it fails behind the first or the second of them. Where the
first one is no bracket it does not apply. -/
theorem progress_kpi (hx : x.Within ts) : Progress ts 3 x (kpi x).view := by
  cases hb : begins (· == .openParen) x.rest with
  | false =>
    rw [kpi_eq_noMatch hb]
    exact .noMatch (Nat.succ_pos _)
  | true =>
    obtain ⟨o, r, hr, ho⟩ := exists_cons_of_begins hb
    cases hi : begins (· == .ident) r with
    | false =>
      rw [kpi_eq_failed_ident hr (eq_of_beq ho) hi]
      -- no name behind the bracket
      exact .failed (hx.skip_one hr) (Nat.le_add_right _ _)
    | true =>
      obtain ⟨i, r, rfl, hi⟩ := exists_cons_of_begins hi
      cases hp : begins (· == .closeParen) r with
      | false =>
        rw [kpi_eq_failed_closing hr (eq_of_beq ho) (eq_of_beq hi) hp]
        -- no bracket behind the name
        exact .failed (hx.skip (by simp [hr])) (Nat.le_add_right _ _)
      | true =>
        obtain ⟨p, r, rfl, hp⟩ := exists_cons_of_begins hp
        rw [kpi_eq_agg hr (eq_of_beq ho) (eq_of_beq hi) (eq_of_beq hp)]
        exact .matched (hx.skip (by simp [hr])) (Nat.le_refl _)

/-- Once an alternative has failed, one failure is kept. -/
theorem BestFailure.enter_failure_ne_none {best : BestFailure} (h : best.failure = none →
    best.reached = 0) (e : Failure) (c : Cursor) : (best.enter e c).failure ≠ none := by
  unfold enter
  split
  · exact Option.some_ne_none e
  · next hlt =>
    intro hnone
    rw [h hnone] at hlt
    exact hlt (Nat.zero_le _)

/-- The alternatives of a factor leave the cursor where it was only if all of them do: after a
failure the factor fails too. So a factor that does not apply has tried nothing that failed. -/
theorem progress_attempts {call : Rule Node → Cursor → Option (View Node)} {rs : List (Rule Node)}
    (hcall : ∀ r ∈ rs, ∀ y v, Cursor.Within ts y → call r y = some v → Progress ts 1 y v) :
    ∀ {x : Cursor} {best : BestFailure} {v : View Node}, x.Within ts →
      (best.failure = none → best.reached = 0) → attempts call rs x best = some v →
      Progress ts 1 x v ∧ (v.1 = .noMatch → best.failure = none) := by
  induction rs with
  -- all alternatives were tried; what was kept of them decides
  | nil =>
    intro x best v hx hbest h
    cases hf : best.failure with
    | none =>
      simp only [attempts, hf, Option.some.injEq] at h
      subst h
      exact ⟨.noMatch Nat.one_pos, fun _ => rfl⟩
    | some e =>
      simp only [attempts, hf, Option.some.injEq] at h
      subst h
      exact ⟨.failed (hx.note e) (by simp), by simp⟩
  | cons r rs ih =>
    intro x best v hx hbest h
    have htail := fun r' hr' => hcall r' (List.mem_cons_of_mem r hr')
    obtain ⟨w, hw, h⟩ := Option.bind_eq_some_iff.1 h
    -- one more alternative: it matches, it does not apply, or it fails
    cases hcall r List.mem_cons_self x w hx hw with
    | matched hc hfar =>
      obtain rfl := Option.some.inj h
      exact ⟨.matched (hc.accept x) (by rwa [Cursor.index_accept]), by simp⟩
    | noMatch => exact ih htail hx hbest h
    | @failed e c hc hle =>
      dsimp only at h
      split at h
      · obtain rfl := Option.some.inj h
        exact ⟨.failed (hc.accept _) (by rwa [Cursor.index_accept]), by simp⟩
      · -- from here on a failure is kept, so the factor cannot end without one
        have hkept := BestFailure.enter_failure_ne_none hbest e c
        obtain ⟨hprogress, hnone⟩ := ih htail (hx.learn e c) (fun h => absurd h hkept) h
        have hne : v.1 ≠ .noMatch := fun hv => hkept (hnone hv)
        exact ⟨hprogress.of_index_eq (Cursor.index_learn x c e) hne, fun hv => absurd hv hne⟩

/-- A sign makes one token more. Where no item stands behind it the round fails, and does not count
as one that does not apply. -/
theorem progress_afterSign (t : Tier) {o : Token} {r : List Token} {v : View Node}
    (hx : x.Within ts) (hr : x.rest = o :: r) (h : Progress ts 1 (x.skip 1) v) :
    Progress ts 2 x (t.afterSign o v) := by
  cases h with
  | matched hc hfar => exact .matched hc hfar
  | noMatch => exact .failed ((hx.skip_one hr).note _) (by simp)
  | failed hc hle =>
    rw [Cursor.index_skip] at hle
    exact .failed (hc.note _) (by rw [Cursor.index_note]; omega)

/-- Two brackets make two tokens more. Where no sum stands inside, or the bracket is not closed, the
rule fails. -/
theorem progress_afterOpening {o : Token} {r : List Token} {v : View Node}
    (hx : x.Within ts) (hr : x.rest = o :: r) (h : Progress ts 1 (x.skip 1) v) :
    Progress ts 3 x (afterOpening o v) := by
  cases h with
  | @matched inner c hc hfar =>
    rw [Cursor.index_skip] at hfar
    cases hb : begins (· == .closeParen) c.rest with
    | true =>
      obtain ⟨p, s, hs, -⟩ := exists_cons_of_begins hb
      rw [afterOpening, if_pos hb]
      exact .matched (hc.skip_one hs) (by rw [Cursor.index_skip]; omega)
    | false =>
      rw [afterOpening, if_neg (by simp [hb])]
      exact .failed hc (by omega)
  | noMatch => exact .failed (hx.skip_one hr) (Nat.le_add_right _ _)
  | failed hc hle =>
    rw [Cursor.index_skip] at hle
    exact .failed hc (by omega)

/-- **One rule.** It makes progress if all that it calls does. By cases on the rule; what the calls
have taken is added up, and what follows the last call takes no token. -/
theorem Rule.progress_body {call : {β : Type} → Rule β → Cursor → Option (View β)}
    (hcall : ∀ {β : Type} (r : Rule β) (y : Cursor) (v : View β), y.Within ts → call r y = some v →
      Progress ts r.least y v)
    {α : Type} (rule : Rule α) {v : View α} (hx : x.Within ts)
    (h : rule.body call x = some v) : Progress ts rule.least x v := by
  cases rule with
  | chain t =>
    obtain ⟨w, hw, h⟩ := Option.bind_eq_some_iff.1 h
    have hitem := hcall _ _ _ hx hw
    rw [least_itemRule] at hitem
    cases hitem with
    | matched hc hfar =>
      obtain ⟨u, hu, rfl⟩ := Option.map_eq_some_iff.1 h
      exact ((hcall _ _ _ hc hu).after hfar).noted
    | noMatch =>
      obtain rfl := Option.some.inj h
      exact .noMatch Nat.one_pos
    | failed hc hle =>
      obtain rfl := Option.some.inj h
      exact (Progress.failed hc hle).noted
  | repetition t left =>
    obtain ⟨w, hw, h⟩ := Option.bind_eq_some_iff.1 h
    cases hcall _ _ _ hx hw with
    | matched hc hfar =>
      -- the round has taken its two tokens, and the repetition goes on behind it
      refine (hcall _ _ _ (hc.accept x) h).after ?_
      rw [Cursor.index_accept]
      exact Nat.le_trans (Nat.le_add_right _ _) hfar
    | noMatch =>
      obtain rfl := Option.some.inj h
      exact .matched (hx.accept x) (by simp [Rule.least])
    | @failed e c hc hle =>
      -- given up, the round leaves the cursor where it was; too far ahead, it takes the chain along
      dsimp only at h
      split at h
      · obtain rfl := Option.some.inj h
        exact .failed (hc.accept _) (by rwa [Cursor.index_accept])
      · obtain rfl := Option.some.inj h
        exact .matched ((hx.note e).learn e c) (by simp [Rule.least])
  | signed t =>
    rw [body] at h
    rcases onFirst_eq_some h with rfl | ⟨o, r, hr, h⟩
    · exact .noMatch (Nat.succ_pos _)
    · obtain ⟨w, hw, rfl⟩ := Option.map_eq_some_iff.1 h
      have hitem := hcall _ _ _ (hx.skip_one hr) hw
      rw [least_itemRule] at hitem
      exact progress_afterSign t hx hr hitem
  | factor =>
    obtain ⟨w, hw, rfl⟩ := Option.map_eq_some_iff.1 h
    -- each of the alternatives takes one token or three
    have halternative : ∀ r ∈ [number, kpi, group], ∀ y v, Cursor.Within ts y → call r y = some v →
        Progress ts 1 y v := by
      intro r hr y v hy hv
      refine (hcall r y v hy hv).weaken Nat.one_pos ?_
      simp only [List.mem_cons, List.not_mem_nil, or_false] at hr
      rcases hr with rfl | rfl | rfl <;> decide
    exact (progress_attempts halternative hx (fun _ => rfl) hw).1.noted
  | number =>
    obtain rfl := Option.some.inj h
    exact progress_number hx
  | kpi =>
    obtain rfl := Option.some.inj h
    exact progress_kpi hx
  | group =>
    rw [body] at h
    rcases onFirst_eq_some h with rfl | ⟨o, r, hr, h⟩
    · exact .noMatch (Nat.succ_pos _)
    · obtain ⟨w, hw, rfl⟩ := Option.map_eq_some_iff.1 h
      exact progress_afterOpening hx hr (hcall _ _ _ (hx.skip_one hr) hw)

/-- **Whole runs.** By induction on the limit, as every call has one that is smaller. -/
theorem Rule.progress_runWithin {limit : Nat} :
    ∀ {α : Type} (rule : Rule α) (y : Cursor) (v : View α), y.Within ts →
      rule.runWithin limit y = some v → Progress ts rule.least y v := by
  induction limit with
  | zero =>
    intro α rule y v hy h
    cases h
  | succ limit ih =>
    intro α rule y v hy h
    exact rule.progress_body ih hy h

/-- The parser makes progress, since what it makes of the tokens is what a run with enough calls
makes of them. -/
theorem Rule.progress_view {α : Type} (rule : Rule α) (hx : x.Within ts) :
    Progress ts rule.least x (rule.view x) :=
  rule.progress_runWithin x _ hx (rule.runWithin_eq_view x (Nat.le_refl _))

end Runs

/-! ## Repetitions -/

/-- A number of rounds of a repetition that go on: at each of the cursors a signed item was matched,
and the next round starts from there, with what has been read so far. -/
inductive Rounds (t : Tier) : Nat → Cursor × Node → Cursor × Node → Prop where
  | zero (a : Cursor × Node) : Rounds t 0 a a
  | succ {n : Nat} {x c : Cursor} {left v : Node} {o : Token} {b : Cursor × Node}
      (hsigned : t.signed x = (.matched (o, v), c))
      (hrest : Rounds t n (x.accept c, t.node o.pos o.text left v) b) :
      Rounds t (n + 1) (x, left) b

namespace Rounds

variable {t : Tier} {n : Nat} {a b : Cursor × Node}

/-- The repetition goes on from where the rounds have come to. -/
theorem tail_eq (h : Rounds t n a b) : t.tail a.1 a.2 = t.tail b.1 b.2 := by
  induction h with
  | zero => rfl
  | succ hsigned _ ih => rw [← ih, t.tail_eq, hsigned, Tier.afterRound]

/-- Every round takes two tokens, and no round leaves the list. So there are at most half as many
rounds as tokens. -/
theorem far {ts : List Token} (h : Rounds t n a b) (ha : a.1.Within ts) :
    b.1.Within ts ∧ a.1.index + 2 * n ≤ b.1.index := by
  induction h with
  | zero => exact ⟨ha, Nat.le_refl _⟩
  | @succ n x c left v o b hsigned _ ih =>
    have hround : Progress ts 2 x (t.signed x) := (Rule.signed t).progress_view ha
    rw [hsigned] at hround
    cases hround with
    | matched hc hfar =>
      obtain ⟨hb, hle⟩ := ih (hc.accept x)
      rw [Cursor.index_accept] at hle
      refine ⟨hb, ?_⟩
      show x.index + 2 * (n + 1) ≤ b.1.index
      omega

end Rounds

/-- A repetition comes to a round that does not go on. By induction on the tokens that are left,
which is what the two tokens of a round are needed for. -/
theorem exists_rounds (t : Tier) (x : Cursor) (left : Node) :
    ∃ n b, Rounds t n (x, left) b ∧ ∀ v c, t.signed b.1 ≠ (.matched v, c) := by
  rcases h : t.signed x with ⟨⟨o, v⟩ | _ | e, c⟩
  · -- one more round, and then those of the repetition behind it
    have hlt := t.rest_add_two_le_of_signed h
    obtain ⟨n, b, hb, hlast⟩ := exists_rounds t (x.accept c) (t.node o.pos o.text left v)
    exact ⟨n + 1, b, .succ h hb, hlast⟩
  · exact ⟨0, (x, left), .zero _, by simp [h]⟩
  · exact ⟨0, (x, left), .zero _, by simp [h]⟩
termination_by x.rest.length
decreasing_by
  rw [Cursor.rest_accept]
  omega

/-! ## Every rule at every cursor -/

/-- **Parsing makes progress.** At every place of a token list, its end included, the run of a rule
ends, with at most four calls open for each token that is left, and four more. A match takes as many
tokens as the rule needs at the least, which is one for a sum, a product and a factor and two for a
signed item, and it stays in the list. A rule that does not apply leaves the cursor where it was. Of
a repetition, each round that goes on has taken two tokens, and there is one that does not go on. -/
theorem runs_end_further_on {ts : List Token} {x : Cursor} (hx : x.Within ts) :
    (∀ {α : Type} (rule : Rule α),
      (∀ limit, 4 * (ts.length - x.index) + 4 ≤ limit →
        rule.runWithin limit x = some (rule.view x)) ∧
      Progress ts rule.least x (rule.view x)) ∧
    ∀ (t : Tier) (left : Node),
      (∀ n b, Rounds t n (x, left) b → b.1.Within ts ∧ x.index + 2 * n ≤ b.1.index) ∧
      ∃ n b, Rounds t n (x, left) b ∧ t.tail x left = t.tail b.1 b.2 ∧
        ∀ v c, t.signed b.1 ≠ (.matched v, c) := by
  refine ⟨fun rule => ⟨fun limit hlimit => ?_, rule.progress_view hx⟩, fun t left => ⟨?_, ?_⟩⟩
  · refine rule.runWithin_eq_view x ?_
    have hrank := rule.rank_le
    -- four for each token that is left, and at most four for the rule
    rw [Rule.measure, hx.stands.length_rest]
    omega
  · exact fun n b h => h.far hx
  · obtain ⟨n, b, hb, hlast⟩ := exists_rounds t x left
    exact ⟨n, b, hb, hb.tail_eq, hlast⟩

/-- A product whose second factor is missing, inside a bracket that is never closed. The sum at the
second bracket ends before the sign of the product, and the repetition at the plus sign goes on for
one round. -/
theorem runs_end_further_on_unclosed :
    let ts := (scan "((1+2)*").tokens
    let x := (Cursor.start ts).skip 1
    let y := (Cursor.start ts).skip 3
    x.Within ts ∧ y.Within ts ∧
      (Rule.chain .sum).runWithin 28 x = some (expr x).view ∧ Progress ts 1 x (expr x).view ∧
      (expr x).cursor.index = 6 ∧
      (Rule.signed .sum).runWithin 20 y = some (opTerm y).view ∧ Progress ts 2 y (opTerm y).view ∧
      (opTerm y).cursor.index = 5 ∧
      ∃ n b, Rounds .sum n (y, .number ⟨2, 1, 3⟩ "1") b ∧
        ∀ v c, (opTerm b.1).view ≠ (.matched v, c) := by
  have hx : ((Cursor.start (scan "((1+2)*").tokens).skip 1).Within (scan "((1+2)*").tokens :=
    (Cursor.within_start _).skip (by decide +kernel)
  have hy : ((Cursor.start (scan "((1+2)*").tokens).skip 3).Within (scan "((1+2)*").tokens :=
    (Cursor.within_start _).skip (by decide +kernel)
  obtain ⟨hsum, hsumProgress⟩ := (runs_end_further_on hx).1 (.chain .sum)
  obtain ⟨hround, hroundProgress⟩ := (runs_end_further_on hy).1 (.signed .sum)
  obtain ⟨-, n, b, hb, -, hlast⟩ := (runs_end_further_on hy).2 .sum (.number ⟨2, 1, 3⟩ "1")
  have hsum := hsum 28 (by decide +kernel)
  have hround := hround 20 (by decide +kernel)
  -- the limited runs can be evaluated, and they are the runs of the parser
  have hsumIndex : ((Rule.chain .sum).runWithin 28
      ((Cursor.start (scan "((1+2)*").tokens).skip 1)).map (fun r => r.2.index) = some 6 := by
    decide +kernel
  have hroundIndex : ((Rule.signed .sum).runWithin 20
      ((Cursor.start (scan "((1+2)*").tokens).skip 3)).map (fun r => r.2.index) = some 5 := by
    decide +kernel
  rw [hsum] at hsumIndex
  rw [hround] at hroundIndex
  exact ⟨hx, hy, hsum, hsumProgress, Option.some.inj hsumIndex, hround, hroundProgress,
    Option.some.inj hroundIndex, n, b, hb, hlast⟩

end KpiReport.Formula
