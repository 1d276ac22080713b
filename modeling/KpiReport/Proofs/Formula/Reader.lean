import KpiReport.Proofs.Formula.Rules
import Mathlib.Logic.Relation

/-!
# Reading a formula token by token

A reader goes over the tokens once and never goes back. It knows which brackets are open and what
may come next, and it stops at the first token that cannot come there. The parser tries
alternatives and gives up attempts, so where it is when it refuses a formula is another matter: the
reader is what its failures are measured by.

* **`Reader.next`** — what one token does to a reader.
* **`Reach`** — a reader gets from one place to another; how it gets there depends on the kinds of
  the tokens only (`Reach.congr`), and on nothing else (`Move.unique`).
* **`halt`** — the place where the reader stops.
* **`Reader.blamed`** — the token that the parser blames where a reader stops. Each open bracket was
  tried as the start of a factor. Where that attempt failed at most three tokens after the bracket
  it is abandoned: the sum around it then ends before the sign in front of the bracket, and that
  sign is blamed in turn, unless the bracket is the first thing in that sum. An attempt that got
  further is final, and so is the blame.
-/

namespace KpiReport.Formula

/-- What may come next. -/
inductive Phase where
  /-- An operand, that is a number or an opening bracket. -/
  | operand
  /-- An operand or a name, after an opening bracket. -/
  | opening
  /-- A closing bracket, after a name. -/
  | named
  /-- A sign or a closing bracket, after an operand. -/
  | complete
deriving DecidableEq, Repr

/-- The places of the open brackets, the innermost one first, and what may come next. -/
structure Reader where
  opened : List Nat
  phase : Phase
deriving DecidableEq, Repr

namespace Reader

/-- Before the first token. -/
def start : Reader := ⟨[], .operand⟩

/-- After a token at the place `i`, if it can come there. -/
def next (r : Reader) (i : Nat) : TokenKind → Option Reader
  | .number =>
    if r.phase = .operand ∨ r.phase = .opening then some ⟨r.opened, .complete⟩ else none
  | .openParen =>
    if r.phase = .operand ∨ r.phase = .opening then some ⟨i :: r.opened, .opening⟩ else none
  | .ident => if r.phase = .opening then some ⟨r.opened, .named⟩ else none
  | .closeParen =>
    if r.phase = .named ∨ r.phase = .complete then
      match r.opened with
      | [] => none
      | _ :: outer => some ⟨outer, .complete⟩
    else none
  | .plus | .minus | .times | .cross | .slash =>
    if r.phase = .complete then some ⟨r.opened, .operand⟩ else none

/-- What a token that can come there does: an operand is read, a bracket opened, a name read, a
bracket closed, or a sign read. Proofs about the reader take these five cases in the place of nine
kinds of tokens in four phases. -/
theorem next_cases {r r' : Reader} {i : Nat} {k : TokenKind} (h : r.next i k = some r') :
    r' = ⟨r.opened, .complete⟩ ∨ r' = ⟨i :: r.opened, .opening⟩ ∨
      (r.phase = .opening ∧ r' = ⟨r.opened, .named⟩) ∨
      (∃ b outer, r.opened = b :: outer ∧ r' = ⟨outer, .complete⟩) ∨
      r' = ⟨r.opened, .operand⟩ := by
  obtain ⟨opened, phase⟩ := r
  cases k <;> simp only [next, Option.ite_none_right_eq_some, Option.some.injEq] at h
  case number => exact .inl h.2.symm
  case openParen => exact .inr (.inl h.2.symm)
  case ident => exact .inr (.inr (.inl ⟨h.1, h.2.symm⟩))
  case closeParen =>
    cases opened with
    | nil => cases h.2
    | cons b outer => exact .inr (.inr (.inr (.inl ⟨b, outer, rfl, (Option.some.inj h.2).symm⟩)))
  -- what is left are the five signs, which all do the same
  all_goals exact .inr (.inr (.inr (.inr h.2.symm)))

end Reader

/-! ## Moves -/

/-- The reader moves over one token. -/
def Move (ts : List Token) (a b : Nat × Reader) : Prop :=
  ∃ t, ts[a.1]? = some t ∧ a.2.next a.1 t.kind = some b.2 ∧ b.1 = a.1 + 1

/-- The reader moves over some tokens. -/
abbrev Reach (ts : List Token) : Nat × Reader → Nat × Reader → Prop :=
  Relation.ReflTransGen (Move ts)

/-- The token at the place, if there is one, cannot come there. -/
def Stuck (ts : List Token) (a : Nat × Reader) : Prop :=
  ∀ t, ts[a.1]? = some t → a.2.next a.1 t.kind = none

section Moves

variable {ts us : List Token} {a b c : Nat × Reader}

/-- There is one way for a reader to go on, because the token at its place decides what comes
next. -/
theorem Move.unique (hb : Move ts a b) (hc : Move ts a c) : b = c := by
  obtain ⟨t, ht, hnext, hindex⟩ := hb
  obtain ⟨t', ht', hnext', hindex'⟩ := hc
  obtain rfl := Option.some.inj (ht.symm.trans ht')
  exact Prod.ext (hindex.trans hindex'.symm) (Option.some.inj (hnext.symm.trans hnext'))

/-- A reader that is stuck goes nowhere. -/
theorem Stuck.not_move (h : Stuck ts a) : ¬ Move ts a b := by
  rintro ⟨t, ht, hnext, -⟩
  rw [h t ht] at hnext
  cases hnext

/-- A reader that is stuck somewhere has come past every place it can reach. Two runs of a
deterministic reader lie on one path, so the one ends where the other goes on, and a stuck reader
does not go on. -/
theorem Reach.of_stuck (hab : Reach ts a b) (hac : Reach ts a c) (hb : Stuck ts b) :
    Reach ts c b := by
  have hunique : Relator.RightUnique (Move ts) := fun _ _ _ => Move.unique
  rcases Relation.ReflTransGen.total_of_right_unique hunique hab hac with h | h
  · -- `b` comes first: then `c` is `b` itself, as there is no move from there
    rcases h.cases_head with rfl | ⟨d, hd, -⟩
    · exact .refl
    · exact (hb.not_move hd).elim
  · exact h

/-- A reader never goes back. -/
theorem Reach.le (h : Reach ts a b) : a.1 ≤ b.1 := by
  induction h with
  | refl => exact Nat.le_refl _
  | tail _ hmove ih =>
    obtain ⟨_, _, _, hindex⟩ := hmove
    omega

/-- A run that is not empty takes a token, so it ends further on. -/
theorem Reach.lt_of_ne (h : Reach ts a b) (hne : a ≠ b) : a.1 < b.1 := by
  rcases h.cases_head with rfl | ⟨c, ⟨_, _, _, hindex⟩, hcb⟩
  · exact absurd rfl hne
  · have := Reach.le hcb
    omega

/-- A reader does not go past the end: each move is over a token that is there. -/
theorem Reach.le_length (h : Reach ts a b) (ha : a.1 ≤ ts.length) : b.1 ≤ ts.length := by
  rcases h.cases_tail with rfl | ⟨c, _, ⟨t, ht, _, hindex⟩⟩
  · exact ha
  · have := (List.getElem?_eq_some_iff.1 ht).1
    omega

/-- Only the kinds of the tokens matter, and of them only those before the place that is reached. So
a run can be carried over to other tokens as long as they start alike. -/
theorem Reach.congr (h : Reach ts a b)
    (hkinds : ∀ k < b.1, ts[k]?.map Token.kind = us[k]?.map Token.kind) : Reach us a b := by
  induction h with
  | refl => exact .refl
  | @tail c d hac hmove ih =>
    obtain ⟨t, ht, hnext, hindex⟩ := hmove
    -- the tokens agree at the place that this move is over
    have hk := hkinds c.1 (by omega)
    rw [ht, Option.map_some, eq_comm, Option.map_eq_some_iff] at hk
    obtain ⟨u, hu, hkind⟩ := hk
    exact (ih fun k hk => hkinds k (by omega)).tail ⟨u, hu, hkind ▸ hnext, hindex⟩

/-- Whether a reader is stuck depends on the kind of one token. -/
theorem Stuck.congr (h : Stuck ts a)
    (hkind : ts[a.1]?.map Token.kind = us[a.1]?.map Token.kind) : Stuck us a := by
  intro u hu
  rw [hu, Option.map_some, Option.map_eq_some_iff] at hkind
  obtain ⟨t, ht, hkind⟩ := hkind
  rw [← hkind]
  exact h t ht

end Moves

/-! ## Where a reader stops -/

/-- Goes over the tokens as far as they can come. -/
def Reader.run (r : Reader) (i : Nat) : List Token → Nat × Reader
  | [] => (i, r)
  | t :: us =>
    match r.next i t.kind with
    | some r' => r'.run (i + 1) us
    | none => (i, r)

/-- What the loop computes is a run in the sense of `Reach`, and it ends where the reader is stuck.
The loop has tokens behind it, so the statement is about the whole of `pre ++ us`. -/
theorem Reader.reach_run (r : Reader) (pre us : List Token) :
    Reach (pre ++ us) (pre.length, r) (r.run pre.length us) ∧
      Stuck (pre ++ us) (r.run pre.length us) := by
  induction us generalizing r pre with
  | nil =>
    refine ⟨.refl, fun t ht => ?_⟩
    rw [run, List.append_nil, List.getElem?_eq_none (Nat.le_refl _)] at ht
    cases ht
  | cons u us ih =>
    have hu : (pre ++ u :: us)[pre.length]? = some u := by simp
    rw [run]
    split
    · next r' hnext =>
      -- `u` can come, and the rest is read with one more token behind
      have hih := ih r' (pre ++ [u])
      rw [List.append_assoc, List.singleton_append, List.length_append, List.length_singleton]
        at hih
      exact ⟨hih.1.head ⟨u, hu, hnext, rfl⟩, hih.2⟩
    · -- `u` is the token that cannot come
      next hnext =>
      refine ⟨.refl, fun t ht => ?_⟩
      obtain rfl := Option.some.inj (hu.symm.trans ht)
      exact hnext

/-- The place where a reader stops, and the reader there. -/
def halt (ts : List Token) : Nat × Reader :=
  Reader.start.run 0 ts

/-- The reader gets from the start to where it stops. -/
theorem reach_halt (ts : List Token) : Reach ts (0, .start) (halt ts) :=
  (Reader.start.reach_run [] ts).1

/-- It stops there because it is stuck. -/
theorem stuck_halt (ts : List Token) : Stuck ts (halt ts) :=
  (Reader.start.reach_run [] ts).2

/-- At the end of the tokens a reader is stuck in every phase, for want of a token. -/
theorem stuck_length {ts : List Token} (r : Reader) : Stuck ts (ts.length, r) := by
  intro t ht
  rw [List.getElem?_eq_none (Nat.le_refl _)] at ht
  cases ht

/-- A reader stops at one place only: a place that is reached, and where the reader is stuck, is the
place where it stops. This is how `halt` is computed for tokens of which only a run is known. -/
theorem eq_halt {ts : List Token} {a : Nat × Reader} (hreach : Reach ts (0, .start) a)
    (hstuck : Stuck ts a) : a = halt ts := by
  rcases (Reach.of_stuck (reach_halt ts) hreach (stuck_halt ts)).cases_head with h | ⟨c, hc, -⟩
  · exact h
  · exact (hstuck.not_move hc).elim

/-! ## Blame -/

/-- What has become of the attempts around the place where a reader stopped. -/
inductive Verdict where
  /-- Nothing was abandoned yet, and a sum ends before the token. -/
  | ends (token : Nat)
  /-- The attempt at the bracket was abandoned, with the token to blame. -/
  | abandoned (bracket token : Nat)
  /-- The attempt can no longer be abandoned. -/
  | final (token : Nat)
deriving DecidableEq, Repr

/-- A sum inside the bracket ends before a token that should be the closing bracket. -/
def Verdict.mismatch (bracket token : Nat) : Verdict :=
  if bracket + lookahead < token then .final token else .abandoned bracket token

/-- The verdict of the next bracket around. -/
def Verdict.within (bracket : Nat) : Verdict → Verdict
  | ends token => mismatch bracket token
  | abandoned inner token =>
    if inner = bracket + 1 then .abandoned bracket token else mismatch bracket (inner - 1)
  | final token => .final token

namespace Reader

/-- The verdict on a reader that has stopped before the token `v`. A sign without an operand is left
out of the sum before it. -/
def verdict (r : Reader) (v : Nat) : Verdict :=
  r.opened.foldl (fun verdict bracket => verdict.within bracket)
    (.ends (if r.phase = .operand then v - 1 else v))

/-- Outside all brackets the formula ends before the sign. The failure after it is deeper, and that
one is reported. -/
def blamed (r : Reader) (v : Nat) : Nat :=
  match r.verdict v with
  | .ends _ => v
  | .abandoned bracket token => if bracket = 0 then token else v
  | .final token => token

/-- Verdicts are taken from the innermost bracket to the outermost one, so a further bracket around
has the last word. -/
theorem verdict_append (opened : List Nat) (bracket : Nat) (phase : Phase) (v : Nat) :
    verdict ⟨opened ++ [bracket], phase⟩ v = (verdict ⟨opened, phase⟩ v).within bracket := by
  simp [verdict, List.foldl_append]

end Reader

/-- The sum ends before the sign: the operand after it is missing or was abandoned. -/
def Verdict.Drops (sign : Nat) (verdict : Verdict) : Prop :=
  verdict = .ends sign ∨ ∃ token, verdict = .abandoned (sign + 1) token

namespace Verdict.Drops

/-- An operand that is missing or was abandoned ends the sum before its sign, and the bracket around
that sum is left with a token that does not close it. -/
theorem within {verdict : Verdict} {bracket sign : Nat} (h : verdict.Drops sign)
    (hlt : bracket < sign) : verdict.within bracket = .mismatch bracket sign := by
  rcases h with rfl | ⟨token, rfl⟩
  · rfl
  · rw [Verdict.within, if_neg (by omega), Nat.add_sub_cancel]

/-- Outside all brackets the formula ends before the sign. The failure after it is deeper, and that
one is reported. -/
theorem blamed {r : Reader} {v sign : Nat} (h : (r.verdict v).Drops sign) : r.blamed v = v := by
  rw [Reader.blamed]
  rcases h with h | ⟨token, h⟩
  · rw [h]
  · rw [h]
    rfl

end Verdict.Drops

/-- The token that the parser blames for the tokens that it refuses. -/
def blame (ts : List Token) : Nat :=
  (halt ts).2.blamed (halt ts).1

end KpiReport.Formula
