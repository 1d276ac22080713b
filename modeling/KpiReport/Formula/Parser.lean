import KpiReport.Formula.Lexer
import KpiReport.Formula.Node

/-!
# From tokens to trees

The grammar is

* `expr := term (('+' | '-') term)*`
* `term := factor (('*' | '×' | '/') factor)*`
* `factor := number | '(' ident ')' | '(' expr ')'`

and operators associate to the left. Two alternatives of a factor start with the same bracket, so
the parser tries them in turn on copies of its cursor. A rule either matches, does not apply, or
fails; failures of abandoned attempts are remembered by how far they got, and the deepest one is
reported when the whole formula is refused. An attempt that failed more than `lookahead` tokens
ahead is not abandoned: its failure is final.

Every rule works on the list of remaining tokens and hands back a `Step`, which carries the proof
that a match has consumed a token. All rules therefore end, for any nesting depth.
-/

namespace KpiReport.Formula

/-- What the grammar asked for where a formula was refused. -/
inductive Expected where
  | term
  | factor
  | closing
  | exprClosing
  | identClosing
deriving DecidableEq, Repr, Inhabited

/-- How a message names an expectation. -/
def Expected.text : Expected → String
  | .term => "Term"
  | .factor => "Factor"
  | .closing => "\")\""
  | .exprClosing => "Expr \")\""
  | .identClosing => "<ident> \")\""

/-- A refusal: the token it is about (none at the end of the formula) and what was expected in its
place, where the grammar says. -/
structure Failure where
  found : Option Token
  expected : Option Expected
deriving DecidableEq, Repr, Inhabited

/-- Wording of a refusal. -/
def Failure.message (e : Failure) : String :=
  let found := match e.found with
    | some t => t.text
    | none => "<EOF>"
  let expected := match e.expected with
    | some x => " (expected " ++ x.text ++ ")"
    | none => ""
  "unexpected token \"" ++ found ++ "\"" ++ expected

/-- The state of an attempt: the tokens not yet consumed, the number of those that are, and the
deepest failure so far with its depth. -/
structure Cursor where
  rest : List Token
  index : Nat
  deepest : Option Failure
  depth : Nat
deriving DecidableEq, Repr, Inhabited

/-- How far ahead a failed attempt may have looked and still be abandoned. -/
def lookahead : Nat := 3

namespace Cursor

/-- The cursor before the first of the given tokens. -/
def start (tokens : List Token) : Cursor := ⟨tokens, 0, none, 0⟩

/-- The refusal of the token at the cursor. -/
def refuse (x : Cursor) (expected : Option Expected) : Failure :=
  ⟨x.rest.head?, expected⟩

/-- Consumes the token at the cursor if it is of a wanted kind. -/
def take? (x : Cursor) (want : TokenKind → Bool) :
    Option (Token × { y : Cursor // y.rest.length < x.rest.length }) :=
  match h : x.rest with
  | t :: r =>
    if want t.kind then some (t, ⟨{ x with rest := r, index := x.index + 1 }, by simp⟩)
    else none
  | [] => none

/-- Goes on from the copy `b`, keeping the deeper of the two failures. -/
def accept (x b : Cursor) : Cursor :=
  if b.depth ≥ x.depth then b else { b with deepest := x.deepest, depth := x.depth }

/-- Remembers a failure unless a deeper one is known. -/
def note (x : Cursor) (e : Failure) : Cursor :=
  if x.index ≥ x.depth then { x with deepest := some e, depth := x.index } else x

/-- What the cursor `x` learns from its copy `b` having failed with `e`. -/
def learn (x : Cursor) (e : Failure) (b : Cursor) : Cursor :=
  if b.depth > x.depth then { x with deepest := b.deepest, depth := b.depth }
  else if b.index ≥ x.depth then { x with deepest := some e, depth := max b.index b.depth }
  else x

/-- The copy `b` has gone too far ahead of `x` to be abandoned. -/
def committed (x b : Cursor) : Bool :=
  b.index > x.index + lookahead

/-- Which failures a cursor remembers is a matter of its own: no tokens are taken or given back when
two cursors are put together, when a failure is noted, or when one is learned of. -/
@[simp] theorem rest_accept (x b : Cursor) : (x.accept b).rest = b.rest := by
  unfold accept; split <;> rfl

@[simp] theorem rest_note (x : Cursor) (e : Failure) : (x.note e).rest = x.rest := by
  unfold note; split <;> rfl

@[simp] theorem rest_learn (x : Cursor) (e : Failure) (b : Cursor) :
    (x.learn e b).rest = x.rest := by
  unfold learn; split
  · rfl
  · split <;> rfl

end Cursor

/-- What a rule makes of the tokens at a cursor. -/
inductive Outcome (α : Type) where
  | matched (value : α)
  | noMatch
  | failed (e : Failure)
deriving DecidableEq, Repr, Inhabited

/-- The result of running a rule with `n` tokens remaining: the outcome and the cursor afterwards.
No token is ever given back, and a match has consumed at least one. -/
structure Step (α : Type) (n : Nat) where
  outcome : Outcome α
  cursor : Cursor
  bounded : cursor.rest.length ≤ n
  progress : ∀ v, outcome = .matched v → cursor.rest.length < n

namespace Step

variable {α β : Type} {n : Nat}

/-- A match, at a cursor that has moved on. -/
def matched (v : α) (x : Cursor) (h : x.rest.length < n) : Step α n :=
  ⟨.matched v, x, Nat.le_of_lt h, fun _ _ => h⟩

/-- The rule does not apply. -/
def noMatch (x : Cursor) (h : x.rest.length ≤ n) : Step α n :=
  ⟨.noMatch, x, h, by simp⟩

/-- The rule fails. -/
def failed (e : Failure) (x : Cursor) (h : x.rest.length ≤ n) : Step α n :=
  ⟨.failed e, x, h, by simp⟩

/-- A step seen from a place with more tokens remaining. -/
def widen {m : Nat} (s : Step α n) (h : n ≤ m) : Step α m :=
  ⟨s.outcome, s.cursor, Nat.le_trans s.bounded h,
    fun v hv => Nat.lt_of_lt_of_le (s.progress v hv) h⟩

/-- A rule that fails notes its failure at the cursor it has reached. -/
def noted (s : Step α n) : Step α n :=
  match s.outcome with
  | .failed e => .failed e (s.cursor.note e) (by simpa using s.bounded)
  | _ => s

end Step

/-- A number, at its token. -/
def number (x : Cursor) : Step Node x.rest.length :=
  match x.take? (· == .number) with
  | none => .noMatch x (Nat.le_refl _)
  | some (t, y) => .matched (.number t.pos t.text) y.1 y.2

/-- A reference to a measure: its name between brackets. -/
def kpi (x : Cursor) : Step Node x.rest.length :=
  match x.take? (· == .openParen) with
  | none => .noMatch x (Nat.le_refl _)
  | some (o, y) =>
    match y.1.take? (· == .ident) with
    | none => .failed (y.1.refuse (some .identClosing)) y.1 (Nat.le_of_lt y.2)
    | some (i, z) =>
      match z.1.take? (· == .closeParen) with
      | none => .failed (z.1.refuse (some .closing)) z.1 (by have := y.2; have := z.2; omega)
      | some (_, w) =>
        .matched (.agg o.pos i.text) w.1 (by have := y.2; have := z.2; have := w.2; omega)

/-- The best failure among the alternatives of a factor, and how far it got. -/
structure BestFailure where
  failure : Option Failure
  reached : Nat
deriving DecidableEq, Repr, Inhabited

/-- Enters the failure of one more alternative: a later one wins where it got as far. -/
def BestFailure.enter (best : BestFailure) (e : Failure) (b : Cursor) : BestFailure :=
  if b.index ≥ best.reached then ⟨some e, b.index⟩ else best

/-- One alternative of a factor, run on a copy of `x` with result `s`. Unless it matches or its
failure is final, `otherwise` goes on with what was learned. -/
def alternative (x : Cursor) (best : BestFailure) (s : Step Node x.rest.length)
    (otherwise : (y : Cursor) → y.rest = x.rest → BestFailure → Step Node x.rest.length) :
    Step Node x.rest.length :=
  match ho : s.outcome with
  | .matched v => .matched v (x.accept s.cursor) (by simpa using s.progress v ho)
  | .noMatch => otherwise x rfl best
  | .failed e =>
    let y := x.learn e s.cursor
    if x.committed s.cursor then .failed e (y.accept s.cursor) (by simpa using s.bounded)
    else otherwise y (by simp [y]) (best.enter e s.cursor)

/-- One round of a repetition, run on a copy of `x` with result `s`. The repetition ends with the
value `left` where the round does not apply or its failure can be abandoned. -/
def round {α : Type} (x : Cursor) (left : Node) (s : Step α x.rest.length)
    (again : (v : α) → (y : Cursor) → y.rest.length < x.rest.length →
      Step Node (x.rest.length + 1)) :
    Step Node (x.rest.length + 1) :=
  match ho : s.outcome with
  | .matched v => again v (x.accept s.cursor) (by simpa using s.progress v ho)
  | .noMatch =>
    .matched left (x.accept s.cursor) (Nat.lt_succ_of_le (by simpa using s.bounded))
  | .failed e =>
    let y := (x.note e).learn e s.cursor
    if x.committed s.cursor then
      .failed e (y.accept s.cursor) (Nat.le_succ_of_le (by simpa using s.bounded))
    else .matched left y (Nat.lt_succ_of_le (by simp [y]))

mutual

/-- A sum of terms. -/
def expr (x : Cursor) : Step Node x.rest.length :=
  let s := term x
  match ho : s.outcome with
  | .matched head => ((exprTail s.cursor head).widen (s.progress head ho)).noted
  | _ => s.noted
termination_by (x.rest.length, 3)
decreasing_by
  · exact Prod.Lex.right _ (by decide)
  · exact Prod.Lex.left _ _ (s.progress head ho)

/-- The rest of a sum, `left` being what has been read so far. -/
def exprTail (x : Cursor) (left : Node) : Step Node (x.rest.length + 1) :=
  round x left (opTerm x) fun v y hy =>
    (exprTail y (.addSub v.1.pos v.1.text left v.2)).widen (by omega)
termination_by (x.rest.length, 1)
decreasing_by
  · exact Prod.Lex.right _ (by decide)
  · exact Prod.Lex.left _ _ hy

/-- A sum sign and the term after it. -/
def opTerm (x : Cursor) : Step (Token × Node) x.rest.length :=
  match x.take? TokenKind.isAddOp with
  | none => .noMatch x (Nat.le_refl _)
  | some (o, y) =>
    let s := term y.1
    let h : s.cursor.rest.length < x.rest.length := Nat.lt_of_le_of_lt s.bounded y.2
    match s.outcome with
    | .matched v => .matched (o, v) s.cursor h
    | .noMatch =>
      (Step.failed (s.cursor.refuse (some .term)) s.cursor (Nat.le_of_lt h)).noted
    | .failed e => (Step.failed e s.cursor (Nat.le_of_lt h)).noted
termination_by (x.rest.length, 0)
decreasing_by exact Prod.Lex.left _ _ y.2

/-- A product of factors. -/
def term (x : Cursor) : Step Node x.rest.length :=
  let s := factor x
  match ho : s.outcome with
  | .matched head => ((termTail s.cursor head).widen (s.progress head ho)).noted
  | _ => s.noted
termination_by (x.rest.length, 2)
decreasing_by
  · exact Prod.Lex.right _ (by decide)
  · exact Prod.Lex.left _ _ (s.progress head ho)

/-- The rest of a product, `left` being what has been read so far. -/
def termTail (x : Cursor) (left : Node) : Step Node (x.rest.length + 1) :=
  round x left (opFactor x) fun v y hy =>
    (termTail y (.mulDiv v.1.pos v.1.text left v.2)).widen (by omega)
termination_by (x.rest.length, 1)
decreasing_by
  · exact Prod.Lex.right _ (by decide)
  · exact Prod.Lex.left _ _ hy

/-- A product sign and the factor after it. -/
def opFactor (x : Cursor) : Step (Token × Node) x.rest.length :=
  match x.take? TokenKind.isMulOp with
  | none => .noMatch x (Nat.le_refl _)
  | some (o, y) =>
    let s := factor y.1
    let h : s.cursor.rest.length < x.rest.length := Nat.lt_of_le_of_lt s.bounded y.2
    match s.outcome with
    | .matched v => .matched (o, v) s.cursor h
    | .noMatch =>
      (Step.failed (s.cursor.refuse (some .factor)) s.cursor (Nat.le_of_lt h)).noted
    | .failed e => (Step.failed e s.cursor (Nat.le_of_lt h)).noted
termination_by (x.rest.length, 0)
decreasing_by exact Prod.Lex.left _ _ y.2

/-- A number, a reference or a bracketed sum, tried in this order. -/
def factor (x : Cursor) : Step Node x.rest.length :=
  (alternative x ⟨none, 0⟩ (number x) fun y₁ h₁ best₁ =>
    ((alternative y₁ best₁ (kpi y₁) fun y₂ h₂ best₂ =>
      ((alternative y₂ best₂ (group y₂) fun y₃ h₃ best₃ =>
        match best₃.failure with
        | some e => .failed e (y₃.note e) (by simp [h₃])
        | none => .noMatch y₃ (by simp [h₃])).widen (by simp [h₂]))).widen (by simp [h₁]))).noted
termination_by (x.rest.length, 1)
decreasing_by
  rw [h₂, h₁]
  exact Prod.Lex.right _ (by decide)

/-- A sum between brackets. -/
def group (x : Cursor) : Step Node x.rest.length :=
  match x.take? (· == .openParen) with
  | none => .noMatch x (Nat.le_refl _)
  | some (o, y) =>
    let s := expr y.1
    let h : s.cursor.rest.length < x.rest.length := Nat.lt_of_le_of_lt s.bounded y.2
    match s.outcome with
    | .failed e => .failed e s.cursor (Nat.le_of_lt h)
    | .noMatch => .failed (s.cursor.refuse (some .exprClosing)) s.cursor (Nat.le_of_lt h)
    | .matched inner =>
      match s.cursor.take? (· == .closeParen) with
      | none => .failed (s.cursor.refuse (some .closing)) s.cursor (Nat.le_of_lt h)
      | some (_, z) => .matched (.paren o.pos inner) z.1 (Nat.lt_trans z.2 h)
termination_by (x.rest.length, 0)
decreasing_by exact Prod.Lex.left _ _ y.2

end

/-- Reads a whole token list as one expression. -/
def parseTokens (tokens : List Token) : Except Failure Node :=
  let s := expr (.start tokens)
  let reported :=
    let e := s.cursor.refuse none
    if s.cursor.index ≥ s.cursor.depth then e else s.cursor.deepest.getD e
  match s.outcome with
  | .failed e => .error e
  | .noMatch => .error reported
  | .matched n => if s.cursor.rest.isEmpty then .ok n else .error reported

/-- Why a text is not a formula: it has a character that starts no token, or its tokens do not
follow the grammar. `stop` is the end of the text. -/
inductive Fault where
  | invalidText (scan : Scan)
  | unexpected (failure : Failure) (stop : Position)
deriving DecidableEq, Repr, Inhabited

namespace Fault

/-- The place a fault points at. -/
def pos : Fault → Position
  | invalidText s => s.stop
  | unexpected e stop => (e.found.map Token.pos).getD stop

/-- Wording of a fault. -/
def message : Fault → String
  | invalidText s => s.message
  | unexpected e _ => e.message

end Fault

/-- Parses a formula. The whole text is scanned first, so invalid text anywhere is reported before
any violation of the grammar. -/
def parse (formula : String) : Except Fault Node :=
  let s := scan formula
  if s.complete then (parseTokens s.tokens).mapError (Fault.unexpected · s.stop)
  else .error (.invalidText s)

end KpiReport.Formula
