import KpiReport.Proofs.Formula.Grammar

/-!
# The usual reading of a formula

What a sequence of words means, said without the parser and without trees. The operation that is
applied last belongs to the last sum sign outside of all brackets, or, where there is none, to the
last product sign outside of all brackets; what stands on its two sides is read in the same way.
This is what it means that products bind tighter and that operators associate to the left. Without
a sign outside of brackets, the words are a number, a name between brackets, or words between
brackets.

The words of a tree are read along the tree (`reading_number`, `reading_agg`, `reading_paren`,
`reading_mulDiv`, `reading_addSub`). The brackets of a tree are balanced
(`GrammarTree.balanced_words`), so a sign inside of them is never outside, and the last sign of a
chain is the one at its root.
-/

namespace KpiReport.Formula

universe u

/-! ## The sign that is applied last -/

/-- The number of open brackets after one more word. -/
def depthAfter (d : Nat) (w : Word) : Nat :=
  match w.kind with
  | .openParen => d + 1
  | .closeParen => d - 1
  | _ => d

/-- The last wanted word outside of brackets, with the words before and after it; `d` brackets are
open at the start. -/
def splitLast (want : TokenKind → Bool) : Nat → List Word → Option (List Word × Word × List Word)
  | _, [] => none
  | d, w :: ws =>
    match splitLast want (depthAfter d w) ws with
    | some (l, o, r) => some (w :: l, o, r)
    | none => if d = 0 ∧ want w.kind = true then some ([], w, ws) else none

/-- The sign that is applied last, with its two sides. -/
def loosestSign (ws : List Word) : Option (List Word × Word × List Word) :=
  (splitLast TokenKind.isAddOp 0 ws).or (splitLast TokenKind.isMulOp 0 ws)

/-- The words between an opening bracket at the start and a closing one at the end. -/
def enclosed? : List Word → Option (List Word)
  | [] => none
  | o :: ws =>
    if o.kind = .openParen ∧ ws.getLast?.map Word.kind = some .closeParen then some ws.dropLast
    else none

/-- The two sides of a split, with the sign between them, are the words that were split. So a split
loses nothing, and both sides are shorter. -/
theorem eq_append_of_splitLast {want : TokenKind → Bool} {d : Nat} {ws l r : List Word} {o : Word}
    (h : splitLast want d ws = some (l, o, r)) : ws = l ++ o :: r := by
  induction ws generalizing d l with
  | nil => simp [splitLast] at h
  | cons w ws ih =>
    rw [splitLast] at h
    split at h
    · next l' o' r' hs =>
      obtain ⟨rfl, rfl, rfl⟩ : w :: l' = l ∧ o' = o ∧ r' = r := by simpa using h
      rw [ih hs, List.cons_append]
    · split at h
      · obtain ⟨rfl, rfl, rfl⟩ : [] = l ∧ w = o ∧ ws = r := by simpa using h
        rfl
      · simp at h

/-- So are the two sides of the sign that is applied last. Each is shorter than the whole, which is
why the reading ends. -/
theorem eq_append_of_loosestSign {ws l r : List Word} {o : Word}
    (h : loosestSign ws = some (l, o, r)) : ws = l ++ o :: r := by
  rcases Option.or_eq_some_iff.1 h with h | ⟨-, h⟩
  · exact eq_append_of_splitLast h
  · exact eq_append_of_splitLast h

/-- What is enclosed has lost its two brackets. -/
theorem length_enclosed? {ws inner : List Word} (h : enclosed? ws = some inner) :
    inner.length < ws.length := by
  cases ws with
  | nil => simp [enclosed?] at h
  | cons o ws =>
    simp only [enclosed?] at h
    split at h
    · obtain rfl := Option.some.inj h
      rw [List.length_dropLast, List.length_cons]
      omega
    · simp at h

/-! ## The reading -/

/-- What the numbers and signs of a formula stand for. Nothing is asked of the operations. -/
structure Arithmetic (α : Type u) where
  number : String → α
  add : α → α → α
  sub : α → α → α
  mul : α → α → α
  div : α → α → α

/-- The operation of a sign; both multiplication signs have the same one. -/
def Arithmetic.operation {α : Type u} (a : Arithmetic α) : TokenKind → Option (α → α → α)
  | .plus => some a.add
  | .minus => some a.sub
  | .times | .cross => some a.mul
  | .slash => some a.div
  | _ => none

/-- An operation on two readings, both of which have to be there. -/
def applyReading {α : Type u} (f : Option (α → α → α)) (l r : Option α) : Option α := do
  return (← f) (← l) (← r)

/-- The value of a sequence of words, where the name `k` between brackets means `ref k`. -/
def reading {α : Type u} (a : Arithmetic α) (ref : String → α) (ws : List Word) : Option α :=
  match _h : loosestSign ws with
  | some (l, o, r) => applyReading (a.operation o.kind) (reading a ref l) (reading a ref r)
  | none =>
    match _h' : enclosed? ws with
    | some [⟨.ident, name⟩] => some (ref name)
    | some inner => reading a ref inner
    | none =>
      match ws with
      | [⟨.number, text⟩] => some (a.number text)
      | _ => none
termination_by ws.length
decreasing_by
  · rw [eq_append_of_loosestSign _h, List.length_append, List.length_cons]
    omega
  · rw [eq_append_of_loosestSign _h, List.length_append, List.length_cons]
    omega
  · exact length_enclosed? _h'

/-! ## Signs and brackets of a tree -/

/-- Brackets are left as they were found. -/
def Balanced (ws : List Word) : Prop :=
  ∀ d, ws.foldl depthAfter d = d

/-- A sign opens and closes nothing. -/
theorem depthAfter_sign (d : Nat) (op : String) : depthAfter d (Word.sign op) = d := by
  unfold Word.sign
  split <;> rfl

/-- The brackets of a tree are balanced: after its words as many are open as before. A tree can
therefore be passed over when signs outside of brackets are looked for. -/
theorem GrammarTree.balanced_words {l : Level} {n : Node} (h : GrammarTree l n) :
    Balanced n.words := by
  induction h with
  | number | agg =>
    intro d
    rfl
  | ofFactor _ ih => exact ih
  | ofTerm _ ih => exact ih
  | paren _ _ ih =>
    intro d
    -- one bracket is opened, kept through the words inside, and closed
    have hopen : depthAfter d Word.opening = d + 1 := rfl
    rw [Node.words, List.cons_append, List.foldl_cons, List.foldl_append, hopen, ih (d + 1)]
    rfl
  | mulDiv _ _ _ _ ihl ihr | addSub _ _ _ _ ihl ihr =>
    intro d
    rw [Node.words, List.foldl_append, ihl d, List.foldl_cons, depthAfter_sign, ihr d]

/-- A split of the later words is one of the whole, because the last sign counts. The earlier words
matter by the brackets they leave open. -/
theorem splitLast_append_of_some {want : TokenKind → Bool} {d : Nat} {as bs l r : List Word}
    {o : Word} (h : splitLast want (as.foldl depthAfter d) bs = some (l, o, r)) :
    splitLast want d (as ++ bs) = some (as ++ l, o, r) := by
  induction as generalizing d with
  | nil => exact h
  | cons a as ih => rw [List.cons_append, splitLast, ih h, List.cons_append]

/-- Without a wanted word on either side there is none in the whole. The two sides are looked at
with the brackets that are open where they start. -/
theorem splitLast_append_of_none {want : TokenKind → Bool} {d : Nat} {as bs : List Word}
    (ha : splitLast want d as = none) (hb : splitLast want (as.foldl depthAfter d) bs = none) :
    splitLast want d (as ++ bs) = none := by
  induction as generalizing d with
  | nil => exact hb
  | cons a as ih =>
    rw [splitLast] at ha
    split at ha
    · simp at ha
    · next hnone =>
      -- `a` is not the last one either, so it is not wanted or not outside
      rw [List.cons_append, splitLast, ih hnone hb]
      split at ha
      · simp at ha
      · next hd => rw [if_neg hd]

/-- A word that is not wanted is passed over. -/
theorem splitLast_cons_of_none {want : TokenKind → Bool} {d : Nat} {w : Word} {ws : List Word}
    (hw : ¬ (d = 0 ∧ want w.kind = true)) (hws : splitLast want (depthAfter d w) ws = none) :
    splitLast want d (w :: ws) = none := by
  rw [splitLast, hws, if_neg hw]

/-- A wanted word without another one after it is the last. -/
theorem splitLast_cons_of_last {want : TokenKind → Bool} {w : Word} {ws : List Word}
    (hw : want w.kind = true) (hws : splitLast want (depthAfter 0 w) ws = none) :
    splitLast want 0 (w :: ws) = some ([], w, ws) := by
  rw [splitLast, hws, if_pos ⟨rfl, hw⟩]

/-- Kinds that a tree can hold between its brackets without being cut there. -/
def IsSignTest (want : TokenKind → Bool) : Prop :=
  want .number = false ∧ want .ident = false ∧ want .openParen = false ∧ want .closeParen = false

theorem isSignTest_isAddOp : IsSignTest TokenKind.isAddOp := ⟨rfl, rfl, rfl, rfl⟩

theorem isSignTest_isMulOp : IsSignTest TokenKind.isMulOp := ⟨rfl, rfl, rfl, rfl⟩

section SplitLast

variable {want : TokenKind → Bool} {l : Level} {n : Node}

/-- Inside of brackets nothing is outside of them: with a bracket open in front of it, a tree holds
no place to split at, whichever words are wanted. -/
theorem GrammarTree.splitLast_inside (h : GrammarTree l n) (d : Nat) :
    splitLast want (d + 1) n.words = none := by
  induction h generalizing d with
  | number | agg => simp [Node.words, splitLast, depthAfter, Word.opening]
  | ofFactor _ ih => exact ih d
  | ofTerm _ ih => exact ih d
  | paren _ hi ih =>
    -- two brackets deep behind the opening one, one deep at the closing one
    rw [Node.words, List.cons_append]
    refine splitLast_cons_of_none (by simp) (splitLast_append_of_none (ih (d + 1)) ?_)
    rw [hi.balanced_words]
    exact splitLast_cons_of_none (by simp [depthAfter, Word.opening]) rfl
  | mulDiv _ _ hl _ ihl ihr | addSub _ _ hl _ ihl ihr =>
    rw [Node.words]
    refine splitLast_append_of_none (ihl d) ?_
    rw [hl.balanced_words]
    refine splitLast_cons_of_none (by simp) ?_
    rw [depthAfter_sign]
    exact ihr d

/-- A factor has no sign outside of brackets. It is a number, a name between brackets, or a sum
between brackets. -/
theorem GrammarTree.splitLast_factor (hw : IsSignTest want) (h : GrammarTree .factor n) :
    splitLast want 0 n.words = none := by
  obtain ⟨hnumber, hident, hopen, hclose⟩ := hw
  cases h with
  | number => simp [Node.words, splitLast, hnumber]
  | agg => simp [Node.words, splitLast, Word.opening, Word.closing, hopen, hident, hclose]
  | paren _ hi =>
    rw [Node.words, List.cons_append]
    refine splitLast_cons_of_none (by simp [Word.opening, hopen]) ?_
    refine splitLast_append_of_none (hi.splitLast_inside 0) ?_
    rw [hi.balanced_words]
    exact splitLast_cons_of_none (by simp [depthAfter, Word.opening]) rfl

/-- A term has no sum sign outside of brackets: its factors have none, and its own signs are those
of products. -/
theorem GrammarTree.splitLast_term (h : GrammarTree .term n) :
    splitLast TokenKind.isAddOp 0 n.words = none := by
  -- the level is made a variable, so that the other levels can be ruled out case by case
  generalize hl : Level.term = l at h
  induction h with
  | number | agg | paren | ofTerm | addSub => cases hl
  | ofFactor hf => exact hf.splitLast_factor isSignTest_isAddOp
  | mulDiv _ hop hl' hr ihl _ =>
    rw [Node.words]
    refine splitLast_append_of_none (ihl hl) ?_
    rw [hl'.balanced_words]
    refine splitLast_cons_of_none ?_ ?_
    · simp [isAddOp_sign_of_mem_productSigns hop]
    · rw [depthAfter_sign]
      exact hr.splitLast_factor isSignTest_isAddOp

end SplitLast

/-! ## The reading of a tree -/

section Reading

variable {α : Type u} (a : Arithmetic α) (ref : String → α)

/-- Words with a sign outside of brackets mean what the sign makes of its two sides. The equation of
`reading` in that case, without the proofs that it ends by. -/
theorem reading_of_sign {ws l r : List Word} {o : Word} (h : loosestSign ws = some (l, o, r)) :
    reading a ref ws =
      applyReading (a.operation o.kind) (reading a ref l) (reading a ref r) := by
  rw [reading]
  split
  · next l' o' r' h' =>
    obtain ⟨rfl, rfl, rfl⟩ : l' = l ∧ o' = o ∧ r' = r := by simpa [h'] using h
    rfl
  · next h' => simp [h] at h'

theorem reading_number (text : String) :
    reading a ref [⟨.number, text⟩] = some (a.number text) := by
  rw [reading]
  rfl

theorem reading_agg (name : String) :
    reading a ref [Word.opening, ⟨.ident, name⟩, Word.closing] = some (ref name) := by
  rw [reading]
  rfl

/-- Brackets only group. There is no sign outside of them, so they are taken off, and what they
enclose is no single name, since a tree does not start with one. -/
theorem reading_paren {inner : Node} (hi : GrammarTree .expr inner) (pos : Position) :
    reading a ref (Node.paren pos inner).words = reading a ref inner.words := by
  have hnone : loosestSign (Node.paren pos inner).words = none := by
    have hparen : GrammarTree .factor (.paren pos inner) := .paren pos hi
    rw [loosestSign, hparen.splitLast_factor isSignTest_isAddOp,
      hparen.splitLast_factor isSignTest_isMulOp, Option.none_or]
  have hinner : enclosed? (Node.paren pos inner).words = some inner.words := by
    simp [Node.words, enclosed?, Word.opening, Word.closing]
  rw [reading]
  split
  · next h => simp [hnone] at h
  · split
    · next name h =>
      -- a tree does not start with a name
      obtain ⟨w, ws, hw, hkind⟩ := hi.words_head
      rw [hinner, Option.some.injEq, hw] at h
      obtain ⟨rfl, -⟩ := List.cons.inj h
      simp at hkind
    · next inner' _ h =>
      obtain rfl := Option.some.inj (hinner.symm.trans h)
      rfl
    · next h => simp [hinner] at h

/-- The sign of a product is applied after its left factor. It is the last product sign outside of
brackets, for its right factor has none, and there is no sum sign that would come before it. -/
theorem reading_mulDiv {l r : Node} {op : String} (pos : Position) (hop : op ∈ productSigns)
    (hl : GrammarTree .term l) (hr : GrammarTree .factor r) :
    reading a ref (Node.mulDiv pos op l r).words =
      applyReading (a.operation (Word.sign op).kind) (reading a ref l.words)
        (reading a ref r.words) := by
  apply reading_of_sign
  have hsum : splitLast TokenKind.isAddOp 0 (Node.mulDiv pos op l r).words = none :=
    (GrammarTree.mulDiv pos hop hl hr).splitLast_term
  have hlast : splitLast TokenKind.isMulOp 0 (Word.sign op :: r.words)
      = some ([], Word.sign op, r.words) := by
    apply splitLast_cons_of_last (isMulOp_sign hop)
    rw [depthAfter_sign]
    exact hr.splitLast_factor isSignTest_isMulOp
  rw [loosestSign, hsum, Option.none_or, Node.words]
  -- in front of the sign no bracket is open
  rw [← hl.balanced_words 0] at hlast
  rw [splitLast_append_of_some hlast, List.append_nil]

/-- The sign of a sum is applied after its left term. It is the last sum sign outside of brackets,
and sum signs are looked for first. -/
theorem reading_addSub {l r : Node} {op : String} (pos : Position) (hop : op ∈ sumSigns)
    (hl : GrammarTree .expr l) (hr : GrammarTree .term r) :
    reading a ref (Node.addSub pos op l r).words =
      applyReading (a.operation (Word.sign op).kind) (reading a ref l.words)
        (reading a ref r.words) := by
  apply reading_of_sign
  have hlast : splitLast TokenKind.isAddOp 0 (Word.sign op :: r.words)
      = some ([], Word.sign op, r.words) := by
    apply splitLast_cons_of_last (isAddOp_sign hop)
    rw [depthAfter_sign]
    exact hr.splitLast_term
  rw [← hl.balanced_words 0] at hlast
  rw [loosestSign, Node.words, splitLast_append_of_some hlast, List.append_nil, Option.some_or]

end Reading

end KpiReport.Formula
