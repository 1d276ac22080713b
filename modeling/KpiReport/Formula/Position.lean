/-!
# Positions in a formula

A position is kept in three ways at once: the byte offset that programs use, and the line and
column that people read. The three move together over each character, so a place is all that has
to be remembered of the text before it.
-/

namespace KpiReport.Formula

/-- A place in a formula text. Lines and columns count from one, columns in characters. -/
structure Position where
  /-- Bytes of UTF-8 before the place. -/
  offset : Nat
  line : Nat
  column : Nat
deriving DecidableEq, Repr, Inhabited

namespace Position

/-- The place before the first character. -/
def start : Position := ⟨0, 1, 1⟩

/-- The place after one more character. -/
def step (p : Position) (c : Char) : Position :=
  if c = '\n' then ⟨p.offset + c.utf8Size, p.line + 1, 1⟩
  else ⟨p.offset + c.utf8Size, p.line, p.column + 1⟩

/-- The place after a run of characters. -/
def after (p : Position) (cs : List Char) : Position :=
  cs.foldl step p

@[simp] theorem after_nil (p : Position) : p.after [] = p := rfl

/-- A run is gone over from its front. -/
@[simp] theorem after_cons (p : Position) (c : Char) (cs : List Char) :
    p.after (c :: cs) = (p.step c).after cs := rfl

end Position

end KpiReport.Formula
