/-!
# Reading YAML text

A cursor on a text, with the line and column that indentation is measured by, and the characters
that YAML treats as blanks and line breaks.
-/

namespace KpiReport.Yaml

/-- Why a text is not YAML. -/
inductive Fault where
  | controlCharacter
  | tabIndentation
  | missingColon
  | misplaced
  | unterminated
  | badEscape
  | badHeader
  | badName
  | badTag
  | badDirective
  | badCharacter
  | unexpectedToken
  | unknownAnchor
  | nestingTooDeep
deriving DecidableEq, Repr, Inhabited

/-- A place in a text. -/
structure Mark where
  index : Nat
  line : Nat
  column : Nat
deriving DecidableEq, Repr, Inhabited

/-- The rest of a text and the place where it starts. -/
structure Cursor where
  rest : List Char
  mark : Mark
deriving DecidableEq, Repr, Inhabited

/-- A space or a tab. -/
def isBlank (c : Char) : Bool := c == ' ' || c == '\t'

/-- A character that ends a line. -/
def isBreak (c : Char) : Bool :=
  c == '\n' || c == '\r' || c == '\u0085' || c == '\u2028' || c == '\u2029'

/-- The text starts with a blank or a line break, or is at its end. -/
def endsWord : List Char → Bool
  | [] => true
  | c :: _ => isBlank c || isBreak c

/-- The text is at the end of a line. -/
def endsLine : List Char → Bool
  | [] => true
  | c :: _ => isBreak c

/-- The characters that may appear in a text at all. -/
def isAllowed (c : Char) : Bool :=
  let n := c.toNat
  n == 0x9 || n == 0xa || n == 0xd || (0x20 ≤ n && n ≤ 0x7e) || n == 0x85
    || (0xa0 ≤ n && n ≤ 0xd7ff) || (0xe000 ≤ n && n ≤ 0xfffd) || 0x10000 ≤ n

namespace Mark

/-- The place before a text. -/
def start : Mark := ⟨0, 0, 0⟩

/-- The place after `n` more characters of the same line. -/
def across (m : Mark) (n : Nat) : Mark :=
  { m with index := m.index + n, column := m.column + n }

/-- The place at the start of the next line, after a line break of `n` characters. -/
def nextLine (m : Mark) (n : Nat) : Mark :=
  ⟨m.index + n, m.line + 1, 0⟩

end Mark

namespace Cursor

/-- The cursor before a text. -/
def start (text : List Char) : Cursor := ⟨text, .start⟩

/-- Moves over `n` characters of a line. -/
def skip (c : Cursor) (n : Nat) : Cursor :=
  ⟨c.rest.drop n, c.mark.across (c.rest.take n).length⟩

/-- Moves over a line break, if there is one, and gives its normal form: a line feed for all but
the two separators of Unicode. -/
def takeBreak (c : Cursor) : List Char × Cursor :=
  match c.rest with
  | '\r' :: '\n' :: r => (['\n'], ⟨r, c.mark.nextLine 2⟩)
  | b :: r =>
    if isBreak b then
      (if b == '\u2028' || b == '\u2029' then [b] else ['\n'], ⟨r, c.mark.nextLine 1⟩)
    else ([], c)
  | [] => ([], c)

/-- Moves over the characters up to the end of the line. -/
def skipLine (c : Cursor) : List Char × Cursor :=
  let line := c.rest.takeWhile (!isBreak ·)
  (line, c.skip line.length)

/-- Moves over blanks. -/
def skipBlanks (c : Cursor) : Cursor :=
  c.skip (c.rest.takeWhile isBlank).length

/-- A document marker stands here: three equal signs at the start of a line, then a word end. -/
def atMarker (c : Cursor) (sign : Char) : Bool :=
  c.mark.column == 0 && c.rest.take 3 == [sign, sign, sign] && endsWord (c.rest.drop 3)

/-- A document starts or ends here. -/
def atDocumentMarker (c : Cursor) : Bool :=
  c.atMarker '-' || c.atMarker '.'

end Cursor

/-- What stands between two words of a scalar: blanks, or line breaks with the first one apart. -/
structure Gap where
  blanks : List Char
  breaks : Option (List Char × List Char)
deriving DecidableEq, Repr, Inhabited

namespace Gap

/-- No gap. -/
def empty : Gap := ⟨[], none⟩

/-- The gap has a line break. -/
def broken (g : Gap) : Bool := g.breaks.isSome

/-- What a gap becomes inside a scalar: blanks stay, a single line break is a space, and of
several line breaks the first one goes. -/
def folded (g : Gap) : List Char :=
  match g.breaks with
  | none => g.blanks
  | some (first, rest) =>
    if first == ['\n'] then (if rest.isEmpty then [' '] else rest) else first ++ rest

/-- Reads a gap of at most `bound` characters. Where an indentation is given, a tab that stands
before it on a later line is a fault. -/
def take (indent : Option Int) : (bound : Nat) → Gap → Cursor → Except Fault (Gap × Cursor)
  | 0, g, c => .ok (g, c)
  | bound + 1, g, c =>
    match c.rest with
    | [] => .ok (g, c)
    | b :: _ =>
      if isBlank b then
        if g.broken then
          if b == '\t' && indent.any ((c.mark.column : Int) < ·) then .error .tabIndentation
          else take indent bound g (c.skip 1)
        else take indent bound { g with blanks := g.blanks ++ [b] } (c.skip 1)
      else if isBreak b then
        let (text, c) := c.takeBreak
        let breaks := match g.breaks with
          | none => (text, [])
          | some (first, rest) => (first, rest ++ text)
        take indent bound ⟨[], some breaks⟩ c
      else .ok (g, c)

end Gap

end KpiReport.Yaml
