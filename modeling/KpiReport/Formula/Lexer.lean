import KpiReport.Formula.Token
import KpiReport.Text.Quoted

/-!
# From text to tokens

A formula text is cut into tokens from left to right. A token is the longest word of its kind at
its place; white space between tokens is dropped. Scanning stops at the end of the text or at the
first character that starts no token; a `Scan` records which of the two it was, and where.
-/

namespace KpiReport.Formula

/-- White space between tokens. The vertical tab and the spaces outside ASCII are not among it. -/
def isSpace (c : Char) : Bool :=
  c == ' ' || c == '\t' || c == '\n' || c == '\r' || c == '\x0c'

/-- A digit of a number. -/
def isDigit (c : Char) : Bool :=
  '0' ≤ c && c ≤ '9'

/-- A character that can start an identifier. -/
def isIdentStart (c : Char) : Bool :=
  ('a' ≤ c && c ≤ 'z') || ('A' ≤ c && c ≤ 'Z') || c == '_'

/-- A character that can continue an identifier. -/
def isIdentChar (c : Char) : Bool :=
  isIdentStart c || isDigit c

/-- The kind of a token that is a single sign. -/
def signKind? (c : Char) : Option TokenKind :=
  if c = '(' then some .openParen
  else if c = ')' then some .closeParen
  else if c = '+' then some .plus
  else if c = '-' then some .minus
  else if c = '*' then some .times
  else if c = '×' then some .cross
  else if c = '/' then some .slash
  else none

/-- The fraction at the head of a text: a point and at least one digit. -/
def fraction : List Char → List Char
  | '.' :: d :: r => if isDigit d then '.' :: d :: r.takeWhile isDigit else []
  | _ => []

/-- The longest number at the head of a text. -/
def numeral (cs : List Char) : List Char :=
  cs.takeWhile isDigit ++ fraction (cs.dropWhile isDigit)

/-- The longest token at the head of a text: its kind and its characters. -/
def lexeme? : List Char → Option (TokenKind × List Char)
  | [] => none
  | c :: r =>
    match signKind? c with
    | some k => some (k, [c])
    | none =>
      if isDigit c then some (.number, numeral (c :: r))
      else if isIdentStart c then some (.ident, c :: r.takeWhile isIdentChar)
      else none

/-- A lexeme is never empty, so scanning always moves on. A sign is one character, and a number or a
name begins with the character that tells it from the others. -/
theorem lexeme?_length_pos {cs : List Char} {k : TokenKind} {w : List Char}
    (h : lexeme? cs = some (k, w)) : 0 < w.length := by
  cases cs with
  | nil => simp [lexeme?] at h
  | cons c r =>
    simp only [lexeme?] at h
    split at h
    · simp_all
      simp [← h.2]
    · by_cases hd : isDigit c
      · simp [hd] at h
        simp [← h.2, numeral, hd]
      · by_cases hi : isIdentStart c
        · simp [hd, hi] at h
          simp [← h.2]
        · simp [hd, hi] at h

/-- The outcome of scanning a text: the tokens before the place where scanning stopped, that
place, and the text left there. Nothing is left exactly when the whole text was scanned. -/
structure Scan where
  tokens : List Token
  stop : Position
  left : List Char
deriving DecidableEq, Repr, Inhabited

/-- Scans the text `cs`, which starts at `pos`. -/
def scanFrom (pos : Position) (cs : List Char) : Scan :=
  match cs with
  | [] => ⟨[], pos, []⟩
  | c :: r =>
    if isSpace c then scanFrom (pos.step c) r
    else
      match _h : lexeme? (c :: r) with
      | none => ⟨[], pos, c :: r⟩
      | some (k, w) =>
        let s := scanFrom (pos.after w) ((c :: r).drop w.length)
        { s with tokens := ⟨k, String.ofList w, pos⟩ :: s.tokens }
termination_by cs.length
decreasing_by
  · simp
  · have := lexeme?_length_pos _h
    simp only [List.length_drop, List.length_cons]
    omega

/-- Scans a whole formula. -/
def scan (formula : String) : Scan :=
  scanFrom .start formula.toList

/-- The whole text was cut into tokens. -/
def Scan.complete (s : Scan) : Bool :=
  s.left.isEmpty

/-- What is said about text that starts no token; a long text is cut after sixteen characters. -/
def Scan.message (s : Scan) : String :=
  let sample := if s.left.length > 16 then s.left.take 16 ++ ['.', '.', '.'] else s.left
  "invalid input text " ++ Text.quoted (String.ofList sample)

end KpiReport.Formula
