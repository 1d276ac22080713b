import KpiReport.Yaml.Cursor

/-!
# Scalars

The texts of a YAML document: plain ones, which end where a sign of the structure starts, quoted
ones with their escapes, and blocks, which keep or fold their lines. Each reader takes the cursor
at the start of the scalar and gives its text and the cursor after it. It also takes a bound, which
has to exceed the number of characters that are left: every round of reading consumes one of them.
-/

namespace KpiReport.Yaml

/-- The characters of one word of a plain scalar. Inside brackets, the signs of the bracketed forms
end it as well. -/
def plainWord (flow : Bool) : List Char → List Char
  | [] => []
  | c :: r =>
    if isBlank c || isBreak c then []
    else if c == ':' && endsWord r then []
    else if flow && (c == ',' || c == '?' || c == '[' || c == ']' || c == '\x7b' || c == '\x7d')
    then []
    else c :: plainWord flow r

/-- Reads a plain scalar from its next word on; `gap` is what precedes that word. Also tells whether
the scalar ended behind a line break. -/
def plainFrom (flow : Bool) (indent : Int) :
    (bound : Nat) → List Char → Gap → Cursor → Except Fault (List Char × Bool × Cursor)
  | 0, text, gap, c => .ok (text, gap.broken, c)
  | bound + 1, text, gap, c =>
    if c.atDocumentMarker || c.rest.head? == some '#' then .ok (text, gap.broken, c)
    else
      let word := plainWord flow c.rest
      let c := c.skip word.length
      let (text, gap) := if word.isEmpty then (text, gap) else (text ++ gap.folded ++ word, .empty)
      if c.rest.isEmpty || !endsWord c.rest then .ok (text, gap.broken, c)
      else do
        let (gap, c) ← Gap.take (some indent) bound gap c
        if !flow && (c.mark.column : Int) < indent then return (text, gap.broken, c)
        plainFrom flow indent bound text gap c

/-- Reads a plain scalar, whose later lines are indented by at least `indent`. -/
def plainScalar (bound : Nat) (flow : Bool) (indent : Int) (c : Cursor) :
    Except Fault (List Char × Bool × Cursor) :=
  plainFrom flow indent bound [] .empty c

/-- The value of a hexadecimal digit. -/
def hexValue? (c : Char) : Option Nat :=
  if '0' ≤ c && c ≤ '9' then some (c.toNat - 48)
  else if 'a' ≤ c && c ≤ 'f' then some (c.toNat - 87)
  else if 'A' ≤ c && c ≤ 'F' then some (c.toNat - 55)
  else none

/-- The number that a text of hexadecimal digits stands for. -/
def hexNumber? (cs : List Char) : Option Nat :=
  cs.foldl (fun n c => do return (← n) * 16 + (← hexValue? c)) (some 0)

/-- The character of a one-letter escape. -/
def simpleEscape? (c : Char) : Option Char :=
  match c with
  | '0' => some '\x00'
  | 'a' => some '\x07'
  | 'b' => some '\x08'
  | 't' | '\t' => some '\t'
  | 'n' => some '\n'
  | 'v' => some '\x0b'
  | 'f' => some '\x0c'
  | 'r' => some '\r'
  | 'e' => some '\x1b'
  | ' ' => some ' '
  | '"' => some '"'
  | '\'' => some '\''
  | '\\' => some '\\'
  | 'N' => some '\u0085'
  | '_' => some '\u00a0'
  | 'L' => some '\u2028'
  | 'P' => some '\u2029'
  | _ => none

/-- The number of digits of a numeric escape. -/
def escapeWidth? (c : Char) : Option Nat :=
  match c with
  | 'x' => some 2
  | 'u' => some 4
  | 'U' => some 8
  | _ => none

/-- The character of an escape whose text, behind the backslash, starts with `c`, and the number of
characters of the escape. -/
def escape? (c : Char) (r : List Char) : Option (Char × Nat) :=
  match simpleEscape? c with
  | some x => some (x, 1)
  | none => do
    let width ← escapeWidth? c
    let digits := r.take width
    if digits.length < width then none
    let n ← hexNumber? digits
    if (0xd800 ≤ n ∧ n ≤ 0xdfff) ∨ n > 0x10ffff then none
    return (Char.ofNat n, width + 1)

/-- Reads the rest of a quoted scalar; `before` is what was read of it, in reverse. -/
def quotedFrom (double : Bool) :
    (bound : Nat) → List Char → Cursor → Except Fault (List Char × Cursor)
  | 0, _, _ => .error .unterminated
  | bound + 1, before, c =>
    if c.atDocumentMarker then .error .unterminated
    else
      match c.rest with
      | [] => .error .unterminated
      | a :: r =>
        if a == '\'' && !double then
          if r.head? == some '\'' then quotedFrom double bound ('\'' :: before) (c.skip 2)
          else .ok (before.reverse, c.skip 1)
        else if a == '"' && double then .ok (before.reverse, c.skip 1)
        else if a == '\\' && double then
          match r with
          | [] => .error .unterminated
          | e :: r' =>
            if isBreak e then do
              -- an escaped line break vanishes, with the blanks that follow it
              let (_, c) := (c.skip 1).takeBreak
              let (gap, c) ← Gap.take none bound ⟨[], some ([], [])⟩ c
              quotedFrom double bound (gap.folded.reverse ++ before) c
            else
              match escape? e r' with
              | some (x, n) => quotedFrom double bound (x :: before) (c.skip (n + 1))
              | none => .error .badEscape
        else if isBlank a || isBreak a then do
          let (gap, c) ← Gap.take none bound .empty c
          quotedFrom double bound (gap.folded.reverse ++ before) c
        else quotedFrom double bound (a :: before) (c.skip 1)

/-- Reads a quoted scalar, the cursor being on its first quote. -/
def quotedScalar (bound : Nat) (double : Bool) (c : Cursor) :
    Except Fault (List Char × Cursor) :=
  quotedFrom double bound [] (c.skip 1)

/-- What becomes of the line breaks at the end of a block. -/
inductive Chomping where
  | strip
  | clip
  | keep
deriving DecidableEq, Repr, Inhabited

/-- Reads the header of a block behind its sign: chomping and an explicit indentation, in either
order. -/
def blockHeader (c : Cursor) : Except Fault (Chomping × Nat × Cursor) :=
  let chomp? (c : Cursor) : Option (Chomping × Cursor) :=
    match c.rest.head? with
    | some '+' => some (.keep, c.skip 1)
    | some '-' => some (.strip, c.skip 1)
    | _ => none
  let digit? (c : Cursor) : Except Fault (Option (Nat × Cursor)) :=
    match c.rest.head? with
    | some d =>
      if d == '0' then .error .badHeader
      else if '1' ≤ d && d ≤ '9' then .ok (some (d.toNat - 48, c.skip 1))
      else .ok none
    | none => .ok none
  match chomp? c with
  | some (ch, c) => do
    match ← digit? c with
    | some (n, c) => return (ch, n, c)
    | none => return (ch, 0, c)
  | none => do
    match ← digit? c with
    | none => return (.clip, 0, c)
    | some (n, c) =>
      match chomp? c with
      | some (ch, c) => return (ch, n, c)
      | none => return (.clip, n, c)

/-- Reads empty lines and the indentation of the next line that is not empty. The indentation zero
stands for one that is not known yet; `deepest` is the deepest one seen so far. -/
def blockBreaks (indent : Nat) :
    (bound deepest : Nat) → List Char → Cursor → Except Fault (Nat × List Char × Cursor)
  | 0, deepest, breaks, c => .ok (deepest, breaks, c)
  | bound + 1, deepest, breaks, c =>
    let spaces := (c.rest.takeWhile (· == ' ')).length
    let c := c.skip (if indent == 0 then spaces else min spaces (indent - c.mark.column))
    let deepest := max deepest c.mark.column
    match c.rest with
    | [] => .ok (deepest, breaks, c)
    | a :: _ =>
      if a == '\t' && (indent == 0 || c.mark.column < indent) then .error .tabIndentation
      else if isBreak a then
        let (text, c) := c.takeBreak
        blockBreaks indent bound deepest (breaks ++ text) c
      else .ok (deepest, breaks, c)

/-- The part of a block that has been read: its text, the break after its last line, the empty
lines after that one, and whether its last line started with a blank. -/
structure BlockText where
  text : List Char
  lineBreak : List Char
  emptyLines : List Char
  blankStart : Bool

/-- Reads the lines of a block. -/
def blockLines (literal : Bool) (indent : Nat) :
    (bound : Nat) → BlockText → Cursor → Except Fault (BlockText × Cursor)
  | 0, b, c => .ok (b, c)
  | bound + 1, b, c =>
    match c.rest with
    | [] => .ok (b, c)
    | a :: _ =>
      if c.mark.column != indent then .ok (b, c)
      else do
        let blank := isBlank a
        let joint :=
          if !literal && !b.blankStart && !blank && b.lineBreak == ['\n'] then
            if b.emptyLines.isEmpty then [' '] else []
          else b.lineBreak
        let (line, c) := c.skipLine
        let (lineBreak, c) := c.takeBreak
        let (_, emptyLines, c) ← blockBreaks indent (bound + 1) 0 [] c
        blockLines literal indent bound
          ⟨b.text ++ joint ++ b.emptyLines ++ line, lineBreak, emptyLines, blank⟩ c

/-- Reads a block, the cursor being on its sign; `parent` is the indentation around it. -/
def blockScalar (bound : Nat) (literal : Bool) (parent : Int) (c : Cursor) :
    Except Fault (List Char × Cursor) := do
  let (chomping, increment, c) ← blockHeader (c.skip 1)
  let c := c.skipBlanks
  let c := if c.rest.head? == some '#' then c.skipLine.2 else c
  if !endsLine c.rest then throw .badHeader
  let (_, c) := c.takeBreak
  let given := if increment == 0 then 0
    else if parent ≥ 0 then parent.toNat + increment else increment
  let (deepest, breaks, c) ← blockBreaks given bound 0 [] c
  let indent := if given == 0 then max deepest (max (parent + 1).toNat 1) else given
  let (b, c) ← blockLines literal indent bound ⟨[], [], breaks, false⟩ c
  let tail := match chomping with
    | .strip => []
    | .clip => b.lineBreak
    | .keep => b.lineBreak ++ b.emptyLines
  return (b.text ++ tail, c)

end KpiReport.Yaml
