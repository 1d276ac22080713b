import KpiReport.Yaml.Scalar

/-!
# Tokens of YAML

A text is cut into the signs and scalars that make up its structure. Indentation shows as tokens of
its own, which open and close a block. A key is only recognised by the colon behind it, so the
token that announces a key is put in front of it afterwards; `PossibleKey` remembers where.

Scanning never fails as a whole: where a text cannot be read on, the last token says why. What
stands before that point can still be a complete document.
-/

namespace KpiReport.Yaml

/-- The tokens of a text. -/
inductive Token where
  | directive (text : List Char)
  | documentStart
  | documentEnd
  | blockSequenceStart
  | blockMappingStart
  | blockEnd
  | flowSequenceStart
  | flowSequenceEnd
  | flowMappingStart
  | flowMappingEnd
  | blockEntry
  | flowEntry
  | key
  | value
  | reference (name : String)
  | anchor (name : String)
  | tag (text : String)
  | scalar (text : String) (plain : Bool)
  | streamEnd
  | fault (f : Fault)
deriving DecidableEq, Repr, Inhabited

/-- A token that may turn out to be a key. A required one must. -/
structure PossibleKey where
  required : Bool
  token : Nat
  mark : Mark
deriving DecidableEq, Repr, Inhabited

/-- The state of scanning. Of the tokens, the last one comes first; `count` is their number. There
is one entry of `keys` for the block structure and one for each open bracket, the innermost
first. -/
structure Scanner where
  cursor : Cursor
  tokens : List Token
  count : Nat
  indent : Int
  indents : List Int
  keyAllowed : Bool
  keys : List (Option PossibleKey)
deriving DecidableEq, Repr, Inhabited

namespace Scanner

/-- The state before a text. -/
def start (text : List Char) : Scanner :=
  ⟨.start text, [], 0, -1, [], true, [none]⟩

/-- Scanning is inside brackets. -/
def inFlow (s : Scanner) : Bool := s.keys.length > 1

/-- Adds a token. -/
def emit (s : Scanner) (t : Token) : Scanner :=
  { s with tokens := t :: s.tokens, count := s.count + 1 }

/-- Adds a token that becomes number `place`, in front of those from there on. -/
def emitAt (s : Scanner) (place : Nat) (t : Token) : Scanner :=
  { s with tokens := s.tokens.insertIdx (s.count - place) t, count := s.count + 1 }

/-- Adds a token of `n` characters. -/
def emitSign (s : Scanner) (t : Token) (n : Nat) : Scanner :=
  { s.emit t with cursor := s.cursor.skip n }

/-- Closes the blocks that are indented more than `column`. -/
def closeBlocks (s : Scanner) (column : Int) : Scanner :=
  if s.inFlow then s
  else
    let rec go (s : Scanner) : List Int → Scanner
      | [] => { s with indents := [] }
      | outer :: rest =>
        if s.indent > column then go { s.emit .blockEnd with indent := outer } rest
        else { s with indents := outer :: rest }
    go s s.indents

/-- Opens a block at `column` unless one is open there; its first token becomes number `place`. -/
def openBlock (s : Scanner) (column : Int) (place : Nat) (t : Token) : Scanner :=
  if s.inFlow || s.indent ≥ column then s
  else
    { s.emitAt place t with indents := s.indent :: s.indents, indent := column }

/-- Gives up the possible key of the current level; a required one is missing its colon. -/
def dropKey (s : Scanner) : Except Fault Scanner :=
  match s.keys with
  | some k :: rest =>
    if k.required then .error .missingColon else .ok { s with keys := none :: rest }
  | _ => .ok s

/-- Remembers that the next token may be a key. -/
def saveKey (s : Scanner) : Except Fault Scanner := do
  if s.keyAllowed then
    let k : PossibleKey :=
      { required := !s.inFlow && s.indent == (s.cursor.mark.column : Int)
        token := s.count
        mark := s.cursor.mark }
    let s ← s.dropKey
    return { s with keys := some k :: s.keys.tail }
  else return s

/-- Moves to the next token, over blanks, comments and line breaks. -/
def toNextToken : (bound : Nat) → Scanner → Scanner
  | 0, s => s
  | bound + 1, s =>
    let c := s.cursor
    let c := if c.mark.column == 0 && c.rest.head? == some '\ufeff' then c.skip 1 else c
    let tabs := s.inFlow || !s.keyAllowed
    let c := c.skip (c.rest.takeWhile fun a => a == ' ' || (tabs && a == '\t')).length
    let c := if c.rest.head? == some '#' then c.skipLine.2 else c
    match c.rest with
    | a :: _ =>
      if isBreak a then
        toNextToken bound
          { s with cursor := c.takeBreak.2, keyAllowed := s.keyAllowed || !s.inFlow }
      else { s with cursor := c }
    | [] => { s with cursor := c }

/-- A bracket opens. -/
def openFlow (s : Scanner) (t : Token) : Except Fault Scanner := do
  let s ← s.saveKey
  return { s.emitSign t 1 with keys := none :: s.keys, keyAllowed := true }

/-- A bracket closes. -/
def closeFlow (s : Scanner) (t : Token) : Except Fault Scanner := do
  let s ← s.dropKey
  let keys := if s.inFlow then s.keys.tail else s.keys
  return { s.emitSign t 1 with keys, keyAllowed := false }

/-- A comma between bracketed entries. -/
def flowEntry (s : Scanner) : Except Fault Scanner := do
  let s ← s.dropKey
  return { s.emitSign .flowEntry 1 with keyAllowed := true }

/-- A dash that starts an entry. -/
def blockEntry (s : Scanner) : Except Fault Scanner := do
  if !s.inFlow && !s.keyAllowed then throw .misplaced
  let s := s.openBlock s.cursor.mark.column s.count .blockSequenceStart
  let s ← s.dropKey
  return { s.emitSign .blockEntry 1 with keyAllowed := true }

/-- A question mark that announces a key. -/
def explicitKey (s : Scanner) : Except Fault Scanner := do
  if !s.inFlow && !s.keyAllowed then throw .misplaced
  let s := s.openBlock s.cursor.mark.column s.count .blockMappingStart
  let s ← s.dropKey
  return { s.emitSign .key 1 with keyAllowed := !s.inFlow }

/-- A possible key that a colon can still belong to: it started on the same line, and not too far
back. -/
def liveKey (s : Scanner) : Except Fault (Option PossibleKey) :=
  match s.keys with
  | some k :: _ =>
    if k.mark.line < s.cursor.mark.line || k.mark.index + 1024 < s.cursor.mark.index then
      if k.required then .error .missingColon else .ok none
    else .ok (some k)
  | _ => .ok none

/-- A colon that ends a key. -/
def value (s : Scanner) : Except Fault Scanner := do
  match ← s.liveKey with
  | some k =>
    let s := (s.emitAt k.token .key).openBlock k.mark.column k.token .blockMappingStart
    return { s.emitSign .value 1 with keys := none :: s.keys.tail, keyAllowed := false }
  | none =>
    if !s.inFlow && !s.keyAllowed then throw .misplaced
    let s := s.openBlock s.cursor.mark.column s.count .blockMappingStart
    return { s.emitSign .value 1 with keys := none :: s.keys.tail, keyAllowed := !s.inFlow }

/-- A character of an anchor's name. -/
def isNameChar (c : Char) : Bool :=
  c.isAlphanum || c == '_' || c == '-'

/-- An anchor or a reference to one. -/
def name (s : Scanner) (t : String → Token) : Except Fault Scanner := do
  let s ← s.saveKey
  let text := (s.cursor.rest.drop 1).takeWhile isNameChar
  let rest := s.cursor.rest.drop (1 + text.length)
  let ends := endsWord rest || rest.head?.any ("?:,]\x7d%@`".toList.contains ·)
  if text.isEmpty || !ends then throw .badName
  return { s.emitSign (t (String.ofList text)) (1 + text.length) with keyAllowed := false }

/-- A tag. -/
def tag (s : Scanner) : Except Fault Scanner := do
  let s ← s.saveKey
  let r := s.cursor.rest
  let text :=
    if r.take 2 == ['!', '<'] then r.take ((r.takeWhile (· != '>')).length + 1)
    else r.takeWhile fun a => !isBlank a && !isBreak a && !(s.inFlow && a == ',')
  let rest := r.drop text.length
  if !(endsWord rest || (s.inFlow && rest.head? == some ',')) then throw .badTag
  return { s.emitSign (.tag (String.ofList text)) text.length with keyAllowed := false }

/-- A block of text. -/
def block (bound : Nat) (s : Scanner) (literal : Bool) : Except Fault Scanner := do
  let s ← s.dropKey
  let (text, cursor) ← blockScalar bound literal s.indent s.cursor
  return { s.emit (.scalar (String.ofList text) false) with cursor, keyAllowed := true }

/-- A quoted scalar. -/
def quoted (bound : Nat) (s : Scanner) (double : Bool) : Except Fault Scanner := do
  let s ← s.saveKey
  let (text, cursor) ← quotedScalar bound double s.cursor
  return { s.emit (.scalar (String.ofList text) false) with cursor, keyAllowed := false }

/-- A plain scalar. -/
def plain (bound : Nat) (s : Scanner) : Except Fault Scanner := do
  let s ← s.saveKey
  let (text, broken, cursor) ← plainScalar bound s.inFlow (s.indent + 1) s.cursor
  return { s.emit (.scalar (String.ofList text) true) with cursor, keyAllowed := broken }

/-- A sign that stands for the whole document. -/
def documentSign (s : Scanner) (t : Token) (n : Nat) : Except Fault Scanner := do
  let s ← (s.closeBlocks (-1)).dropKey
  return { s.emitSign t n with keyAllowed := false }

/-- The end of the text. -/
def finish (s : Scanner) : Except Fault Scanner := do
  let s ← (s.closeBlocks (-1)).dropKey
  return s.emit .streamEnd

/-- The characters that start no plain scalar. -/
def indicators : List Char := "-?:,[]\x7b\x7d#&*!|>'\"%@`".toList

/-- A plain scalar can start here. Some of the indicators are harmless before a character that is
no blank. -/
def startsPlain (s : Scanner) (a : Char) (r : List Char) : Bool :=
  !(endsWord [a] || indicators.contains a)
    || (a == '-' && !r.head?.any isBlank)
    || (!s.inFlow && (a == '?' || a == ':') && !endsWord r)

/-- Reads the token at the cursor. -/
def token (bound : Nat) (s : Scanner) : Except Fault Scanner :=
  match s.cursor.rest with
  | [] => s.finish
  | a :: r =>
    if s.cursor.mark.column == 0 && a == '%' then
      let line := s.cursor.skipLine.1
      s.documentSign (.directive line) line.length
    else if s.cursor.atMarker '-' then s.documentSign .documentStart 3
    else if s.cursor.atMarker '.' then s.documentSign .documentEnd 3
    else if a == '[' then s.openFlow .flowSequenceStart
    else if a == '\x7b' then s.openFlow .flowMappingStart
    else if a == ']' then s.closeFlow .flowSequenceEnd
    else if a == '\x7d' then s.closeFlow .flowMappingEnd
    else if a == ',' then s.flowEntry
    else if a == '-' && endsWord r then s.blockEntry
    else if a == '?' && (s.inFlow || endsWord r) then s.explicitKey
    else if a == ':' && (s.inFlow || endsWord r) then s.value
    else if a == '*' then s.name .reference
    else if a == '&' then s.name .anchor
    else if a == '!' then s.tag
    else if a == '|' && !s.inFlow then s.block bound true
    else if a == '>' && !s.inFlow then s.block bound false
    else if a == '\'' then s.quoted bound false
    else if a == '"' then s.quoted bound true
    else if s.startsPlain a r then s.plain bound
    else .error .badCharacter

/-- Scans on to the end of the text or to a place where it cannot be read on. Every token takes up a
character, so a bound that exceeds the number of those left stays ahead of them. -/
def run : (bound : Nat) → Scanner → List Token
  | 0, s => (s.emit (.fault .unexpectedToken)).tokens.reverse
  | bound + 1, s =>
    let s := toNextToken bound s
    let s := s.closeBlocks s.cursor.mark.column
    match s.token bound with
    | .error f => (s.emit (.fault f)).tokens.reverse
    | .ok s =>
      if s.tokens.head? == some .streamEnd then s.tokens.reverse else run bound s

end Scanner

/-- The tokens of a text. -/
def tokens (text : String) : List Token :=
  let cs := text.toList
  let cs := if cs.head? == some '\ufeff' then cs.tail else cs
  if cs.all isAllowed then Scanner.run (cs.length + 2) (.start cs)
  else [.fault .controlCharacter]

end KpiReport.Yaml
