import KpiReport.Json.Literal
import KpiReport.Table

/-!
# Reading JSON into a given shape

A reader takes a value of one shape off the front of a text: a text, a list, a table, a record.
Nothing in between is built, so a value of another shape is refused where it starts. The word
`null` stands for the absence of any of them. Members that a record does not know are skipped, but
not unread: they must be JSON too, if only by the loose rules for numbers below.

Readers of collections take a bound on the number of their items. The length of the whole text is
such a bound, since every item takes up at least one character.
-/

namespace KpiReport.Json

/-- Takes a value off the front of a text. -/
abbrev Reader (α : Type) := List Char → Except Fault (α × List Char)

/-- The fault of a text that goes on in another way than it should. -/
def unexpected {α : Type} : List Char → Except Fault α
  | [] => .error .endOfText
  | c :: _ => .error (.unexpected c)

/-- Takes the given characters off the front. -/
def expect : (word : List Char) → (input : List Char) → Except Fault (List Char)
  | [], input => .ok input
  | w :: ws, c :: r => if c = w then expect ws r else .error (.unexpected c)
  | _ :: _, [] => .error .endOfText

/-- Takes one character off the front, after white space. -/
def sign (c : Char) (input : List Char) : Except Fault (List Char) :=
  expect [c] (skipBlanks input)

/-- A text; no value is read as the empty one. Raw control characters are refused up to the first
escape. -/
def text : Reader String := fun input =>
  match skipBlanks input with
  | '"' :: r => quotedText .refusedBeforeEscape .replaceBoth none [] r
  | 'n' :: r => do return ("", ← expect ['u', 'l', 'l'] r)
  | r => unexpected r

/-- The name of a member of a record, which may hold any character. -/
def memberName : Reader String := fun input =>
  match skipBlanks input with
  | '"' :: r => quotedText .allowed .replaceBoth none [] r
  | r => unexpected r

/-! ## Skipping -/

/-- A character that ends a number. -/
def endsNumber (c : Char) : Bool :=
  c == ',' || c == ']' || c == '}' || isBlank c

/-- A number that is read for its value: a decimal without a sign of its own, whose points are
followed by digits, and that stays below the limit. -/
def readableNumber (limit : Nat) (cs : List Char) : Bool :=
  cs.head? != some '-' && pointsFollowed cs &&
    match decimal? cs with
    | some d => !d.reaches limit
    | none => false

/-- A number of which only the form counts: a leading zero or point, as they can follow a minus. -/
def bareForm (cs : List Char) : Bool :=
  match cs with
  | '.' :: _ => (decimal? cs).isSome
  | '0' :: c :: _ => c.isDigit && (decimal? cs).isSome
  | _ => false

/-- Skips a number. Digits with at most one point pass as they are, whatever their first digit
is; all else has to be readable. A zero in front is looked at more closely. -/
def skipNumber : List Char → Except Fault (List Char)
  | [] => .error .endOfText
  | '0' :: r =>
    let run := '0' :: r.takeWhile isNumberChar
    if (r.head?.map Char.isDigit).getD false || !readableNumber singleLimit run then
      .error .badNumber
    else .ok (r.dropWhile isNumberChar)
  | c :: r =>
    let plain := r.takeWhile fun x => x.isDigit || x == '.'
    let after := r.dropWhile fun x => x.isDigit || x == '.'
    let run := r.takeWhile isNumberChar
    if 1 < plain.count '.' || !pointsFollowed plain then .error .badNumber
    else if !plain.isEmpty && (after.head?.map endsNumber).getD false then .ok after
    else if c = '-' then
      if bareForm run || readableNumber doubleLimit run then .ok (r.dropWhile isNumberChar)
      else .error .badNumber
    else if readableNumber doubleLimit (c :: run) then .ok (r.dropWhile isNumberChar)
    else .error .badNumber

mutual

/-- Skips a value. At most `room` brackets may be open inside it at once. -/
def skip : (bound room : Nat) → List Char → Except Fault (List Char)
  | 0, _, _ => .error .endOfText
  | bound + 1, room, input =>
    match skipBlanks input with
    | '"' :: r => do return (← quotedText .refusedBeforeEscape .replaceBoth none [] r).2
    | 'n' :: r => expect ['u', 'l', 'l'] r
    | 't' :: r => expect ['r', 'u', 'e'] r
    | 'f' :: r => expect ['a', 'l', 's', 'e'] r
    | '[' :: r =>
      if room = 0 then .error .nestingTooDeep
      else
        match skipBlanks r with
        | ']' :: r => .ok r
        | r => skipItems bound (room - 1) r
    | '{' :: r =>
      if room = 0 then .error .nestingTooDeep
      else
        match skipBlanks r with
        | '}' :: r => .ok r
        | '"' :: r => skipMembers bound (room - 1) ('"' :: r)
        | r => unexpected r
    | c :: r => if c = '-' || c.isDigit then skipNumber (c :: r) else .error (.unexpected c)
    | [] => .error .endOfText

/-- Skips the items of a list and its closing bracket. -/
def skipItems : (bound room : Nat) → List Char → Except Fault (List Char)
  | 0, _, _ => .error .endOfText
  | bound + 1, room, input => do
    let r ← skip bound room input
    match skipBlanks r with
    | ',' :: r => skipItems bound room r
    | ']' :: r => return r
    | r => unexpected r

/-- Skips the members of a record and its closing bracket. -/
def skipMembers : (bound room : Nat) → List Char → Except Fault (List Char)
  | 0, _, _ => .error .endOfText
  | bound + 1, room, input => do
    let (_, r) ← text input
    let r ← skip bound room (← sign ':' r)
    match skipBlanks r with
    | ',' :: r => skipMembers bound room r
    | '}' :: r => return r
    | r => unexpected r

end

/-! ## Collections -/

/-- The items of a list after its first bracket; `acc` holds those read, in reverse. -/
def items {α : Type} (item : Reader α) : (bound : Nat) → (acc : List α) → Reader (List α)
  | 0, _, _ => .error .endOfText
  | bound + 1, acc, input => do
    let (a, r) ← item input
    match skipBlanks r with
    | ',' :: r => items item bound (a :: acc) r
    | ']' :: r => return ((a :: acc).reverse, r)
    | r => unexpected r

/-- A list, or no value. -/
def list {α : Type} (bound : Nat) (item : Reader α) : Reader (Option (List α)) := fun input =>
  match skipBlanks input with
  | 'n' :: r => do return (none, ← expect ['u', 'l', 'l'] r)
  | '[' :: r =>
    match skipBlanks r with
    | ']' :: r => .ok (some [], r)
    | r => do
      let (l, r) ← items item bound [] r
      return (some l, r)
  | r => unexpected r

/-- The entries of a table after its first bracket, added to those it has. -/
def entries {α : Type} (item : Reader α) : (bound : Nat) → Table α → Reader (Table α)
  | 0, _, _ => .error .endOfText
  | bound + 1, t, input => do
    let (key, r) ← text input
    let (a, r) ← item (← sign ':' r)
    let t := t.insert key a
    match skipBlanks r with
    | ',' :: r => entries item bound t r
    | '}' :: r => return (t, r)
    | r => unexpected r

/-- A table, added to the one there is, or no value. -/
def table {α : Type} (bound : Nat) (item : Reader α) (before : Option (Table α)) :
    Reader (Option (Table α)) := fun input =>
  match skipBlanks input with
  | 'n' :: r => do return (none, ← expect ['u', 'l', 'l'] r)
  | '{' :: r =>
    match skipBlanks r with
    | '}' :: r => .ok (some (before.getD .empty), r)
    | r => do
      let (t, r) ← entries item bound (before.getD .empty) r
      return (some t, r)
  | r => unexpected r

/-- How a record goes on when it meets a member: by reading the member's value into the record so
far. None for a member that the record does not know. -/
abbrev Members (α : Type) := α → String → Option (Reader α)

/-- The members of a record after its first bracket. -/
def members {α : Type} (known : Members α) (room : Nat) : (bound : Nat) → α → Reader α
  | 0, _, _ => .error .endOfText
  | bound + 1, a, input => do
    let (name, r) ← memberName input
    let r ← sign ':' r
    let (a, r) ← match known a (name.map Char.toLower) with
      | some read => read r
      | none => do pure (a, ← skip bound room r)
    match skipBlanks r with
    | ',' :: r => members known room bound a r
    | '}' :: r => return (a, r)
    | r => unexpected r

/-- A record; no value leaves it as it is. The names of its members are looked up in lower case. -/
def record {α : Type} (bound room : Nat) (known : Members α) (start : α) : Reader α := fun input =>
  match skipBlanks input with
  | 'n' :: r => do return (start, ← expect ['u', 'l', 'l'] r)
  | '{' :: r =>
    match skipBlanks r with
    | '}' :: r => .ok (start, r)
    | '"' :: r => members known (room - 1) bound start ('"' :: r)
    | r => unexpected r
  | r => unexpected r

/-- How many brackets may be open at once. -/
def maxNesting : Nat := 10000

/-- Reads a whole text. After the value only white space may follow, up to the end or to a null
character. -/
def readWhole {α : Type} (read : Reader α) (input : List Char) : Except Fault α := do
  let (a, r) ← read input
  match skipBlanks r with
  | [] => return a
  | c :: _ => if c = '\x00' then return a else throw (.unexpected c)

end KpiReport.Json
