import KpiReport.Json.Reader
import KpiReport.Text.Quoted

/-!
# JSON documents

Documents with their members in order, how they are written, and how they are read strictly. A
document is written without any white space; in a text only quotes, backslashes and control
characters are escaped.
-/

namespace KpiReport.Json

/-- A JSON document. -/
inductive Value where
  | null
  | bool (b : Bool)
  | number (d : Decimal)
  | text (s : String)
  | list (items : List Value)
  | object (members : List (String × Value))
deriving Repr, Inhabited

/-- The document of a whole number. -/
def Value.int (n : Int) : Value :=
  .number ⟨n < 0, Nat.toDigits 10 n.natAbs, [], 0⟩

/-! ## Writing -/

/-- How a character of a text is written. -/
def escapeChar (c : Char) : List Char :=
  match c with
  | '"' => ['\\', '"']
  | '\\' => ['\\', '\\']
  | '\n' => ['\\', 'n']
  | '\r' => ['\\', 'r']
  | '\t' => ['\\', 't']
  | c => if c.toNat < 0x20 then '\\' :: 'u' :: Text.hexDigits 4 c.toNat else [c]

/-- A text between quotes. -/
def quote (s : String) : String :=
  String.ofList ('"' :: s.toList.flatMap escapeChar ++ ['"'])

/-- The spelling of a number. -/
def Decimal.render (d : Decimal) : String :=
  (if d.negative then "-" else "") ++ String.ofList d.whole
    ++ (if d.fraction.isEmpty then "" else "." ++ String.ofList d.fraction)
    ++ (if d.exponent = 0 then "" else "e" ++ toString d.exponent)

mutual

/-- The text of a document. -/
def Value.render : Value → String
  | .null => "null"
  | .bool b => if b then "true" else "false"
  | .number d => d.render
  | .text s => quote s
  | .list vs => "[" ++ ",".intercalate (Value.renderAll vs) ++ "]"
  | .object ms => "\x7b" ++ ",".intercalate (Value.renderMembers ms) ++ "\x7d"

/-- The texts of a list of documents. -/
def Value.renderAll : List Value → List String
  | [] => []
  | v :: vs => v.render :: Value.renderAll vs

/-- The texts of the members of an object. -/
def Value.renderMembers : List (String × Value) → List String
  | [] => []
  | (k, v) :: ms => (quote k ++ ":" ++ v.render) :: Value.renderMembers ms

end

/-! ## Strict reading -/

/-- A text in which no raw control character may stand. -/
def strictText : Reader String := fun input =>
  match skipBlanks input with
  | '"' :: r => quotedText .refused .replaceFirst none [] r
  | r => unexpected r

/-- Digits without superfluous zeros in front. -/
def isWhole : List Char → Bool
  | [] => false
  | ['0'] => true
  | '0' :: _ => false
  | ds => ds.all Char.isDigit

/-- A number spelled without plus sign, superfluous zeros or a point at either end, and not too
large for double precision. -/
def strictNumber : Reader Decimal := fun input =>
  let run := input.takeWhile isNumberChar
  match decimal? run with
  | some d =>
    if run.head? != some '+' && isWhole d.whole && pointsFollowed run && !d.reaches doubleLimit
    then .ok (d, input.dropWhile isNumberChar)
    else .error .badNumber
  | none => .error .badNumber

mutual

/-- Reads a document. At most `room` brackets may be open inside it at once. -/
def strictValue : (bound room : Nat) → Reader Value
  | 0, _, _ => .error .endOfText
  | bound + 1, room, input =>
    match skipBlanks input with
    | '"' :: r => do
      let (s, r) ← strictText ('"' :: r)
      return (.text s, r)
    | 'n' :: r => do return (.null, ← expect ['u', 'l', 'l'] r)
    | 't' :: r => do return (.bool true, ← expect ['r', 'u', 'e'] r)
    | 'f' :: r => do return (.bool false, ← expect ['a', 'l', 's', 'e'] r)
    | '[' :: r =>
      if room = 0 then .error .nestingTooDeep
      else
        match skipBlanks r with
        | ']' :: r => .ok (.list [], r)
        | r => strictItems bound (room - 1) [] r
    | '{' :: r =>
      if room = 0 then .error .nestingTooDeep
      else
        match skipBlanks r with
        | '}' :: r => .ok (.object [], r)
        | r => strictMembers bound (room - 1) [] r
    | r => do
      let (d, r) ← strictNumber r
      return (.number d, r)

/-- Reads the items of a list and its closing bracket. -/
def strictItems : (bound room : Nat) → (acc : List Value) → Reader Value
  | 0, _, _, _ => .error .endOfText
  | bound + 1, room, acc, input => do
    let (v, r) ← strictValue bound room input
    match skipBlanks r with
    | ',' :: r => strictItems bound room (v :: acc) r
    | ']' :: r => return (.list (v :: acc).reverse, r)
    | r => unexpected r

/-- Reads the members of an object and its closing bracket. -/
def strictMembers : (bound room : Nat) → (acc : List (String × Value)) → Reader Value
  | 0, _, _, _ => .error .endOfText
  | bound + 1, room, acc, input => do
    let (k, r) ← strictText input
    let (v, r) ← strictValue bound room (← sign ':' r)
    match skipBlanks r with
    | ',' :: r => strictMembers bound room ((k, v) :: acc) r
    | '}' :: r => return (.object ((k, v) :: acc).reverse, r)
    | r => unexpected r

end

/-- Reads a text that is one document and nothing else. -/
def parse (s : String) : Except Fault Value := do
  let input := s.toList
  let (v, r) ← strictValue (input.length + 1) maxNesting input
  match skipBlanks r with
  | [] => return v
  | r => unexpected r

end KpiReport.Json
