import KpiReport.Json.Literal
import KpiReport.Number.Double
import KpiReport.Number.Integer

/-!
# Plain scalars

A scalar without quotes has the type that its spelling suggests: no value, a truth value, a number,
a point in time, or else a text. A tag in front of it can ask for a type; then the spelling has to
suggest the same one.
-/

namespace KpiReport.Yaml

/-- What a plain scalar stands for. Of a point in time it matters only that it is one. -/
inductive Plain where
  | null
  | bool (b : Bool)
  | int (n : Int)
  | float (x : Double)
  | time
  | text
deriving Repr, Inhabited

namespace Plain

/-- The words that stand for something else than text. -/
def word? (s : String) : Option Plain :=
  match s with
  | "true" | "True" | "TRUE" => some (.bool true)
  | "false" | "False" | "FALSE" => some (.bool false)
  | "" | "~" | "null" | "Null" | "NULL" => some .null
  | ".nan" | ".NaN" | ".NAN" => some (.float .nan)
  | ".inf" | ".Inf" | ".INF" | "+.inf" | "+.Inf" | "+.INF" => some (.float (.infinity false))
  | "-.inf" | "-.Inf" | "-.INF" => some (.float (.infinity true))
  | _ => none

/-- A decimal number that is not too large. -/
def float? (cs : List Char) : Option Plain :=
  (Json.decimal? cs).bind fun d =>
    if d.reaches Json.doubleLimit then none
    else some (.float (.ofDecimal d.negative d.mantissa d.scale))

/-- A whole number that fits into 64 bits, signed or not. -/
def int? (cs : List Char) : Option Plain :=
  match Integer.general? cs with
  | some n =>
    if Integer.isWord n || (0 ≤ n && n < Integer.wordCount && cs.head? != some '+') then some (.int n)
    else none
  | none => none

/-- One or two digits, as a number, and what follows. -/
def shortNumber? : List Char → Option (Nat × List Char)
  | a :: b :: r =>
    if !a.isDigit then none
    else if b.isDigit then some ((a.toNat - 48) * 10 + (b.toNat - 48), r)
    else some (a.toNat - 48, b :: r)
  | [a] => if a.isDigit then some (a.toNat - 48, []) else none
  | [] => none

/-- The days of a month. -/
def daysIn (year month : Nat) : Nat :=
  match month with
  | 2 => if year % 4 = 0 ∧ (year % 100 ≠ 0 ∨ year % 400 = 0) then 29 else 28
  | 4 | 6 | 9 | 11 => 30
  | _ => 31

/-- A date with four digits for the year, and what follows. -/
def date? (cs : List Char) : Option (List Char) := do
  let year ← Integer.digits? 10 (cs.take 4)
  guard ((cs.take 4).length = 4)
  let '-' :: r := cs.drop 4 | none
  let (month, r) ← shortNumber? r
  let '-' :: r := r | none
  let (day, r) ← shortNumber? r
  guard (1 ≤ month ∧ month ≤ 12 ∧ 1 ≤ day ∧ day ≤ daysIn year month)
  return r

/-- A time of the day with an optional fraction of a second, and what follows. -/
def clock? (cs : List Char) : Option (List Char) := do
  let (hour, r) ← shortNumber? cs
  let ':' :: r := r | none
  let (minute, r) ← shortNumber? r
  let ':' :: r := r | none
  let (second, r) ← shortNumber? r
  guard (hour < 24 ∧ minute < 60 ∧ second < 60)
  match r with
  | '.' :: f =>
    guard ((f.head?.map Char.isDigit).getD false)
    return f.dropWhile Char.isDigit
  | r => return r

/-- An offset from universal time. -/
def isZone : List Char → Bool
  | ['Z'] => true
  | [s, a, b, ':', c, d] => (s == '+' || s == '-') && [a, b, c, d].all Char.isDigit
  | _ => false

/-- A date, alone or with a time of the day. -/
def isTime (cs : List Char) : Bool :=
  match date? cs with
  | some [] => true
  | some (c :: r) =>
    match clock? r with
    | some rest => if c == 'T' || c == 't' then isZone rest else c == ' ' && rest.isEmpty
    | none => false
  | none => false

/-- The value of a plain scalar. -/
def ofText (s : String) : Plain :=
  match word? s with
  | some v => v
  | none =>
    match s.toList with
    | [] => .null
    | c :: r =>
      if c = '.' then (float? (c :: r)).getD .text
      else if c.isDigit || c == '+' || c == '-' then
        if isTime (c :: r) then .time
        else
          let cs := (c :: r).filter (· != '_')
          ((int? cs).orElse fun _ => float? cs).getD .text
      else .text

/-- Words that older documents use for truth values. -/
def isAnswer (s : String) : Bool :=
  ["y", "Y", "yes", "Yes", "YES", "on", "On", "ON",
    "n", "N", "no", "No", "NO", "off", "Off", "OFF"].contains s

/-- The type that a tag asks for is the one that the spelling suggests; a whole number is also good
for a fraction. Tags without a type ask for nothing. -/
def fits (tag : String) (v : Plain) : Bool :=
  match tag, v with
  | "!!null", .null | "!!bool", .bool _ | "!!int", .int _ | "!!timestamp", .time => true
  | "!!float", .float _ | "!!float", .int _ => true
  | "!!null", _ | "!!bool", _ | "!!int", _ | "!!timestamp", _ | "!!float", _ => false
  | _, _ => true

end Plain

end KpiReport.Yaml
