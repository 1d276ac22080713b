/-!
# Whole numbers in text

Two ways of writing a whole number. The plain one is an optional sign and decimal digits. The
general one also knows prefixes for other bases, a leading zero meaning octal, and underscores
between digits.
-/

namespace KpiReport.Integer

/-- The value of a digit of a base up to sixteen. -/
def digit? (base : Nat) (c : Char) : Option Nat :=
  let v :=
    if c.isDigit then c.toNat - 48
    else if 'a' ≤ c ∧ c ≤ 'f' then c.toNat - 87
    else if 'A' ≤ c ∧ c ≤ 'F' then c.toNat - 55
    else 16
  if v < base then some v else none

/-- The value of digits, none if there is anything else. -/
def digits? (base : Nat) (cs : List Char) : Option Nat :=
  cs.foldlM (fun n c => (digit? base c).map (n * base + ·)) 0

/-- The sign of a number and what follows it. -/
def splitSign : List Char → Bool × List Char
  | '-' :: r => (true, r)
  | '+' :: r => (false, r)
  | r => (false, r)

/-- The base of a number and its digits. -/
def splitBase : List Char → Nat × List Char
  | '0' :: p :: c :: r =>
    match p.toLower with
    | 'x' => (16, c :: r)
    | 'o' => (8, c :: r)
    | 'b' => (2, c :: r)
    | _ => (8, p :: c :: r)
  | '0' :: r => (8, r)
  | r => (10, r)

/-- Every underscore stands between two digits, or between a prefix and a digit. `after` tells
that a digit or a prefix stands in front. -/
def underscoresFit (after : Bool) : List Char → Bool
  | [] => true
  | ['_'] => false
  | '_' :: c :: r => after && c != '_' && underscoresFit true r
  | _ :: r => underscoresFit true r

/-- A number without sign, in the general way. -/
def natural? (cs : List Char) : Option Nat :=
  if cs.isEmpty then none
  else
    let (base, ds) := splitBase cs
    if underscoresFit (ds.length < cs.length) ds then digits? base (ds.filter (· != '_')) else none

/-- A number with an optional sign, in the general way. -/
def general? (cs : List Char) : Option Int :=
  let (negative, cs) := splitSign cs
  (natural? cs).map fun n => if negative then -(n : Int) else n

/-- The number of 64-bit words. -/
def wordCount : Nat := 0x10000000000000000

/-- The least signed 64-bit word. -/
def minWord : Int := -0x8000000000000000

/-- The number fits into a signed 64-bit word. -/
def isWord (n : Int) : Bool := minWord ≤ n && n < -minWord

/-- The signed 64-bit word that a number wraps around to. -/
def wrap (n : Int) : Int := n.bmod wordCount

/-! ## The plain way -/

/-- Why a text is no plain number. -/
inductive Fault where
  | malformed
  | outOfRange
deriving DecidableEq, Repr, Inhabited

/-- Wording of a fault. -/
def Fault.message : Fault → String
  | malformed => "invalid syntax"
  | outOfRange => "value out of range"

/-- Reads decimal digits from the left. A number that outgrows 64 bits is out of range, whatever
follows. -/
def plainDigits : (value : Nat) → List Char → Except Fault Nat
  | n, [] => .ok n
  | n, c :: r =>
    match digit? 10 c with
    | none => .error .malformed
    | some d => if n * 10 + d < wordCount then plainDigits (n * 10 + d) r else .error .outOfRange

/-- A number that fits into a signed 64-bit word: an optional sign and decimal digits. -/
def plain (s : String) : Except Fault Int := do
  let (negative, ds) := splitSign s.toList
  if ds.isEmpty then throw .malformed
  let n ← plainDigits 0 ds
  let n : Int := if negative then -(n : Int) else n
  if isWord n then return n else throw .outOfRange

end KpiReport.Integer
