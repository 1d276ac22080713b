/-!
# JSON literals

How texts and numbers are spelled in JSON. Readers differ in what they let pass: whether a raw
control character may stand in a text, and how a broken surrogate pair is mended. These decisions
are arguments here, and each reader makes its own.
-/

namespace KpiReport.Json

/-- Why a text is not the JSON that was asked for. -/
inductive Fault where
  | endOfText
  | unexpected (c : Char)
  | controlCharacter (c : Char)
  | badEscape (c : Char)
  | badNumber
  | nestingTooDeep
deriving DecidableEq, Repr, Inhabited

/-- Whether a raw control character may stand in a text. -/
inductive ControlRule where
  | allowed
  /-- Refused, but only up to the first escape of the text. -/
  | refusedBeforeEscape
  | refused
deriving DecidableEq, Repr, Inhabited

/-- What is made of two escaped surrogates that do not pair up. -/
inductive SurrogateRule where
  /-- Both are replaced. -/
  | replaceBoth
  /-- The first one is replaced, the second one may still pair up with what follows. -/
  | replaceFirst
deriving DecidableEq, Repr, Inhabited

/-- Stands for what is not a character. -/
def replacement : Char := Char.ofNat 0xfffd

/-- White space between the parts of a document. -/
def isBlank (c : Char) : Bool :=
  c == ' ' || c == '\n' || c == '\t' || c == '\r'

/-- The text from its first character that is not white space. -/
def skipBlanks : List Char → List Char
  | [] => []
  | c :: r => if isBlank c then skipBlanks r else c :: r

/-- The value of a hexadecimal digit. -/
def hexValue? (c : Char) : Option Nat :=
  if '0' ≤ c ∧ c ≤ '9' then some (c.toNat - 48)
  else if 'a' ≤ c ∧ c ≤ 'f' then some (c.toNat - 87)
  else if 'A' ≤ c ∧ c ≤ 'F' then some (c.toNat - 55)
  else none

/-- The value of four hexadecimal digits. -/
def hexValue4? (a b c d : Char) : Option Nat := do
  let a ← hexValue? a
  let b ← hexValue? b
  let c ← hexValue? c
  let d ← hexValue? d
  return ((a * 16 + b) * 16 + c) * 16 + d

/-- The number is a surrogate. -/
def isSurrogate (n : Nat) : Bool := 0xd800 ≤ n && n < 0xe000

/-- The character of an escaped number, surrogates being replaced. -/
def charOf (n : Nat) : Char :=
  if isSurrogate n then replacement else Char.ofNat n

/-- The character that two surrogates stand for, if they are a pair. -/
def pairOf? (hi lo : Nat) : Option Char :=
  if 0xd800 ≤ hi ∧ hi < 0xdc00 ∧ 0xdc00 ≤ lo ∧ lo < 0xe000 then
    some (Char.ofNat ((hi - 0xd800) * 0x400 + (lo - 0xdc00) + 0x10000))
  else none

/-- The character of a one-letter escape. -/
def escapeOf? : Char → Option Char
  | '"' => some '"'
  | '\\' => some '\\'
  | '/' => some '/'
  | 'b' => some '\x08'
  | 'f' => some '\x0c'
  | 'n' => some '\n'
  | 'r' => some '\r'
  | 't' => some '\t'
  | _ => none

/-- A surrogate that waits for its partner, written out as it stands. -/
def settle (pending : Option Nat) (acc : List Char) : List Char :=
  if pending.isSome then replacement :: acc else acc

/-- Reads a text after its opening quote, up to and with its closing one. `acc` holds what was read
in reverse, `pending` a surrogate that waits for its partner. -/
def quotedText (control : ControlRule) (surrogates : SurrogateRule) :
    (pending : Option Nat) → (acc input : List Char) → Except Fault (String × List Char)
  | pending, acc, '"' :: r => .ok (String.ofList (settle pending acc).reverse, r)
  | pending, acc, '\\' :: 'u' :: a :: b :: c :: d :: r =>
    let control := if control = .refusedBeforeEscape then .allowed else control
    match hexValue4? a b c d, pending with
    | none, _ => .error (.badEscape 'u')
    | some n, none =>
      if isSurrogate n then quotedText control surrogates (some n) acc r
      else quotedText control surrogates none (charOf n :: acc) r
    | some n, some p =>
      match pairOf? p n with
      | some x => quotedText control surrogates none (x :: acc) r
      | none =>
        if surrogates = .replaceFirst && isSurrogate n then
          quotedText control surrogates (some n) (replacement :: acc) r
        else quotedText control surrogates none (charOf n :: replacement :: acc) r
  | pending, acc, '\\' :: e :: r =>
    let control := if control = .refusedBeforeEscape then .allowed else control
    match escapeOf? e with
    | none => .error (.badEscape e)
    | some x => quotedText control surrogates none (x :: settle pending acc) r
  | pending, acc, c :: r =>
    if c.toNat < 0x20 && control != .allowed then .error (.controlCharacter c)
    else quotedText control surrogates none (c :: settle pending acc) r
  | _, _, [] => .error .endOfText

/-! ## Numbers -/

/-- A character that can stand in a number. -/
def isNumberChar (c : Char) : Bool :=
  c.isDigit || c == '+' || c == '-' || c == '.' || c == 'e' || c == 'E'

/-- A decimal number as it is written: sign, digits before and after the point, and exponent. -/
structure Decimal where
  negative : Bool
  whole : List Char
  fraction : List Char
  exponent : Int
deriving DecidableEq, Repr, Inhabited

/-- The value of a list of decimal digits. -/
def digitsValue (ds : List Char) : Nat :=
  ds.foldl (fun n c => n * 10 + (c.toNat - 48)) 0

/-- An exponent without its letter: an optional sign and at least one digit. -/
def exponent? (cs : List Char) : Option Int :=
  let (negative, ds) := match cs with
    | '-' :: r => (true, r)
    | '+' :: r => (false, r)
    | r => (false, r)
  if ds.isEmpty || !ds.all Char.isDigit then none
  else some (if negative then -(digitsValue ds : Int) else digitsValue ds)

/-- A number with an optional sign, digits that may hold a point, and an optional exponent. -/
def decimal? (cs : List Char) : Option Decimal :=
  let (negative, cs) := match cs with
    | '-' :: r => (true, r)
    | '+' :: r => (false, r)
    | r => (false, r)
  let whole := cs.takeWhile Char.isDigit
  let (fraction, rest) := match cs.dropWhile Char.isDigit with
    | '.' :: r => (r.takeWhile Char.isDigit, r.dropWhile Char.isDigit)
    | r => ([], r)
  if whole.isEmpty && fraction.isEmpty then none
  else
    match rest with
    | [] => some ⟨negative, whole, fraction, 0⟩
    | 'e' :: r | 'E' :: r => (exponent? r).map fun e => ⟨negative, whole, fraction, e⟩
    | _ => none

namespace Decimal

/-- The digits without the point. -/
def mantissa (d : Decimal) : Nat := digitsValue (d.whole ++ d.fraction)

/-- The power of ten that the mantissa is multiplied with. -/
def scale (d : Decimal) : Int := d.exponent - d.fraction.length

/-- The digits from the first one that is not zero. -/
def significant (d : Decimal) : List Char :=
  (d.whole ++ d.fraction).dropWhile (· == '0')

/-- The number is `limit` or more in size. With `n` places before the point it lies between
`8 ^ (n - 1)` and `16 ^ n`, which decides far from the limit. -/
def reaches (d : Decimal) (limit : Nat) : Bool :=
  let places := d.significant.length + d.scale
  if d.significant.isEmpty then false
  else if 4 * places ≤ Nat.log2 limit then false
  else if 3 * (places - 1) > Nat.log2 limit then true
  else limit * Nat.pow 10 (-d.scale).toNat ≤ d.mantissa * Nat.pow 10 d.scale.toNat

end Decimal

/-- Numbers from here on round to infinity in double precision. -/
def doubleLimit : Nat := Nat.pow 2 1024 - Nat.pow 2 970

/-- Numbers from here on round to infinity in single precision. -/
def singleLimit : Nat := Nat.pow 2 128 - Nat.pow 2 103

/-- Every point of a number is followed by a digit. -/
def pointsFollowed : List Char → Bool
  | '.' :: c :: r => c.isDigit && pointsFollowed (c :: r)
  | '.' :: [] => false
  | _ :: r => pointsFollowed r
  | [] => true

end KpiReport.Json
