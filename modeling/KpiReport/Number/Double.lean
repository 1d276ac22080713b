/-!
# Numbers in double precision

A decimal number is kept as the nearest number `m * 2 ^ q` with a mantissa of at most 53 bits, a
half going to the even mantissa. Such a number is written with the fewest digits that still read
back as the same number.
-/

namespace KpiReport

/-- A number in double precision. -/
inductive Double where
  /-- The number `mantissa * 2 ^ exponent`, with its sign. -/
  | finite (negative : Bool) (mantissa : Nat) (exponent : Int)
  | infinity (negative : Bool)
  | nan
deriving DecidableEq, Repr, Inhabited

namespace Double

/-- The least exponent. -/
def minExponent : Int := -1074

/-- Mantissas are below this number, which is the fifty-third power of two. -/
def mantissaLimit : Nat := 0x20000000000000

/-- A power; one if the exponent is negative. -/
def power (base : Nat) (e : Int) : Nat := Nat.pow base e.toNat

/-- The quotient of two numbers, rounded to the nearest whole number, a half going to the even
one. -/
def roundDiv (n d : Nat) : Nat :=
  let q := n / d
  let r := n % d
  if 2 * r < d then q
  else if d < 2 * r then q + 1
  else if q % 2 = 0 then q else q + 1

/-- The quotient `n / (d * 2 ^ q)`, rounded. -/
def scaledDiv (n d : Nat) (q : Int) : Nat :=
  roundDiv (n * power 2 (-q)) (d * power 2 q)

/-- The exponent with which the mantissa of `n / d` has 53 bits. -/
def exponentOf (n d : Nat) : Int :=
  let q : Int := (n.log2 : Int) - d.log2 - 53
  let big := d * power 2 q * mantissaLimit ≤ n * power 2 (-q)
  let q := if big then q + 1 else q
  max q minExponent

/-- The number nearest to `n / d`. -/
def ofRatio (negative : Bool) (n d : Nat) : Double :=
  if n = 0 then .finite negative 0 0
  else
    let q := exponentOf n d
    let m := scaledDiv n d q
    if m = mantissaLimit then .finite negative (m / 2) (q + 1) else .finite negative m q

/-- The number nearest to `m * 10 ^ e`. What is too small for any exponent is zero. -/
def ofDecimal (negative : Bool) (m : Nat) (e : Int) : Double :=
  if ((Nat.toDigits 10 m).length : Int) + e < -400 then .finite negative 0 0
  else ofRatio negative (m * power 10 e) (power 10 (-e))

/-- The number is zero. -/
def isZero : Double → Bool
  | finite _ m _ => m = 0
  | _ => false

/-- The whole part, none for what is no number. -/
def truncate? : Double → Option Int
  | finite negative m q =>
    let n := m * power 2 q / power 2 (-q)
    some (if negative then -(n : Int) else n)
  | _ => none

/-! ## Shortest digits -/

/-- The place of the first digit of `n / d`: the power of ten below it. -/
def firstPlace (n d : Nat) : Int :=
  if d ≤ n then ((Nat.toDigits 10 (n / d)).length : Int) - 1
  else -(search 1 (n * 10) 400)
where
  /-- The number of places that the first digit stands behind the point. -/
  search (place scaled : Nat) : Nat → Nat
    | 0 => place
    | fuel + 1 => if d ≤ scaled then place else search (place + 1) (scaled * 10) fuel

/-- What reads back as one number: all from `lo` to `hi`, the ends included or not, around `mid`,
all over one denominator. -/
structure Interval where
  lo : Nat
  mid : Nat
  hi : Nat
  den : Nat
  closed : Bool

/-- What reads back as `m * 2 ^ q`. -/
def interval (m : Nat) (q : Int) : Interval :=
  let scale := power 2 (q - 2)
  let below := if 2 * m = mantissaLimit ∧ minExponent < q then 1 else 2
  ⟨(4 * m - below) * scale, 4 * m * scale, (4 * m + 2) * scale, power 2 (2 - q), m % 2 = 0⟩

/-- The number `c * 10 ^ s` lies in the interval. -/
def Interval.contains (i : Interval) (c : Nat) (s : Int) : Bool :=
  let x := c * power 10 s * i.den
  let f := power 10 (-s)
  if i.closed then decide (i.lo * f ≤ x) && decide (x ≤ i.hi * f)
  else decide (i.lo * f < x) && decide (x < i.hi * f)

/-- The best multiple of `10 ^ s` in the interval, if there is one: of the two around the middle
the nearer one. -/
def Interval.pick? (i : Interval) (s : Int) : Option Nat :=
  let n := i.mid * power 10 (-s)
  let d := i.den * power 10 s
  let c := n / d
  match i.contains c s, i.contains (c + 1) s with
  | true, true => some (if 2 * (n % d) ≤ d then c else c + 1)
  | true, false => some c
  | false, true => some (c + 1)
  | false, false => none

/-- Looks for the fewest digits, from `count` digits on. -/
def Interval.shortest (i : Interval) (place : Int) : (count fuel : Nat) → Nat × Int
  | _, 0 => (0, 0)
  | count, fuel + 1 =>
    let s := place - count + 1
    match i.pick? s with
    | some c => (c, s)
    | none => i.shortest place (count + 1) fuel

/-- The number `c * 10 ^ s` written without exponent. -/
def positional (c : Nat) (s : Int) : List Char :=
  let ds := Nat.toDigits 10 c
  if 0 ≤ s then ds ++ List.replicate s.toNat '0'
  else
    let places := (-s).toNat
    let ds := List.replicate (places + 1 - ds.length) '0' ++ ds
    let fraction := (ds.drop (ds.length - places)).reverse.dropWhile (· == '0') |>.reverse
    let whole := ds.take (ds.length - places)
    if fraction.isEmpty then whole else whole ++ '.' :: fraction

/-- The text of a number: the fewest digits that read back as it, without exponent. -/
def toText : Double → String
  | finite negative m q =>
    let digits :=
      if m = 0 then ['0']
      else
        let i := interval m q
        let (c, s) := i.shortest (firstPlace i.mid i.den) 1 18
        positional c s
    String.ofList (if negative then '-' :: digits else digits)
  | infinity negative => if negative then "-Inf" else "+Inf"
  | nan => "NaN"

end Double

end KpiReport
