import KpiReport.Path
import KpiReport.Text.Quoted

/-!
# Request targets

What a request asks for: a path with an optional query, possibly on a named host. The path is kept
both as it was written and as the bytes it stands for, because two spellings of one path are the
same to the router but are logged differently.
-/

namespace KpiReport.Http

/-- The target of a request. -/
structure Url where
  scheme : String
  host : String
  /-- The path as it was written. -/
  written : List UInt8
  /-- The bytes of the path, escapes resolved. -/
  path : List UInt8
  query : Option String
deriving DecidableEq, Repr, Inhabited

namespace Url

/-- The bytes of a text. -/
def bytesOf (s : String) : List UInt8 := s.toUTF8.toList

/-- The bytes are those of the text. -/
def spells (bytes : List UInt8) (s : String) : Bool := bytes == bytesOf s

/-- The value of a hexadecimal digit. -/
def hexValue? (b : UInt8) : Option UInt8 :=
  if 48 ≤ b ∧ b ≤ 57 then some (b - 48)
  else if 97 ≤ b ∧ b ≤ 102 then some (b - 87)
  else if 65 ≤ b ∧ b ≤ 70 then some (b - 55)
  else none

/-- Resolves escapes. A percent sign that starts none stands for itself. -/
def decode : List UInt8 → List UInt8
  | 37 :: a :: b :: r =>
    match hexValue? a, hexValue? b with
    | some x, some y => (x * 16 + y) :: decode r
    | _, _ => 37 :: decode (a :: b :: r)
  | c :: r => c :: decode r
  | [] => []

/-- A letter or a digit. -/
def isAlphanumeric (b : UInt8) : Bool :=
  (48 ≤ b && b ≤ 57) || (65 ≤ b && b ≤ 90) || (97 ≤ b && b ≤ 122)

/-- A byte that is written as it is when a path is escaped. -/
def staysPlain (b : UInt8) : Bool :=
  isAlphanumeric b || (bytesOf "-_.~$&+,/:;=@").contains b

/-- A byte that may stand in a written path; an escape is taken to be one. -/
def mayStand (b : UInt8) : Bool :=
  staysPlain b || (bytesOf "!'()*[]%").contains b

/-- The hexadecimal digits of a byte, in upper case. -/
def upperHex (b : UInt8) : List UInt8 :=
  let digit (n : UInt8) : UInt8 := if n < 10 then 48 + n else 55 + n
  [digit (b / 16), digit (b % 16)]

/-- Escapes a path. -/
def encode (bytes : List UInt8) : List UInt8 :=
  bytes.flatMap fun b => if staysPlain b then [b] else 37 :: upperHex b

/-- The path as it is shown: as written, where that is a proper spelling of it, else escaped. -/
def shownPath (u : Url) : List UInt8 :=
  if u.written.all mayStand && decode u.written == u.path then u.written else encode u.path

/-- The text of bytes. A byte that belongs to no character is replaced. -/
def textOf : (fuel : Nat) → List UInt8 → List Char
  | 0, _ => []
  | _, [] => []
  | fuel + 1, b :: r =>
    let candidate (n : Nat) : Option Char :=
      ((String.fromUTF8? ⟨((b :: r).take n).toArray⟩).map String.toList).bind fun
        | [c] => some c
        | _ => none
    match [1, 2, 3, 4].find? fun n => (candidate n).isSome with
    | some n => (candidate n).getD ' ' :: textOf fuel ((b :: r).drop n)
    | none => Char.ofNat 0xfffd :: textOf fuel r

/-- The text of bytes. -/
def showBytes (bytes : List UInt8) : String :=
  String.ofList (textOf bytes.length bytes)

/-- The decoded path as text. -/
def pathText (u : Url) : String := showBytes u.path

/-- The target as text. -/
def toText (u : Url) : String :=
  let origin := if u.scheme = "" && u.host = "" then "" else u.scheme ++ "://" ++ u.host
  let query := match u.query with
    | some q => "?" ++ q
    | none => ""
  origin ++ showBytes u.shownPath ++ query

/-- The scheme of an absolute target, and what follows its colon. -/
def splitScheme (cs : List Char) : Option (String × List Char) :=
  let scheme := cs.takeWhile fun c => c.isAlphanum || c == '+' || c == '-' || c == '.'
  match cs.dropWhile fun c => c.isAlphanum || c == '+' || c == '-' || c == '.' with
  | ':' :: r =>
    if (scheme.head?.map Char.isAlpha).getD false then
      some (String.ofList (scheme.map Char.toLower), r)
    else none
  | _ => none

/-- Reads a target. All that follows the first question mark is the query. -/
def parse (s : String) : Url :=
  let (scheme, rest) := (splitScheme s.toList).getD ("", s.toList)
  let body := rest.takeWhile (· != '?')
  let query := match rest.dropWhile (· != '?') with
    | _ :: q => some (String.ofList q)
    | [] => none
  let (host, path) := match scheme, body with
    | "", p => ("", p)
    | _, '/' :: '/' :: r => (String.ofList (r.takeWhile (· != '/')), r.dropWhile (· != '/'))
    | _, p => ("", p)
  let written := bytesOf (String.ofList path)
  ⟨scheme, host, written, decode written, query⟩

/-! ## Clean paths -/

/-- The shortest path that leads to the same place, taken from the root. A slash at the end is
kept. -/
def clean (path : List UInt8) : List UInt8 :=
  let short := Path.clean 47 46 true path
  if path.getLast? = some 47 && short != [47] then short ++ [47] else short

end Url

end KpiReport.Http
