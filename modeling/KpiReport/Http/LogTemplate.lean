/-!
# Templates of request logs

A template is text with fields in double braces, each a dot and a name. A dash beside the braces
takes away the white space next to them, and a comment between them leaves nothing behind.

A field that does not exist is shown as such. Fields have no parts: asking for a part of one makes
the template fail when it is filled in, and so does giving a field arguments.

This is the part of the template language that a log line needs. Its other actions are not known
here: pipelines, conditions, loops, calls of functions, constants and variables. `parse?` reads no
template in which one of them stands, well-formed or not, and such a template is treated like one
that is not a template at all: the `fallback` takes its place.
-/

namespace KpiReport.Http

/-- A piece of a template. -/
inductive Segment where
  | text (s : List Char)
  /-- A field, the parts asked for of it, and whether it is given arguments. -/
  | field (name : List Char) (parts : List (List Char)) (arguments : Bool)
deriving DecidableEq, Repr

/-- A template. -/
abbrev LogTemplate := List Segment

namespace LogTemplate

/-- White space beside and between braces. -/
def isSpace (c : Char) : Bool :=
  c == ' ' || c == '\t' || c == '\r' || c == '\n'

/-- A character of a field's name. -/
def isNameChar (c : Char) : Bool :=
  c == '_' || c.isAlphanum || 0x80 ≤ c.toNat

/-- Text without the white space at its end. -/
def trimEnd (s : List Char) : List Char :=
  (s.reverse.dropWhile isSpace).reverse

/-- The text in front of the first occurrence of two characters, and what follows them. -/
def splitAt2? (a b : Char) : (acc input : List Char) → Option (List Char × List Char)
  | acc, x :: y :: r =>
    if x = a ∧ y = b then some (acc.reverse, r) else splitAt2? a b (x :: acc) (y :: r)
  | _, _ => none

/-- A chain of names, each after a dot. -/
def chain? : (fuel : Nat) → List Char → Option (List (List Char))
  | _, [] => some []
  | fuel + 1, '.' :: r =>
    let name := r.takeWhile isNameChar
    if name.isEmpty then none
    else (chain? fuel (r.dropWhile isNameChar)).map (name :: ·)
  | _, _ => none

/-- The words between white space. -/
def words : (acc input : List Char) → List (List Char)
  | acc, [] => if acc.isEmpty then [] else [acc.reverse]
  | acc, c :: r =>
    if isSpace c then (if acc.isEmpty then words [] r else acc.reverse :: words [] r)
    else words (c :: acc) r

/-- What stands between braces: a field, followed by fields if it is given arguments. Any other
action is none that is known here. -/
def field? (inside : List Char) : Option Segment :=
  match words [] inside with
  | [] => none
  | w :: ws =>
    if ws.all fun a => (chain? a.length a).any (!·.isEmpty) then
      match chain? w.length w with
      | some (name :: parts) => some (.field name parts (!ws.isEmpty))
      | _ => none
    else none

/-- A comment: its text ends where the braces end. -/
def isComment (inside : List Char) : Bool :=
  match inside with
  | '/' :: '*' :: r =>
    match splitAt2? '*' '/' [] r with
    | some (_, []) => true
    | _ => false
  | _ => false

/-- Text, unless it is empty. -/
def textSegment (s : List Char) : LogTemplate :=
  if s.isEmpty then [] else [.text s]

/-- Reads a template. `trim` tells that white space in front belongs to the braces before it. -/
def parseFrom : (fuel : Nat) → (trim : Bool) → List Char → Option LogTemplate
  | 0, _, _ => none
  | fuel + 1, trim, input =>
    match splitAt2? '{' '{' [] input with
    | none => some (textSegment (if trim then input.dropWhile isSpace else input))
    | some (before, r) =>
      let before := if trim then before.dropWhile isSpace else before
      let (before, r) := match r with
        | '-' :: c :: r => if isSpace c then (trimEnd before, c :: r) else (before, '-' :: c :: r)
        | r => (before, r)
      match splitAt2? '}' '}' [] r with
      | none => none
      | some (inside, rest) =>
        let (inside, trimNext) := match inside.reverse with
          | '-' :: c :: s => if isSpace c then ((c :: s).reverse, true) else (inside, false)
          | _ => (inside, false)
        let segment :=
          if isComment (inside.dropWhile isSpace |> trimEnd) then some []
          else (field? inside).map ([·])
        match segment, parseFrom fuel trimNext rest with
        | some s, some t => some (textSegment before ++ s ++ t)
        | _, _ => none

/-- Reads a template of text, fields and comments; none if it is not one, which includes templates
with other actions of the template language. -/
def parse? (s : String) : Option LogTemplate :=
  parseFrom (s.length + 1) false s.toList

/-- Fills in a piece. -/
def renderSegment (fields : String → Option String) : Segment → Option String
  | .text s => some (String.ofList s)
  | .field name parts arguments =>
    match fields (String.ofList name), parts with
    | some v, [] => if arguments then none else some v
    | some _, _ :: _ => none
    | none, [] => if arguments then none else some "<no value>"
    | none, _ :: _ => some "<no value>"

/-- Fills in a template; none if it asks for what cannot be given. -/
def render (t : LogTemplate) (fields : String → Option String) : Option String :=
  (t.mapM (renderSegment fields)).map String.join

/-- The template that takes the place of one that cannot be read: status, method and target. -/
def fallback : LogTemplate :=
  [.text ['['], .field "status".toList [] false, .text [']', ' '],
    .field "method".toList [] false, .text [' '], .field "url".toList [] false]

end LogTemplate

end KpiReport.Http
