import KpiReport.Json.Value
import KpiReport.Text.Lower
import KpiReport.Yaml.Node
import KpiReport.Yaml.Plain

/-!
# Values in a configuration file

A configuration file is a tree of values under names. The names are compared without regard to
case, so they are kept in lower case. In JSON every number is one in double precision.
-/

namespace KpiReport

/-- A value in a configuration file. Of lists and points in time it matters only that they are
such. -/
inductive ConfigValue where
  | null
  | bool (b : Bool)
  | int (n : Int)
  | float (x : Double)
  | text (s : String)
  | time
  | list
  | table (entries : List (String × ConfigValue))
deriving Repr, Inhabited

namespace ConfigValue

/-! ## From YAML -/

/-- Why a YAML document holds no configuration. -/
inductive Fault where
  | malformed (f : Yaml.Fault)
  | mistyped
  | badKey
  | repeatedKey
  | badMerge
deriving DecidableEq, Repr, Inhabited

/-- The value of a plain scalar. -/
def ofPlain (s : String) : ConfigValue :=
  match Yaml.Plain.ofText s with
  | .null => .null
  | .bool b => .bool b
  | .int n => .int n
  | .float x => .float x
  | .time => .time
  | .text => .text s

/-- The value of a scalar with its tag. -/
def ofScalar (tag : String) (plain : Bool) (s : String) : Except Fault ConfigValue :=
  match tag with
  | "" | "!" => .ok (if plain then ofPlain s else .text s)
  | "!!null" | "!!bool" | "!!int" | "!!float" | "!!timestamp" =>
    if !(Yaml.Plain.ofText s).fits tag then .error .mistyped
    else
      match tag, ofPlain s with
      | "!!float", .int n => .ok (.float (.ofDecimal (n < 0) n.natAbs 0))
      | _, v => .ok v
  | _ => .ok (.text s)

/-- The spelling of a scalar, empty for anything else. -/
def spelling : Yaml.Node → String
  | .scalar _ _ s => s
  | _ => ""

/-- Adds entries under keys that are not there yet. -/
def addMissing (own more : List (String × ConfigValue)) : List (String × ConfigValue) :=
  more.foldl (fun es e => if (es.lookup e.1).isSome then es else es ++ [e]) own

/-- Two keys of one mapping are spelled alike. -/
def hasRepeated : List String → Bool
  | [] => false
  | k :: ks => ks.contains k || hasRepeated ks

mutual

/-- The value of a YAML node. -/
def ofNode : Nat → Yaml.Node → Except Fault ConfigValue
  | 0, _ => .error .badMerge
  | _, .scalar tag plain s => ofScalar tag plain s
  | fuel + 1, .sequence _ items => do
    checkAll fuel items
    return .list
  | fuel + 1, .mapping _ entries => do
    return .table (← ofEntries fuel entries)

/-- Checks the items of a list, which are not used. -/
def checkAll : Nat → List Yaml.Node → Except Fault Unit
  | 0, _ => .error .badMerge
  | _, [] => .ok ()
  | fuel + 1, n :: ns => do
    let _ ← ofNode fuel n
    checkAll fuel ns

/-- The entries of a mapping. Entries of merged mappings come after its own. -/
def ofEntries : Nat → List (Yaml.Node × Yaml.Node) → Except Fault (List (String × ConfigValue))
  | 0, _ => .error .badMerge
  | fuel + 1, entries => do
    if hasRepeated (entries.map fun e => spelling e.1) then throw .repeatedKey
    let own ← ofOwn fuel (entries.filter fun e => !e.1.isMergeKey)
    let merged : Option Yaml.Node := (entries.find? fun e => e.1.isMergeKey).map (·.2)
    match merged with
    | none => return own
    | some (.mapping _ inner) => return addMissing own (← ofEntries fuel inner)
    | some (.sequence _ items) => return addMissing own (← ofMerged fuel items)
    | some _ => throw .badMerge

/-- The entries that a mapping has itself. -/
def ofOwn : Nat → List (Yaml.Node × Yaml.Node) → Except Fault (List (String × ConfigValue))
  | 0, _ => .error .badMerge
  | _, [] => .ok []
  | fuel + 1, (k, v) :: es => do
    let v ← ofNode fuel v
    match k with
    | .scalar .. => return (Text.lower (spelling k), v) :: (← ofOwn fuel es)
    | _ => throw .badKey

/-- The entries of several merged mappings; the first one that has a key decides its value. -/
def ofMerged : Nat → List Yaml.Node → Except Fault (List (String × ConfigValue))
  | 0, _ => .error .badMerge
  | _, [] => .ok []
  | fuel + 1, .mapping _ inner :: ns => do
    return addMissing (← ofEntries fuel inner) (← ofMerged fuel ns)
  | _, _ :: _ => .error .badMerge

end

/-- The entries of a YAML text. -/
def ofYaml (s : String) : Except Fault (List (String × ConfigValue)) := do
  match ← (Yaml.parse s).mapError Fault.malformed with
  | none => return []
  | some n =>
    match ← ofNode (3 * n.weight + 3) n with
    | .table es => return es
    | .null => return []
    | _ => throw .badKey

/-! ## From JSON -/

mutual

/-- The value of a JSON document. -/
def ofDocument : Json.Value → ConfigValue
  | .null => .null
  | .bool b => .bool b
  | .number d => .float (.ofDecimal d.negative d.mantissa d.scale)
  | .text s => .text s
  | .list _ => .list
  | .object ms => .table (ofMembers ms)

/-- The values of the members of an object; of equal names the last one counts. -/
def ofMembers : List (String × Json.Value) → List (String × ConfigValue)
  | [] => []
  | (k, v) :: ms =>
    let rest := ofMembers ms
    let k := Text.lower k
    if (rest.lookup k).isSome then rest else (k, ofDocument v) :: rest

end

/-- The entries of a JSON text; none if it is not an object. -/
def ofJson? (s : String) : Option (List (String × ConfigValue)) :=
  match Json.parse s with
  | .ok (.object ms) => some (ofMembers ms)
  | .ok .null => some []
  | _ => none

end ConfigValue

end KpiReport
