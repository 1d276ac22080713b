import KpiReport.Definitions.Basic
import KpiReport.Yaml.Node
import KpiReport.Yaml.Plain

/-!
# Definitions in YAML

Definitions are written as a YAML mapping. Every scalar is a text in its own spelling, except that
a missing value is an empty text, list or table. Unknown keys and repeated keys are refused, and so
are scalars that are not of the type that their tag asks for.
-/

namespace KpiReport

/-- Why a YAML text holds no definitions. -/
inductive LoadFault where
  | malformed (f : Yaml.Fault)
  | notText
  | mistyped
  | notList
  | notMapping
  | repeatedKey (key : String)
  | unknownKey (key : String)
deriving DecidableEq, Repr, Inhabited

namespace Yaml.Node

/-- The text of a scalar, empty for no value. -/
def asText (n : Node) : Except LoadFault String :=
  match n with
  | .scalar tag _ text =>
    if (Plain.ofText text).fits tag || (tag == "!!bool" && Plain.isAnswer text) then
      .ok (if n.isNull then "" else text)
    else .error .mistyped
  | _ => .error .notText

/-- The items of a list of texts; none for no value. -/
def asTexts (n : Node) : Except LoadFault (Option (List String)) :=
  match n with
  | .sequence _ items => do return some (← items.mapM asText)
  | _ => if n.isNull then .ok none else .error .notList

/-- The entries of a mapping, those of merged mappings in the place of the merge. Each list of
entries keeps apart what was written in one mapping, since keys may only repeat across mappings. -/
def mergedEntries :
    Nat → List (Node × Node) → Except LoadFault (List (Node × Node) × List (Node × Node))
  | 0, _ => .error .notMapping
  | _, [] => .ok ([], [])
  | fuel + 1, (k, v) :: es => do
    let (own, all) ← mergedEntries fuel es
    if isMergeKey k then
      let merged ← match v with
        | .mapping _ inner => pure (← mergedEntries fuel inner).2
        | .sequence _ items => do
          let lists ← items.reverse.mapM fun
            | .mapping _ inner => do return (← mergedEntries fuel inner).2
            | _ => throw .notMapping
          pure lists.flatten
        | _ => throw .notMapping
      return (own, merged ++ all)
    else return ((k, v) :: own, (k, v) :: all)

/-- The entries of a mapping under their keys, merges included; none for no value. -/
def asEntries (n : Node) : Except LoadFault (Option (List (String × Node))) :=
  match n with
  | .mapping _ entries => do
    let (own, all) ← mergedEntries (n.weight + 1) entries
    let keys ← own.mapM fun p => asText p.1
    match firstRepeated keys with
    | some k => throw (.repeatedKey k)
    | none => return some (← all.mapM fun p => do return (← asText p.1, p.2))
  | _ => if n.isNull then .ok none else .error .notMapping
where
  /-- The first key that stands in front of an equal one. -/
  firstRepeated : List String → Option String
    | [] => none
    | k :: ks => if ks.contains k then some k else firstRepeated ks

end Yaml.Node

namespace Definitions

open Yaml (Node)

/-- A measure: its aggregation. -/
def kpiOfYaml (n : Node) : Except LoadFault String := do
  ((← n.asEntries).getD []).foldlM (fun _ e =>
    match e.1 with
    | "aggregation" => e.2.asText
    | key => throw (.unknownKey key)) ""

/-- A mapping: its column and its formula. -/
def mappingOfYaml (n : Node) : Except LoadFault MappingDef := do
  ((← n.asEntries).getD []).foldlM (fun m e =>
    match e.1 with
    | "column" => do return { m with column := ← e.2.asText }
    | "formula" => do return { m with formula := ← e.2.asText }
    | key => throw (.unknownKey key)) ⟨"", ""⟩

/-- A table of things under their names; none for no value. -/
def tableOfYaml {α : Type} (item : Node → Except LoadFault α) (n : Node) :
    Except LoadFault (Option (Table α)) := do
  match ← n.asEntries with
  | none => return none
  | some es =>
    let t ← es.foldlM (fun (t : Table α) e => do
      if t.contains e.1 then throw (.repeatedKey e.1)
      return t.insert e.1 (← item e.2)) Table.empty
    return some t

/-- One part of the definitions. -/
def addPart (d : Definitions) (key : String) (n : Node) : Except LoadFault Definitions :=
  match key with
  | "kpis" => do return { d with kpis := ← tableOfYaml kpiOfYaml n }
  | "mappings" => do return { d with mappings := ← tableOfYaml mappingOfYaml n }
  | "dimensions" => do return { d with dimensions := ← n.asTexts }
  | "columns" => do return { d with columns := ← n.asTexts }
  | "tables" => do return { d with tables := ← n.asTexts }
  | "dialect" => do return { d with dialect := ← n.asText }
  | key => .error (.unknownKey key)

/-- The definitions in a YAML text. An empty text defines nothing. -/
def ofYaml (text : String) : Except LoadFault Definitions := do
  match ← (Yaml.parse text).mapError LoadFault.malformed with
  | none => return .empty
  | some n => ((← n.asEntries).getD []).foldlM (fun d e => d.addPart e.1 e.2) .empty

end Definitions

end KpiReport
