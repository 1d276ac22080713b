import KpiReport.Sql.Binding

/-!
# Queries under construction

A sheet holds queries that are still being built and that share parts: a query may be bound, read
from or joined in several places, and a later change of it shows in all of them. Queries are known
by their number on the sheet. An expression on the sheet is a template, which becomes an
expression once the queries it mentions are known; `Sheet.query` puts a query together from what
the sheet says at that moment.
-/

namespace KpiReport.Sql

/-- The number of a query on a sheet. -/
abbrev QueryId := Nat

/-- A value that mentions queries by number. -/
abbrev Template (α : Type) := (QueryId → Query) → α

/-- A query on the sheet, bound to an alias. -/
structure DraftWith where
  name : String
  target : QueryId
deriving DecidableEq, Repr, Inhabited

/-- The binding that a draft stands for. -/
def DraftWith.bind (w : DraftWith) : Template With :=
  fun query => .mk w.name (query w.target)

/-- A query on the sheet: the parts of a select, or the members of a union. -/
inductive Draft where
  | select (withs : List DraftWith) (columns : List (Template Expr))
      (source : Option (Template Expr)) (groupBy orderBy : List (Template Expr))
  | unionAll (first : QueryId) (rest : List QueryId)

instance : Inhabited Draft := ⟨.select [] [] none [] []⟩

/-- The drafts, in the order of their numbers. -/
structure Sheet where
  drafts : Array Draft := #[]
deriving Inhabited

namespace Sheet

/-- Puts a draft on the sheet. -/
def insert (s : Sheet) (d : Draft) : Sheet × QueryId :=
  (⟨s.drafts.push d⟩, s.drafts.size)

/-- The query with a number, put together down to the given depth of nesting. -/
def queryTo (s : Sheet) : Nat → QueryId → Query
  | 0, _ => .empty
  | depth + 1, i =>
    let inner := s.queryTo depth
    match s.drafts[i]? with
    | none => .empty
    | some (.select withs columns source groupBy orderBy) =>
      .select (withs.map (·.bind inner)) (columns.map (· inner)) (source.map (· inner))
        (groupBy.map (· inner)) (orderBy.map (· inner))
    | some (.unionAll first rest) => .unionAll (inner first) (rest.map inner)

/-- A depth of nesting that no text reaches: on the way down each draft is entered at most once
with its bindings written and once without. -/
def depth (s : Sheet) : Nat :=
  2 * s.drafts.size + 2

/-- The query with a number. -/
def query (s : Sheet) (i : QueryId) : Query :=
  s.queryTo s.depth i

/-- The select that leads a draft: itself, or that of the first member of a union. -/
def leaderFrom (s : Sheet) : Nat → QueryId → QueryId
  | 0, i => i
  | fuel + 1, i =>
    match s.drafts[i]? with
    | some (.unionAll first _) => s.leaderFrom fuel first
    | _ => i

/-- The select that leads a draft. -/
def leader (s : Sheet) (i : QueryId) : QueryId :=
  s.leaderFrom s.drafts.size i

/-- Changes the select that leads a draft. -/
def modify (s : Sheet) (i : QueryId) (f : Draft → Draft) : Sheet :=
  ⟨s.drafts.modify (s.leader i) f⟩

/-- The bindings of a draft. -/
def withsOf (s : Sheet) (i : QueryId) : List DraftWith :=
  match s.drafts[s.leader i]? with
  | some (.select ws ..) => ws
  | _ => []

/-- Adds bindings in order, each after the bindings its query needs; an alias that is taken is left
out. Needs are followed down to the given depth. -/
def addWithsTo (s : Sheet) (depth : Nat) (ws : List DraftWith) :
    List DraftWith → List DraftWith
  | [] => ws
  | v :: vs =>
    if ws.any (·.name == v.name) then s.addWithsTo depth ws vs
    else
      match depth with
      | 0 => ws
      | d + 1 =>
        s.addWithsTo (d + 1) (s.addWithsTo d ws (s.withsOf v.target) ++ [v]) vs
termination_by vs => (depth, vs.length)

/-- Sets the output columns of a draft. -/
def setColumns (s : Sheet) (i : QueryId) (columns : List (Template Expr)) : Sheet :=
  s.modify i fun
    | .select ws _ src g o => .select ws columns src g o
    | d => d

/-- Sets what a draft reads from. -/
def setSource (s : Sheet) (i : QueryId) (source : Option (Template Expr)) : Sheet :=
  s.modify i fun
    | .select ws cs _ g o => .select ws cs source g o
    | d => d

/-- Sets the grouping of a draft. -/
def setGroupBy (s : Sheet) (i : QueryId) (groupBy : List (Template Expr)) : Sheet :=
  s.modify i fun
    | .select ws cs src _ o => .select ws cs src groupBy o
    | d => d

/-- Sets the ordering of a draft. -/
def setOrderBy (s : Sheet) (i : QueryId) (orderBy : List (Template Expr)) : Sheet :=
  s.modify i fun
    | .select ws cs src g _ => .select ws cs src g orderBy
    | d => d

/-- Replaces the bindings of a draft by the given ones and what they need. -/
def setWiths (s : Sheet) (i : QueryId) (vs : List DraftWith) : Sheet :=
  let cleared := s.modify i fun
    | .select _ cs src g o => .select [] cs src g o
    | d => d
  let ws := cleared.addWithsTo cleared.depth [] vs
  cleared.modify i fun
    | .select _ cs src g o => .select ws cs src g o
    | d => d

/-- Adds bindings and what they need to a draft. -/
def addWiths (s : Sheet) (i : QueryId) (vs : List DraftWith) : Sheet :=
  let ws := s.addWithsTo s.depth (s.withsOf i) vs
  s.modify i fun
    | .select _ cs src g o => .select ws cs src g o
    | d => d

end Sheet

end KpiReport.Sql
