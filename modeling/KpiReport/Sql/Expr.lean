import KpiReport.Text.Lower

/-!
# SQL expressions and queries

The pieces that queries are built from. A `With` binds a query to a name; a query lists the
bindings it needs, and refers to one of them by `Expr.withRef`. A union is led by its first query:
what is asked of a union beyond its text is asked of that one.
-/

namespace KpiReport.Sql

/-- The direction of an ordering. -/
inductive Direction where
  | asc
  | desc
deriving DecidableEq, Repr, Inhabited

/-- Where an ordering puts missing values. -/
inductive Nulls where
  | unspecified
  | first
  | last
deriving DecidableEq, Repr, Inhabited

mutual

/-- Anything that can stand in a query. -/
inductive Expr : Type where
  /-- Text that is written as it is. -/
  | raw (text : String)
  /-- A numeric literal in its source spelling. -/
  | num (text : String)
  | binary (op : String) (left right : Expr)
  | aggregate (fn : String) (arg : Expr)
  /-- `fn`, evaluated per partition without collapsing rows. -/
  | window (fn : Expr) (partition : List Expr)
  /-- An expression under an output name; the empty name means none. -/
  | column (e : Expr) (name : String)
  | order (e : Expr) (direction : Direction) (nulls : Nulls)
  /-- The definition of a binding. -/
  | binding (w : With)
  /-- A reference to a binding. -/
  | withRef (w : With)
  | query (q : Query)

/-- A query bound to an alias. -/
inductive With : Type where
  | mk (name : String) (query : Query)

/-- A select or a union of queries. -/
inductive Query : Type where
  | select (withs : List With) (columns : List Expr) (source : Option Expr)
      (groupBy : List Expr) (orderBy : List Expr)
  | unionAll (first : Query) (rest : List Query)

end

instance : Inhabited Expr := ⟨.raw ""⟩
instance : Inhabited Query := ⟨.select [] [] none [] []⟩
instance : Inhabited With := ⟨.mk "" default⟩

namespace With

/-- The alias of a binding. -/
def name : With → String
  | mk a _ => a

/-- The query of a binding. -/
def query : With → Query
  | mk _ q => q

end With

namespace Expr

/-- The alias of an output column; none for any other expression. -/
def outputName? : Expr → Option String
  | column _ a => some a
  | _ => none

/-- A function, named in any case, applied to an expression. -/
def call (fn : String) (e : Expr) : Expr :=
  aggregate (Text.lower fn) e

end Expr

namespace Query

/-- The query without any part. -/
def empty : Query := .select [] [] none [] []

/-- The bindings of a query. -/
def withs : Query → List With
  | select ws .. => ws
  | unionAll q _ => q.withs

/-- The output columns of a query. -/
def columns : Query → List Expr
  | select _ cs .. => cs
  | unionAll q _ => q.columns

/-- What a query reads from. -/
def source : Query → Option Expr
  | select _ _ src .. => src
  | unionAll q _ => q.source

/-- The grouping of a query. -/
def groupBy : Query → List Expr
  | select _ _ _ g _ => g
  | unionAll q _ => q.groupBy

/-- The ordering of a query. -/
def orderBy : Query → List Expr
  | select _ _ _ _ o => o
  | unionAll q _ => q.orderBy

/-- The queries that a union joins; none for a select. -/
def members? : Query → Option (List Query)
  | select .. => none
  | unionAll q qs => some (q :: qs)

end Query

end KpiReport.Sql
