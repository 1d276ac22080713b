import KpiReport.Sql.Dialect
import KpiReport.Sql.Expr

/-!
# Writing SQL

The text of an expression or a query. Every operation is written in brackets, so that the tree
alone decides the order of evaluation. Three options change the text: bindings can be left out,
references can be replaced by the query they stand for, and such a replacement can go without its
alias. Options travel down the tree as a list of codes; codes with no meaning are carried along.
-/

namespace KpiReport.Sql

/-- Why an expression has no text. -/
inductive RenderError where
  | emptyNumber
  | noColumns
  | emptyAlias
deriving DecidableEq, Repr, Inhabited

/-- Wording of a rendering error. -/
def RenderError.message : RenderError → String
  | .emptyNumber => "empty numeric literal"
  | .noColumns => "no 'SELECT' part"
  | .emptyAlias => "alias is empty"

/-- The options of rendering, as codes. -/
abbrev Options := List Int

namespace Options

/-- Leave out the bindings of a query. -/
def skipWith : Int := 1

/-- Write the query in place of a reference to it. -/
def inlineWith : Int := 2

/-- Write such a query without its alias. -/
def bareRef : Int := 5

/-- The bindings of a query are not written. -/
def hidesWith (o : Options) : Bool :=
  o.any fun i => i == skipWith || i == inlineWith

/-- References are written as the query they stand for. -/
def inlines (o : Options) : Bool :=
  o.any (· == inlineWith)

/-- Inlined references have no alias. -/
def isBare (o : Options) : Bool :=
  o.any (· == bareRef)

end Options

/-- The word for a direction. -/
def Direction.text : Direction → String
  | .asc => "asc"
  | .desc => "desc"

/-- What follows the direction. -/
def Nulls.text : Nulls → String
  | .unspecified => ""
  | .first => " nulls first"
  | .last => " nulls last"

mutual

/-- The text of an expression, identifiers quoted by `quote`. -/
def Expr.render (quote : String → String) (o : Options) : Expr → Except RenderError String
  | .raw text => .ok text
  | .num text => if text = "" then .error .emptyNumber else .ok text
  | .binary op l r => do
    let l ← l.render quote o
    let r ← r.render quote o
    return "(" ++ l ++ " " ++ op ++ " " ++ r ++ ")"
  | .aggregate fn arg => do
    return fn ++ "(" ++ (← arg.render quote o) ++ ")"
  | .window fn [] => do
    return (← fn.render quote o) ++ " over ()"
  | .window fn (p :: ps) => do
    let fn ← fn.render quote o
    let p ← p.render quote o
    let ps ← Expr.renderAll quote o ps
    return fn ++ " over (partition by " ++ ", ".intercalate (p :: ps) ++ ")"
  | .column e name => do
    let e ← e.render quote (o ++ [Options.bareRef])
    return if name = "" then e else e ++ " as " ++ quote name
  | .order e direction nulls => do
    return (← e.render quote o) ++ " " ++ direction.text ++ nulls.text
  | .binding w => w.render quote o
  | .withRef (.mk name q) =>
    if name = "" then .error .emptyAlias
    else if o.inlines then do
      let q ← q.render quote (o.filter (· != Options.bareRef))
      return "(" ++ q ++ ")" ++ if o.isBare then "" else " as " ++ quote name
    else .ok (quote name)
  | .query q => q.render quote o

/-- The texts of a list of expressions. -/
def Expr.renderAll (quote : String → String) (o : Options) :
    List Expr → Except RenderError (List String)
  | [] => .ok []
  | e :: es => do
    let e ← e.render quote o
    let es ← Expr.renderAll quote o es
    return e :: es

/-- The text of a clause with one expression, empty if it has none. -/
def Expr.renderSource (quote : String → String) (o : Options) :
    Option Expr → Except RenderError String
  | none => .ok ""
  | some e => do return " FROM " ++ (← e.render quote o)

/-- The text of a binding. -/
def With.render (quote : String → String) (o : Options) : With → Except RenderError String
  | .mk name q => do return quote name ++ " as (" ++ (← q.render quote o) ++ ")"

/-- The texts of a list of bindings. -/
def With.renderAll (quote : String → String) (o : Options) :
    List With → Except RenderError (List String)
  | [] => .ok []
  | w :: ws => do
    let w ← w.render quote o
    let ws ← With.renderAll quote o ws
    return w :: ws

/-- The text of a query. -/
def Query.render (quote : String → String) (o : Options) : Query → Except RenderError String
  | .select withs columns source groupBy orderBy => do
    let withs ←
      if o.hidesWith || withs.isEmpty then pure ""
      else do
        let ws ← With.renderAll quote (o ++ [Options.skipWith]) withs
        pure ("WITH " ++ ", ".intercalate ws ++ " ")
    if columns.isEmpty then throw .noColumns
    let columns ← Expr.renderAll quote o columns
    let source ← Expr.renderSource quote o source
    let groupBy ← Expr.renderAll quote o groupBy
    let orderBy ← Expr.renderAll quote o orderBy
    return withs ++ "SELECT " ++ ", ".intercalate columns ++ source
      ++ (if groupBy.isEmpty then "" else " GROUP BY " ++ ", ".intercalate groupBy)
      ++ (if orderBy.isEmpty then "" else " ORDER BY " ++ ", ".intercalate orderBy)
  | .unionAll q qs => do
    let q ← q.render quote o
    let qs ← Query.renderAll quote o qs
    return " UNION ALL ".intercalate (q :: qs)

/-- The texts of a list of queries. -/
def Query.renderAll (quote : String → String) (o : Options) :
    List Query → Except RenderError (List String)
  | [] => .ok []
  | q :: qs => do
    let q ← q.render quote o
    let qs ← Query.renderAll quote o qs
    return q :: qs

end

/-- The text of an expression for a dialect; no dialect means `postgres`. -/
def Expr.toSql (e : Expr) (d : Option Dialect) (o : Options) : Except RenderError String :=
  e.render (d.getD .postgres).quoteIdent o

/-- The text of a query for a dialect; no dialect means `postgres`. -/
def Query.toSql (q : Query) (d : Option Dialect) (o : Options) : Except RenderError String :=
  q.render (d.getD .postgres).quoteIdent o

end KpiReport.Sql
