import KpiReport.Text.Blank
import KpiReport.Text.Lower
import KpiReport.Text.Quoted

/-!
# SQL dialects

The dialects differ in one thing only: how an identifier is quoted. One doubles its quotes, the
other escapes its backticks and backslashes with a backslash.
-/

namespace KpiReport.Sql

/-- The SQL dialects that queries are written in. -/
inductive Dialect where
  | postgres
  | clickhouse
deriving DecidableEq, Repr, Inhabited

namespace Dialect

/-- The name of a dialect. -/
def name : Dialect → String
  | postgres => "postgres"
  | clickhouse => "clickhouse"

/-- How a character of an identifier is written between the quotes. -/
def quoteChar : Dialect → Char → List Char
  | postgres, c => if c = '"' then ['"', '"'] else [c]
  | clickhouse, c => if c = '\\' ∨ c = '\x60' then ['\\', c] else [c]

/-- The quotes of a dialect. -/
def quoteMark : Dialect → Char
  | postgres => '"'
  | clickhouse => '\x60'

/-- An identifier, quoted. -/
def quoteIdent (d : Dialect) (name : String) : String :=
  String.ofList (d.quoteMark :: name.toList.flatMap d.quoteChar ++ [d.quoteMark])

/-- The dialect that a configured name stands for. Case and surrounding blanks do not matter, and
no name means `postgres`. -/
def byName? (name : String) : Option Dialect :=
  match Text.lower (Text.trim name) with
  | "" | "postgres" | "postgresql" => some postgres
  | "clickhouse" => some clickhouse
  | _ => none

/-- What is said about a name that stands for no dialect. -/
def unknownMessage (name : String) : String :=
  "unknown SQL dialect " ++ Text.quoted name

end Dialect

/-- Where the quoting of identifiers comes from: no context at all, a context without dialect, or
a dialect. -/
inductive QuoteContext where
  | absent
  | unset
  | ofDialect (d : Dialect)
deriving DecidableEq, Repr, Inhabited

/-- Quoting in a context; without a dialect it is that of `postgres`. -/
def QuoteContext.quoteIdent : QuoteContext → String → String
  | absent | unset => Dialect.postgres.quoteIdent
  | ofDialect d => d.quoteIdent

/-- Quoting leaves nothing of an identifier outside its quotes. -/
theorem Dialect.toList_quoteIdent (d : Dialect) (name : String) :
    (d.quoteIdent name).toList
      = d.quoteMark :: name.toList.flatMap d.quoteChar ++ [d.quoteMark] := by
  simp [quoteIdent]

end KpiReport.Sql
