import KpiReport.Formula.Parser
import KpiReport.Sql.Render

/-!
# Errors of compiling a report

Every error has a kind, a message and a status code. All kinds but the internal one are the fault
of the input; an internal error means that a tree was met which the parser does not build.
-/

namespace KpiReport

open Text (quoted)

/-- Why the definitions of a report cannot be used. -/
inductive ConfigurationFault where
  | noDimensions
  | earlyTerminal (name : String) (position : Nat)
  | lastNotTerminal (name : String)
  | noTables
  | unnamedTable (position : Nat)
  | noDefinitions
  /-- Violated constraints, each written out. -/
  | invalidDefinitions (violations : List String)
  | ambiguousMapping (name : String)
  | other (text : String)
deriving DecidableEq, Repr, Inhabited

/-- Wording of a configuration fault. -/
def ConfigurationFault.message : ConfigurationFault → String
  | noDimensions => "no dimensions"
  | earlyTerminal name i =>
    "dimension " ++ name ++ " at position " ++ toString i
      ++ " is terminal, only the last one may be"
  | lastNotTerminal name => "last dimension " ++ name ++ " is not terminal"
  | noTables => "no fact tables"
  | unnamedTable i => "fact table " ++ toString i ++ " has no name"
  | noDefinitions => "no definitions"
  | invalidDefinitions vs => "invalid definitions: " ++ "; ".intercalate vs
  | ambiguousMapping name => "mapping " ++ name ++ " must set exactly one of column and formula"
  | other text => text

/-- Why a formula tree cannot be compiled, or a compiled query not be written. -/
inductive InternalFault where
  /-- A hole of a tree, with the name of the type of what stands there. -/
  | hole (typeName formula : String)
  | emptyNumber (formula : String)
  | unknownOperator (op formula : String)
  | render (e : Sql.RenderError)
  | other (text : String)
deriving DecidableEq, Repr, Inhabited

/-- Wording of an internal fault. -/
def InternalFault.message : InternalFault → String
  | hole typeName formula =>
    "unable to compile node " ++ typeName ++ " of formula " ++ quoted formula
  | emptyNumber formula => "empty number in formula " ++ quoted formula
  | unknownOperator op formula =>
    "unknown operator " ++ quoted op ++ " in formula " ++ quoted formula
  | render e => "unable to render query: " ++ e.message
  | other text => text

/-- An error of compiling a formula or a report. -/
inductive CompileError where
  | malformed (formula : String) (line column : Int) (detail : String)
  | undefinedKpi (name formula : String)
  | unmappedDimension (name : String)
  | configuration (fault : ConfigurationFault)
  | internal (fault : InternalFault)
deriving DecidableEq, Repr, Inhabited

namespace CompileError

/-- The error of a formula that does not parse. -/
def ofFault (formula : String) (f : Formula.Fault) : CompileError :=
  .malformed formula f.pos.line f.pos.column f.message

/-- Wording of an error. -/
def message : CompileError → String
  | malformed formula line column detail =>
    "syntax error in formula " ++ quoted formula ++ " at line " ++ toString line ++ ":"
      ++ toString column ++ ": " ++ detail
  | undefinedKpi name formula =>
    "undefined KPI " ++ name ++ if formula = "" then "" else " in formula " ++ quoted formula
  | unmappedDimension name => "dimension " ++ name ++ " has no mapping"
  | configuration f => "configuration error: " ++ f.message
  | internal f => "internal compile error: " ++ f.message

/-- The kind of an error, as reported to callers. -/
def kind : CompileError → String
  | malformed .. => "syntax_error"
  | undefinedKpi .. => "undefined_kpi"
  | unmappedDimension .. => "unmapped_dimension"
  | configuration .. => "configuration_error"
  | internal .. => "internal_error"

/-- The kind of errors that are not compile errors. -/
def internalKind : String := "internal_error"

/-- The status code of an error. -/
def code : CompileError → Nat
  | internal .. => 500
  | _ => 400

/-- The short name of an error's type. -/
def typeName : CompileError → String
  | malformed .. => "syntax"
  | undefinedKpi .. => "undefined_kpi"
  | unmappedDimension .. => "unmapped_dimension"
  | configuration .. => "configuration"
  | internal .. => "internal"

end CompileError

/-- An error as it travels: a compile error or any other one, under the notes that were put in
front of it on its way, the latest first. -/
structure ErrorChain where
  notes : List String
  cause : Except String CompileError

namespace ErrorChain

/-- A compile error on its own. -/
def ofError (e : CompileError) : ErrorChain := ⟨[], .ok e⟩

/-- Any other error. -/
def ofText (text : String) : ErrorChain := ⟨[], .error text⟩

/-- Puts a note in front. -/
def wrap (r : ErrorChain) (note : String) : ErrorChain :=
  { r with notes := note :: r.notes }

/-- The notes, then the message of the cause. -/
def message (r : ErrorChain) : String :=
  let cause := match r.cause with
    | .ok e => e.message
    | .error text => text
  ": ".intercalate (r.notes ++ [cause])

/-- The kind of the cause. -/
def kind (r : ErrorChain) : String :=
  match r.cause with
  | .ok e => e.kind
  | .error _ => CompileError.internalKind

/-- The status code of the cause. -/
def code (r : ErrorChain) : Nat :=
  match r.cause with
  | .ok e => e.code
  | .error _ => 500

/-- The types that the cause belongs to, in alphabetical order. -/
def types (r : ErrorChain) : List String :=
  match r.cause with
  | .ok e => ["compile_error", e.typeName]
  | .error _ => []

end ErrorChain

/-- Fills a message with its arguments: `%s` stands for the next argument, `%%` for a percent sign.
A missing argument is marked in its place, and unused ones are listed at the end. -/
def fillMessage (format : List Char) (args : List String) : String :=
  match format, args with
  | '%' :: '%' :: r, args => "%" ++ fillMessage r args
  | '%' :: 's' :: r, a :: args => a ++ fillMessage r args
  | '%' :: 's' :: r, [] => "%!s(MISSING)" ++ fillMessage r []
  | c :: r, args => String.singleton c ++ fillMessage r args
  | [], [] => ""
  | [], args => "%!(EXTRA " ++ ", ".intercalate (args.map ("string=" ++ ·)) ++ ")"

end KpiReport
