import KpiReport.Definitions.Yaml
import KpiReport.Http.Api
import KpiReport.Log.Setup

/-!
# The command line

The program compiles a definitions file to SQL. What it is told on the command line goes before
the environment, and that before the configuration file. Everything the program does here is a
function of its arguments, its environment and the files it can read.
-/

namespace KpiReport.CommandLine

/-- What the arguments say. -/
structure Flags where
  help : Bool
  version : Bool
  config : String
  definitions : String
  dialect : String
  cte : Bool
  serve : Bool
deriving DecidableEq, Repr, Inhabited

/-- Nothing is said. -/
def Flags.none : Flags := ⟨false, false, "", "", "", false, false⟩

/-- A flag: a switch, or an option with a text. -/
inductive Flag where
  | switch (set : Bool → Flags → Flags)
  | option (set : String → Flags → Flags)

/-- The flag of a name. -/
def flag? (name : String) : Option Flag :=
  match name with
  | "help" => some (.switch fun help f => { f with help })
  | "version" => some (.switch fun version f => { f with version })
  | "config" => some (.option fun config f => { f with config })
  | "definitions" => some (.option fun definitions f => { f with definitions })
  | "dialect" => some (.option fun dialect f => { f with dialect })
  | "cte" => some (.switch fun cte f => { f with cte })
  | "serve" => some (.switch fun serve f => { f with serve })
  | _ => none

/-- Why arguments cannot be understood. -/
inductive FlagFault where
  /-- Help is asked for in a way that is not a flag. -/
  | help
  | badForm (argument : String)
  | unknown (name : String)
  | noValue (name : String)
  | badSwitch (name value : String)
deriving DecidableEq, Repr, Inhabited

/-- Wording of a fault. -/
def FlagFault.message : FlagFault → String
  | help => ""
  | badForm argument => "bad flag syntax: " ++ argument
  | unknown name => "flag provided but not defined: -" ++ name
  | noValue name => "flag needs an argument: -" ++ name
  | badSwitch name value =>
    "invalid boolean value " ++ Text.quoted value ++ " for -" ++ name ++ ": parse error"

/-- The value of a switch. -/
def switchValue? (s : String) : Option Bool :=
  if ["1", "t", "T", "TRUE", "true", "True"].contains s then some true
  else if ["0", "f", "F", "FALSE", "false", "False"].contains s then some false
  else none

/-- An argument: the end of the flags, or the name of a flag with the value that is joined to it
by an equals sign. -/
inductive Argument where
  | ends
  | named (name : String) (value : Option String)

/-- Takes an argument apart. One or two dashes start a flag; the first argument that is none ends
the flags. -/
def Argument.parse (s : String) : Except FlagFault Argument :=
  match s.toList with
  | ['-', '-'] => .ok .ends
  | '-' :: '-' :: r => named r
  | '-' :: c :: r => named (c :: r)
  | _ => .ok .ends
where
  /-- The name and the value of a flag. -/
  named (cs : List Char) : Except FlagFault Argument :=
    match cs with
    | [] | '-' :: _ | '=' :: _ => .error (.badForm s)
    | cs =>
      let name := String.ofList (cs.takeWhile (· != '='))
      match cs.dropWhile (· != '=') with
      | _ :: v => .ok (.named name (some (String.ofList v)))
      | [] => .ok (.named name none)

/-- Reads arguments up to the first one that is no flag. -/
def parseFlags : List String → Flags → Except FlagFault Flags
  | [], f => .ok f
  | a :: as, f => do
    match ← Argument.parse a with
    | .ends => return f
    | .named name value =>
      match flag? name with
      | none => throw (if name = "h" then .help else .unknown name)
      | some (.switch set) =>
        match switchValue? (value.getD "true") with
        | some b => parseFlags as (set b f)
        | none => throw (.badSwitch name (value.getD ""))
      | some (.option set) =>
        match value, as with
        | some v, as => parseFlags as (set v f)
        | none, v :: as => parseFlags as (set v f)
        | none, [] => throw (.noValue name)

/-- How the program is used. -/
def usage : String :=
  "Usage of kpiql:\n"
    ++ "  -config string\n    \tthe path to the config file\n"
    ++ "  -cte\n    \trender the unioned fact tables as a WITH clause\n"
    ++ "  -definitions string\n    \tthe path to a KPI definitions file to compile\n"
    ++ "  -dialect string\n    \tSQL dialect: postgres or clickhouse\n"
    ++ "  -help\n    \tshow help\n"
    ++ "  -serve\n    \tstart the HTTP API\n"
    ++ "  -version\n    \tshow version\n"

/-- What a run of the program leaves behind. -/
structure Outcome where
  exit : Nat
  stdout : String
  stderr : String
deriving DecidableEq, Repr, Inhabited

/-- What a run of the program can see. -/
structure World where
  /-- The text of a file, if there is such a file. -/
  readFile : String → Option String
  env : Settings.Environment

/-- A start that failed. -/
def crash (message : String) : Outcome := ⟨2, "", "panic: " ++ message⟩

/-- The configuration file of a path. -/
def configFile (w : World) (path : String) : Option Settings.File :=
  if path = "" then none
  else
    some ⟨String.ofList ((LogSetup.extension path.toList).drop 1), w.readFile path⟩

/-- The service that settings and flags ask for. -/
def service (s : Settings) (f : Flags) : Except String Service :=
  let name := if f.dialect = "" then s.compiler.dialect else f.dialect
  match Sql.Dialect.byName? name with
  | none => .error (Sql.Dialect.unknownMessage name)
  | some d =>
    .ok ⟨some d, s.compiler.parallelism, s.compiler.unionAlias, s.compiler.inlineUnion && !f.cte⟩

/-- Compiles the definitions in a file. -/
def compileFile (w : World) (s : Service) (path : String) : Outcome :=
  match w.readFile path with
  | none =>
    ⟨1, "", "unable to read definitions " ++ path ++ ": open " ++ path
      ++ ": no such file or directory\n"⟩
  | some text =>
    match Definitions.ofYaml text with
    | .error _ => ⟨1, "", path ++ ": unable to parse definitions: "⟩
    | .ok d =>
      match s.report d with
      | .error e => ⟨1, "", e.message ++ "\n"⟩
      | .ok r => ⟨0, r.sql ++ "\n", ""⟩

/-- Runs the program with flags. -/
def runFlags (w : World) (f : Flags) : Outcome :=
  if f.help then ⟨0, "", usage⟩
  else if f.version then ⟨0, "kpiql " ++ Http.version ++ " (" ++ Http.branch ++ ")\n", ""⟩
  else
    match Settings.load (configFile w f.config) w.env with
    | .error e => crash e.message
    | .ok settings =>
      match service settings f with
      | .error message => crash message
      | .ok s =>
        if f.definitions = "" then (if f.serve then ⟨0, "", ""⟩ else ⟨2, "", usage⟩)
        else compileFile w s f.definitions

/-- Runs the program. -/
def run (w : World) (args : List String) : Outcome :=
  match parseFlags args .none with
  | .error .help => ⟨0, "", usage⟩
  | .error fault => ⟨2, "", fault.message ++ "\n" ++ usage⟩
  | .ok f => runFlags w f

end KpiReport.CommandLine
