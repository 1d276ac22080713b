import KpiReport.CommandLine

/-!
# The program

Reads the arguments, the environment and the files they name, and prints the outcome.
-/

open KpiReport

/-- The variables of the environment that are looked at. -/
def environmentNames : List String :=
  ["HOST", "PORT", "CORS_ALLOW_ORIGIN", "LOG_LEVEL", "LOG_JSON", "KPIQL_DIALECT",
    "KPIQL_PARALLELISM", "KPIQL_INLINE_UNION", "WEBAPPLOGPATH", "WEBAPPLOGNAME"]

/-- The text of a file, if it can be read. -/
def readText (path : String) : IO (Option String) := do
  try
    return some (← IO.FS.readFile path)
  catch _ => return none

/-- Runs the program. -/
def main (args : List String) : IO UInt32 := do
  let env ← environmentNames.mapM fun name => do
    return (name, (← IO.getEnv name).getD "")
  let flags := (CommandLine.parseFlags args .none).toOption.getD .none
  let files ← [flags.config, flags.definitions].mapM fun path => do
    return (path, ← if path = "" then pure none else readText path)
  let world : CommandLine.World :=
    ⟨fun path => (files.lookup path).getD none, fun name => (env.lookup name).getD ""⟩
  let outcome := CommandLine.run world args
  IO.print outcome.stdout
  IO.eprint outcome.stderr
  return outcome.exit.toUInt32
