import KpiReport.Text.Lower

/-!
# Logging

A log collects entries. An entry has a level, and is kept only if the log's own level is at least
as verbose. The log is a value that the parts of the program hand on to each other.
-/

namespace KpiReport

/-- How severe an entry is, the most severe level first. -/
inductive LogLevel where
  | panic
  | fatal
  | error
  | warning
  | info
  | debug
  | trace
deriving DecidableEq, Repr, Inhabited

namespace LogLevel

/-- How verbose a log of this level is. -/
def verbosity : LogLevel → Nat
  | panic => 0
  | fatal => 1
  | error => 2
  | warning => 3
  | info => 4
  | debug => 5
  | trace => 6

/-- The name of a level. -/
def name : LogLevel → String
  | panic => "panic"
  | fatal => "fatal"
  | error => "error"
  | warning => "warning"
  | info => "info"
  | debug => "debug"
  | trace => "trace"

/-- The level of a name, whose case does not matter. -/
def byName? (name : String) : Option LogLevel :=
  match Text.lower name with
  | "panic" => some panic
  | "fatal" => some fatal
  | "error" => some error
  | "warn" | "warning" => some warning
  | "info" => some info
  | "debug" => some debug
  | "trace" => some trace
  | _ => none

end LogLevel

/-- The value of a field of an entry. -/
inductive LogValue where
  | text (s : String)
  | number (n : Nat)
deriving DecidableEq, Repr, Inhabited

/-- What was logged once. -/
structure LogEntry where
  level : LogLevel
  message : String
  fields : List (String × LogValue)
deriving DecidableEq, Repr, Inhabited

/-- A log: its level, and its entries in the order they came. -/
structure Log where
  level : LogLevel
  entries : List LogEntry
deriving DecidableEq, Repr, Inhabited

namespace Log

/-- A log without entries. -/
def ofLevel (level : LogLevel) : Log := ⟨level, []⟩

/-- Logs an entry, if the log is verbose enough for it. -/
def add (l : Log) (e : LogEntry) : Log :=
  if e.level.verbosity ≤ l.level.verbosity then { l with entries := l.entries ++ [e] } else l

/-- Logs a message at the level `error`. -/
def error (l : Log) (message : String) : Log := l.add ⟨.error, message, []⟩

/-- Logs a message at the level `info`. -/
def info (l : Log) (message : String) : Log := l.add ⟨.info, message, []⟩

/-- Logs a message at the level `debug`. -/
def debug (l : Log) (message : String) : Log := l.add ⟨.debug, message, []⟩

/-- Sets the level by its name. An unknown name is logged, and leaves the level `error`. -/
def setLevel (l : Log) (name : String) : Log :=
  match LogLevel.byName? name with
  | some level => { l with level }
  | none => { l.error ("Couldn't parse loglevel" ++ name) with level := .error }

/-- The same log without its entries. -/
def cleared (l : Log) : Log := { l with entries := [] }

end Log

end KpiReport
