import KpiReport.Json.Value

/-!
# Settings

What can be configured: the log, the HTTP interface and the compiler. Numbers of days and hours
are 32-bit words, because that is how they are kept; a negative number given for them wraps
around.
-/

namespace KpiReport

/-- Settings of the log. -/
structure LogSettings where
  json : Bool
  stdout : Bool
  level : String
  path : String
  name : String
  maxAgeDays : UInt32
  rotationHours : UInt32
deriving DecidableEq, Repr, Inhabited

/-- Settings of calls from other origins. -/
structure CorsSettings where
  enable : Bool
  origin : String
deriving DecidableEq, Repr, Inhabited

/-- Settings of the HTTP interface. -/
structure HttpSettings where
  host : String
  port : Int
  cors : CorsSettings
deriving DecidableEq, Repr, Inhabited

/-- Settings of the compiler. -/
structure CompilerSettings where
  dialect : String
  parallelism : Int
  unionAlias : String
  inlineUnion : Bool
deriving DecidableEq, Repr, Inhabited

/-- All settings. -/
structure Settings where
  log : LogSettings
  http : HttpSettings
  compiler : CompilerSettings
deriving DecidableEq, Repr, Inhabited

namespace Settings

/-- What holds where nothing is configured. -/
def default : Settings where
  log :=
    { json := false, stdout := true, level := "info", path := ".", name := "kpiql.log"
      maxAgeDays := 7, rotationHours := 24 }
  http := { host := "0.0.0.0", port := 3200, cors := { enable := false, origin := "" } }
  compiler :=
    { dialect := "postgres", parallelism := 4, unionAlias := "facts", inlineUnion := true }

/-- The settings as a document. -/
def toJson (s : Settings) : Json.Value :=
  .object [
    ("LOG_SETTINGS", .object [
      ("Json", .bool s.log.json), ("Stdout", .bool s.log.stdout), ("Level", .text s.log.level),
      ("Path", .text s.log.path), ("Name", .text s.log.name),
      ("MaxAgeDays", .int s.log.maxAgeDays.toNat),
      ("RotationHours", .int s.log.rotationHours.toNat)]),
    ("HTTP_SETTINGS", .object [
      ("Host", .text s.http.host), ("Port", .int s.http.port),
      ("Cors", .object [("Enable", .bool s.http.cors.enable),
        ("Origin", .text s.http.cors.origin)])]),
    ("COMPILER_SETTINGS", .object [
      ("Dialect", .text s.compiler.dialect), ("Parallelism", .int s.compiler.parallelism),
      ("UnionAlias", .text s.compiler.unionAlias),
      ("InlineUnion", .bool s.compiler.inlineUnion)])]

end Settings

end KpiReport
