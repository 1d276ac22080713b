import KpiReport.Settings.Basic
import KpiReport.Settings.Value

/-!
# Loading settings

Settings come from three places: what holds by default, a configuration file, and the environment,
each going before the one before. A value in a file need not have the type of its setting; it is
converted where there is an obvious way. What comes out is checked in the end.
-/

namespace KpiReport

/-- A violated constraint on a setting. -/
structure SettingViolation where
  group : String
  field : String
  rule : String
deriving DecidableEq, Repr, Inhabited

/-- Wording of a violated constraint. -/
def SettingViolation.message (v : SettingViolation) : String :=
  "Key: 'Setting." ++ v.group ++ "." ++ v.field ++ "' Error:Field validation for '" ++ v.field
    ++ "' failed on the '" ++ v.rule ++ "' tag"

/-- Why there are no settings. -/
inductive SettingsError where
  /-- There is no such file, or it is not what its extension says. -/
  | unreadable
  /-- A value cannot be converted to its setting. -/
  | undecodable
  | badNumber (key value : String) (fault : Integer.Fault)
  | badFlag (key : String)
  | invalid (violations : List SettingViolation)
deriving DecidableEq, Repr, Inhabited

/-- Wording of an error. Why a file cannot be read or decoded is not told in detail. -/
def SettingsError.message : SettingsError → String
  | unreadable => "unable to read config "
  | undecodable => "unable to decode config: "
  | badNumber key value fault =>
    "invalid " ++ key ++ " value: strconv.Atoi: parsing " ++ Text.quoted value ++ ": "
      ++ fault.message
  | badFlag key =>
    key ++ " value must be one of [no, n, false, 0, yes, y, true, 1]"
  | invalid vs => "invalid config: " ++ "\n".intercalate (vs.map SettingViolation.message)

namespace ConfigValue

/-! ## Looking up -/

/-- The value stands for none. -/
def isNull : ConfigValue → Bool
  | null => true
  | _ => false

/-- The value at a path of names. A name in the file may hold dots and then covers several names
of the path; longer names go before shorter ones. -/
def find : (fuel : Nat) → List (String × ConfigValue) → (path : List String) → ConfigValue
  | 0, _, _ => .null
  | fuel + 1, entries, path =>
    let found := (List.range path.length).reverse.map fun i =>
      match entries.lookup (".".intercalate (path.take (i + 1))) with
      | none => ConfigValue.null
      | some v =>
        if i + 1 = path.length then v
        else
          match v with
          | .table inner => find fuel inner (path.drop (i + 1))
          | _ => .null
    (found.find? (!·.isNull)).getD .null

mutual

/-- There is a value in the tree. -/
def holdsValue : ConfigValue → Bool
  | .null => false
  | .table es => anyHoldsValue es
  | _ => true

/-- There is a value in one of the trees. -/
def anyHoldsValue : List (String × ConfigValue) → Bool
  | [] => false
  | (_, v) :: es => v.holdsValue || anyHoldsValue es

end

/-! ## Converting -/

/-- The value as text. -/
def toText? : ConfigValue → Option String
  | .text s => some s
  | .bool b => some (if b then "1" else "0")
  | .int n => some (toString n)
  | .float x => some x.toText
  | _ => none

/-- The value as a flag. -/
def toFlag? : ConfigValue → Option Bool
  | .bool b => some b
  | .int n => some (n ≠ 0)
  | .float x => some !x.isZero
  | .text s =>
    if ["1", "t", "T", "TRUE", "true", "True"].contains s then some true
    else if ["", "0", "f", "F", "FALSE", "false", "False"].contains s then some false
    else none
  | _ => none

/-- The word that a number in double precision is cut down to; what does not fit becomes the least
word. -/
def wordOf (x : Double) : Int :=
  match x.truncate? with
  | some n => if Integer.isWord n then n else Integer.minWord
  | none => Integer.minWord

/-- The value as a signed 64-bit number. -/
def toInt? : ConfigValue → Option Int
  | .int n => some (Integer.wrap n)
  | .float x => some (wordOf x)
  | .bool b => some (if b then 1 else 0)
  | .text "" => some 0
  | .text s =>
    match Integer.general? s.toList with
    | some n => if Integer.isWord n then some n else none
    | none => none
  | _ => none

/-- The value as an unsigned 32-bit number, which wraps around. -/
def toWord? : ConfigValue → Option UInt32
  | .int n => some (UInt32.ofInt n)
  | .float x => some (UInt32.ofInt (wordOf x))
  | .bool b => some (if b then 1 else 0)
  | .text "" => some 0
  | .text s =>
    match Integer.natural? s.toList with
    | some n => if n < UInt32.size then some (UInt32.ofNat n) else none
    | none => none
  | _ => none

end ConfigValue

namespace Settings

/-- The entries of a file. -/
abbrev Entries := List (String × ConfigValue)

/-- A setting at a path, converted; what the file says nothing about stays as it is. -/
def setting {α : Type} (es : Entries) (convert : ConfigValue → Option α) (path : List String)
    (otherwise : α) : Except SettingsError α :=
  match ConfigValue.find path.length es path with
  | .null => .ok otherwise
  | v =>
    match convert v with
    | some a => .ok a
    | none => .error .undecodable

/-- A setting that has no default of its own. A group without values in its place does no harm. -/
def bareSetting {α : Type} (es : Entries) (convert : ConfigValue → Option α) (path : List String)
    (otherwise : α) : Except SettingsError α :=
  match ConfigValue.find path.length es path with
  | .table inner => if ConfigValue.anyHoldsValue inner then .error .undecodable else .ok otherwise
  | _ => setting es convert path otherwise

/-- A place where a group of settings is expected holds a group or nothing. -/
def checkGroup (es : Entries) (path : List String) : Except SettingsError Unit :=
  match ConfigValue.find path.length es path with
  | .null | .table _ => .ok ()
  | _ => .error .undecodable

/-- The settings in a file. -/
def ofEntries (es : Entries) : Except SettingsError Settings := do
  let d := Settings.default
  checkGroup es ["log_settings"]
  checkGroup es ["http_settings"]
  checkGroup es ["http_settings", "cors"]
  checkGroup es ["compiler_settings"]
  let log (name : String) := ["log_settings", name]
  let http (name : String) := ["http_settings", name]
  let cors (name : String) := ["http_settings", "cors", name]
  let compiler (name : String) := ["compiler_settings", name]
  return {
    log := {
      json := ← bareSetting es ConfigValue.toFlag? (log "json") d.log.json
      stdout := ← setting es ConfigValue.toFlag? (log "stdout") d.log.stdout
      level := ← setting es ConfigValue.toText? (log "level") d.log.level
      path := ← setting es ConfigValue.toText? (log "path") d.log.path
      name := ← setting es ConfigValue.toText? (log "name") d.log.name
      maxAgeDays := ← setting es ConfigValue.toWord? (log "max_age_days") d.log.maxAgeDays
      rotationHours :=
        ← setting es ConfigValue.toWord? (log "rotation_hours") d.log.rotationHours }
    http := {
      host := ← setting es ConfigValue.toText? (http "host") d.http.host
      port := ← setting es ConfigValue.toInt? (http "port") d.http.port
      cors := {
        enable := ← bareSetting es ConfigValue.toFlag? (cors "enable") d.http.cors.enable
        origin := ← bareSetting es ConfigValue.toText? (cors "origin") d.http.cors.origin } }
    compiler := {
      dialect := ← setting es ConfigValue.toText? (compiler "dialect") d.compiler.dialect
      parallelism :=
        ← setting es ConfigValue.toInt? (compiler "parallelism") d.compiler.parallelism
      unionAlias :=
        ← setting es ConfigValue.toText? (compiler "union_alias") d.compiler.unionAlias
      inlineUnion :=
        ← setting es ConfigValue.toFlag? (compiler "inline_union") d.compiler.inlineUnion } }

/-! ## The environment -/

/-- The environment: the value of each variable, empty if it is not set. -/
abbrev Environment := String → String

/-- A text from the environment. -/
def envText (env : Environment) (key : String) (otherwise : String) : String :=
  if env key = "" then otherwise else env key

/-- A number from the environment. -/
def envInt (env : Environment) (key : String) (otherwise : Int) :
    Except SettingsError Int :=
  if env key = "" then .ok otherwise
  else (Integer.plain (env key)).mapError (.badNumber key (env key))

/-- A flag from the environment. -/
def envFlag (env : Environment) (key : String) (otherwise : Bool) :
    Except SettingsError Bool :=
  match Text.lower (env key) with
  | "" => .ok otherwise
  | "true" | "1" | "yes" | "y" => .ok true
  | "false" | "0" | "no" | "n" => .ok false
  | _ => .error (.badFlag key)

/-- The settings with what the environment says. Of several faults the first one in this order
counts. -/
def override (s : Settings) (env : Environment) : Except SettingsError Settings := do
  let host := envText env "HOST" s.http.host
  let port ← envInt env "PORT" s.http.port
  let origin := envText env "CORS_ALLOW_ORIGIN" s.http.cors.origin
  let enable := s.http.cors.enable || env "CORS_ALLOW_ORIGIN" ≠ ""
  let level := envText env "LOG_LEVEL" s.log.level
  let json ← envFlag env "LOG_JSON" s.log.json
  let dialect := envText env "KPIQL_DIALECT" s.compiler.dialect
  let parallelism ← envInt env "KPIQL_PARALLELISM" s.compiler.parallelism
  let inlineUnion ← envFlag env "KPIQL_INLINE_UNION" s.compiler.inlineUnion
  return {
    log := { s.log with level, json }
    http := { host := if host = "" then "0.0.0.0" else host, port, cors := { enable, origin } }
    compiler := { s.compiler with dialect, parallelism, inlineUnion } }

/-! ## Checking -/

/-- A text that is not empty must be one of the given ones. -/
def checkChoice (group field : String) (choices : List String) (s : String) :
    List SettingViolation :=
  if s = "" || choices.contains s then [] else [⟨group, field, "oneof"⟩]

/-- A number must not be negative or above the given one. -/
def checkRange (group field : String) (max n : Int) : List SettingViolation :=
  if n < 0 then [⟨group, field, "min"⟩] else if max < n then [⟨group, field, "max"⟩] else []

/-- The constraints that settings violate. -/
def violations (s : Settings) : List SettingViolation :=
  checkChoice "LOG_SETTINGS" "Level"
      ["trace", "debug", "info", "warn", "warning", "error", "fatal", "panic"] s.log.level
    ++ checkRange "HTTP_SETTINGS" "Port" 65535 s.http.port
    ++ checkChoice "COMPILER_SETTINGS" "Dialect" ["postgres", "postgresql", "clickhouse"]
      s.compiler.dialect
    ++ checkRange "COMPILER_SETTINGS" "Parallelism" 1024 s.compiler.parallelism

/-- A configuration file: its extension, and its text if it exists. -/
structure File where
  extension : String
  text : Option String

/-- The entries of a configuration file. -/
def File.entries (f : File) : Except SettingsError Entries :=
  match f.text, f.extension with
  | some s, "yaml" | some s, "yml" => (ConfigValue.ofYaml s).mapError fun _ => .unreadable
  | some s, "json" =>
    match ConfigValue.ofJson? s with
    | some es => .ok es
    | none => .error .unreadable
  | _, _ => .error .unreadable

/-- Loads the settings from a file, if there is one, and the environment. -/
def load (file : Option File) (env : Environment) : Except SettingsError Settings := do
  let es ← match file with
    | some f => f.entries
    | none => .ok []
  let s ← (← ofEntries es).override env
  match s.violations with
  | [] => return s
  | v :: vs => throw (.invalid (v :: vs))

end Settings

end KpiReport
