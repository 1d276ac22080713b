import KpiReport.Log
import KpiReport.Path
import KpiReport.Settings.Load

/-!
# Setting up the log

The log goes to the standard output or to files. A log file carries the time of its start in its
name, and a link without the time leads to the current one. The path is a pattern in which a
percent sign starts a part of the time; a pattern with an unknown part is refused, and then the
log goes on where it went before.
-/

namespace KpiReport

/-- Where a log goes. -/
inductive LogOutput where
  | stdout
  /-- To a file, whose name is a pattern, with a link to it. -/
  | file (pattern link : List Char)
  | unchanged
deriving DecidableEq, Repr, Inhabited

/-- A log that is set up. -/
structure LogSetup where
  log : Log
  json : Bool
  output : LogOutput
deriving DecidableEq, Repr, Inhabited

namespace LogSetup

/-- The shortest way to write a path of files, which starts at the root if a slash comes first. -/
def clean (path : List Char) : List Char :=
  Path.clean '/' '.' (path.head? = some '/') path

/-- A name in a directory. -/
def join (directory name : List Char) : List Char :=
  match directory, name with
  | [], [] => []
  | [], n => clean n
  | d, [] => clean d
  | d, n => clean (d ++ '/' :: n)

/-- The extension of a file name, dot included; empty if its last segment has no dot. -/
def extension (name : List Char) : List Char :=
  let tail := name.reverse.takeWhile fun c => c != '.' && c != '/'
  match name.reverse.drop tail.length with
  | '.' :: _ => '.' :: tail.reverse
  | _ => []

/-- The letters that name a part of the time. -/
def timeParts : List Char := "AaBbCcDdeFHhIjklMmnpRrSTtUuVvWwXxYyZz%".toList

/-- Every percent sign starts a known part of the time. -/
def isPattern : List Char → Bool
  | '%' :: c :: r => timeParts.contains c && isPattern r
  | ['%'] => false
  | _ :: r => isPattern r
  | [] => true

/-- The time that stands in the name of a log file: year, month, day, hour and minute. -/
def timePattern : List Char := "%Y%m%d%H%M".toList

/-- The pattern of the log file, and the name of the link to it. -/
def fileNames (path name : String) : List Char × List Char :=
  let ext := extension name.toList
  let base := name.toList.take (name.length - ext.length)
  (join path.toList (base ++ '_' :: timePattern ++ ext), join path.toList name.toList)

/-- Sets up the log. The environment can give its path and name other values. -/
def start (s : LogSettings) (env : Settings.Environment) (log : Log) : LogSetup :=
  let log := log.setLevel (if s.level = "" then "error" else s.level)
  let log := log.info "init logging system"
  if s.stdout then ⟨log, s.json, .stdout⟩
  else
    let path := Settings.envText env "WEBAPPLOGPATH" s.path
    let name := Settings.envText env "WEBAPPLOGNAME" s.name
    let (pattern, link) := fileNames path name
    if isPattern pattern then ⟨log, s.json, .file pattern link⟩
    else ⟨log.info "Local file system hook initialize fail", s.json, .unchanged⟩

/-- A pattern with its time written as `time`. -/
def stamp (time : List Char) (pattern : List Char) : List Char :=
  match pattern with
  | [] => []
  | c :: r =>
    if timePattern.isPrefixOf (c :: r) then time ++ stamp time (r.drop (timePattern.length - 1))
    else c :: stamp time r
termination_by pattern.length
decreasing_by
  all_goals simp only [List.length_cons, List.length_drop]; omega

/-- The files of a log to which something was written: the log file and the link, in order. -/
def files (o : LogOutput) (time : String) : List String :=
  match o with
  | .file pattern link =>
    let file := String.ofList (stamp time.toList pattern)
    let all := if link.isEmpty then [file] else [String.ofList link, file]
    all.mergeSort fun a b => decide (a ≤ b)
  | _ => []

end LogSetup

end KpiReport
