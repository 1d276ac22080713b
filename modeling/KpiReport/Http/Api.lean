import KpiReport.Definitions.Json
import KpiReport.Http.Middleware
import KpiReport.Settings.Basic

/-!
# The HTTP interface

Which paths there are, and what is answered on them. A path is looked up in its decoded form, and
a path that could be written shorter is answered with a pointer to the shorter one.
-/

namespace KpiReport.Http

/-- The version of the program. -/
def version : String := "0.1.0"

/-- The branch that the program was built from. -/
def branch : String := "main"

/-- What the interface offers. -/
inductive Endpoint where
  | ready
  | config
  | metrics
  | buildInfo
  | compile
  | checkFormula
deriving DecidableEq, Repr

namespace Endpoint

/-- The endpoint at a path. -/
def at? (path : List UInt8) : Option Endpoint :=
  if Url.spells path "/ready" then some ready
  else if Url.spells path "/config" then some config
  else if Url.spells path "/metrics" then some metrics
  else if Url.spells path "/api/status/buildinfo" then some buildInfo
  else if Url.spells path "/api/v1/compile" then some compile
  else if Url.spells path "/api/v1/formula/validate" then some checkFormula
  else none

/-- The method by which an endpoint is called. -/
def method : Endpoint → String
  | compile | checkFormula => "POST"
  | _ => "GET"

end Endpoint

/-- The server behind the interface: its service, if there is one, and its settings. -/
structure Server where
  service : Option Service
  settings : Option Settings

/-- Answers with a document. -/
def sendJson (code : Nat) (text : String) : List Action :=
  [.setHeader "Content-Type" "application/json", .status code, .writeText text]

/-- Answers with an error. -/
def sendError (code : Nat) (kind message : String) : List Action :=
  sendJson code (Json.Value.object [("status", .text "error"), ("errorType", .text kind),
    ("error", .text message)]).render

/-- Answers with a compile error. -/
def sendCompileError (e : CompileError) : List Action :=
  sendError e.code e.kind e.message

/-- Answers with a result. -/
def sendResult (data : Json.Value) : List Action :=
  sendJson 200 (Json.Value.object [("status", .text "success"), ("data", data)]).render

/-- The largest body that is read, in bytes. -/
def maxBodySize : Nat := 1048576

/-- The body of a request, read by `read`. Why a body cannot be read is not told in detail. -/
def readBody {α : Type} (r : Request) (read : List Char → Except Json.Fault α) :
    Except String α :=
  if maxBodySize < r.body.utf8ByteSize then .error "http: request body too large"
  else (read r.body.toList).mapError fun _ => "<json>"

/-- A compiled report as a document. -/
def reportJson (r : CompiledReport) : Json.Value :=
  .object [("sql", .text r.sql), ("fingerprint", .text r.fingerprint),
    ("dialect", .text r.dialect), ("formulas", .int r.formulas)]

/-- What is known of a formula, as a document. -/
def formulaJson (f : FormulaInfo) : Json.Value :=
  .object [("formula", .text f.formula), ("canonical", .text f.canonical),
    ("references", .list (f.references.map .text))]

/-- The answer when there is no service that could compile. -/
def crash (r : Request) (st : Service.State) : List Action × Service.State :=
  let log := (st.log.error "panic:").error ("query: " ++ r.url.toText)
  ([.status 500, .writeText "Internal Server Error"], { st with log })

/-- Compiles the definitions in the body. Without a service only the definitions are checked. -/
def compileHandler (s : Server) : Handler := fun r st =>
  match readBody r Definitions.ofJson with
  | .error message => (sendError 400 "bad_request" message, st)
  | .ok d =>
    match s.service, d.validate with
    | none, .ok () => crash r st
    | service, _ =>
      match (service.getD default).compile (some d) st with
      | (.error e, st) => (sendCompileError e, st)
      | (.ok report, st) => (sendResult (reportJson report), st)

/-- Checks the formula in the body. -/
def formulaHandler : Handler := fun r st =>
  match readBody r FormulaRequest.ofJson with
  | .error message => (sendError 400 "bad_request" message, st)
  | .ok q =>
    if q.formula = "" then (sendError 400 "bad_request" "formula is required", st)
    else
      match Service.checkFormula q.formula (q.kpis.getD .empty) st with
      | (.error e, st) => (sendCompileError e, st)
      | (.ok info, st) => (sendResult (formulaJson info), st)

/-- The formula that must parse for the program to be ready. -/
def readinessProbe : String := "(ready)*2"

/-- Tells whether the program is ready. -/
def readyHandler : Handler := fun _ st =>
  match parseFormula readinessProbe with
  | .ok _ => ([.status 200, .writeText "OK"], st)
  | .error e =>
    ([.status 500, .writeText "Internal Server Error"], { st with log := st.log.error e.message })

/-- Shows the settings. -/
def configHandler (s : Server) : Handler := fun _ st =>
  match s.settings with
  | none => ([.status 200, .writeText "Not supported"], st)
  | some settings => (sendJson 200 settings.toJson.render, st)

/-- Shows the counters, one a line. -/
def metricsHandler : Handler := fun _ st =>
  let lines := st.metrics.shown.map fun p => p.1 ++ " " ++ toString p.2 ++ "\n"
  ([.setHeader "Content-Type"
      "text/plain; version=0.0.4; charset=utf-8; escaping=underscores",
    .writeText (String.join lines)], st)

/-- Shows which program this is. -/
def buildInfoHandler : Handler := fun _ st =>
  let info := Json.Value.object [("branch", .text branch), ("version", .text version)]
  ([.setHeader "Content-Type" "application/json", .writeText (info.render ++ "\n")], st)

/-- The handler of an endpoint. -/
def Endpoint.handler (s : Server) : Endpoint → Handler
  | ready => readyHandler
  | config => configHandler s
  | metrics => metricsHandler
  | buildInfo => buildInfoHandler
  | compile => compileHandler s
  | checkFormula => formulaHandler

/-- What is answered on a path that does not exist. -/
def notFound : List Action :=
  [.setHeader "Content-Type" "text/plain; charset=utf-8",
    .setHeader "X-Content-Type-Options" "nosniff", .status 404,
    .writeText "404 page not found\n"]

/-- Answers a request. The middlewares are around the endpoints only, and not around the answers
to requests for which there is no endpoint. -/
def Server.handle (s : Server) (encode : List UInt8 → List UInt8) (ms : List Middleware) :
    Handler := fun r st =>
  let path := Url.clean r.url.path
  if path ≠ r.url.path then
    ([.setHeader "Location" { r.url with path }.toText, .status 301], st)
  else
    match Endpoint.at? r.url.path with
    | none => (notFound, st)
    | some e =>
      if e.method = r.method then stack encode ms (e.handler s) r st else ([.status 405], st)

end KpiReport.Http
