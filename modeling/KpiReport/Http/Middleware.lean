import KpiReport.Http.Exchange
import KpiReport.Http.LogTemplate
import KpiReport.Service

/-!
# Handlers and middlewares

A handler answers a request with actions that build the response, and changes the state of the
service. A middleware makes a handler out of another one. There are three: compression of
successful responses, permission for calls from other origins, and the request log.

What the middlewares do to a response is a matter of its actions alone, so each of them is first
given as a function on lists of actions.
-/

namespace KpiReport.Http

/-- Answers a request. -/
abbrev Handler := Request → Service.State → List Action × Service.State

/-! ## Compression -/

/-- The code of a success. -/
def isSuccess (code : Nat) : Bool := code / 100 == 2

/-- The actions that send a compressed body in one piece. -/
def sendCompressed (encode : List UInt8 → List UInt8) (code : Nat) (body : List UInt8) :
    List Action :=
  let bytes := encode body
  [.setHeader "Content-Encoding" "gzip", .setHeader "Content-Length" (toString bytes.length),
    .removeHeader "Accept-Ranges", .status code, .write bytes]

/-- Compresses a response. The first status, or the first bytes, decide whether it is a success.
The body of a success is held back and sent compressed at the end; of anything else the status
and the body pass. Header fields always pass. `code` is the status if it is known, and `held` the
body held back. -/
def compressFrom (encode : List UInt8 → List UInt8) (code : Option Nat) (held : List UInt8) :
    List Action → List Action
  | [] => if isSuccess (code.getD 200) then sendCompressed encode (code.getD 200) held else []
  | .setHeader name value :: as => .setHeader name value :: compressFrom encode code held as
  | .removeHeader name :: as => .removeHeader name :: compressFrom encode code held as
  | .status c :: as =>
    match code with
    | some _ => compressFrom encode code held as
    | none =>
      if isSuccess c then compressFrom encode (some c) held as
      else .status c :: compressFrom encode (some c) held as
  | .write bytes :: as =>
    let c := code.getD 200
    if isSuccess c then compressFrom encode (some c) (held ++ bytes) as
    else .write bytes :: compressFrom encode (some c) held as

/-- Compresses a response. -/
def compress (encode : List UInt8 → List UInt8) (as : List Action) : List Action :=
  compressFrom encode none [] as

/-- The first text holds the second one. -/
def hasInfix (s t : List Char) : Bool :=
  match s with
  | [] => t.isEmpty
  | c :: r => t.isPrefixOf (c :: r) || hasInfix r t

/-- The request takes a compressed answer. -/
def acceptsGzip (r : Request) : Bool :=
  hasInfix (r.headers.get "Accept-Encoding").toList "gzip".toList

/-- Compresses the answers to requests that take compressed ones. -/
def gzip (encode : List UInt8 → List UInt8) (next : Handler) : Handler := fun r st =>
  if acceptsGzip r then
    let (as, st) := next r st
    (compress encode as, st)
  else next r st

/-! ## Other origins -/

/-- The header fields that permit calls from an origin. -/
def permissions (origin : String) : List Action :=
  [.setHeader "Access-Control-Allow-Headers"
      "Origin,Content-Type,Accept,Content-Length,Accept-Language,Accept-Encoding,Connection,Access-Control-Allow-Origin",
    .setHeader "Access-Control-Allow-Origin" (if origin = "" then "*" else origin),
    .setHeader "Access-Control-Allow-Methods" "GET,POST,OPTIONS",
    .setHeader "Access-Control-Allow-Credentials" "true"]

/-- Permits calls from an origin, and answers the question whether they are permitted itself. -/
def cors (origin : String) (next : Handler) : Handler := fun r st =>
  if r.method = "OPTIONS" then (permissions origin ++ [.status 204], st)
  else
    let (as, st) := next r st
    (permissions origin ++ as, st)

/-! ## The request log -/

/-- The status that the log shows: the last one given, whether or not it counts. -/
def loggedStatus (as : List Action) : Nat :=
  as.foldl (fun code a => match a with
    | .status c => c
    | _ => code) 200

/-- The length that the log shows: the number of bytes written. -/
def loggedLength (as : List Action) : Nat :=
  as.foldl (fun n a => match a with
    | .write bytes => n + bytes.length
    | _ => n) 0

/-- How a character of a logged value is written. -/
def escapeMarkup : Char → List Char
  | '&' => "&amp;".toList
  | '<' => "&lt;".toList
  | '>' => "&gt;".toList
  | '"' => "&#34;".toList
  | '\'' => "&#39;".toList
  | c => [c]

/-- A logged value, with no markup left in it. -/
def escaped (s : String) : String :=
  String.ofList (s.toList.flatMap escapeMarkup)

/-- The fields of a log line. How long the answer took is not measured. -/
def logField (r : Request) (as : List Action) (name : String) : Option String :=
  match name with
  | "method" => some (escaped r.method)
  | "url" => some (escaped r.url.toText)
  | "proto" => some (escaped Request.protocol)
  | "status" => some (toString (loggedStatus as))
  | "length" => some (toString (loggedLength as))
  | "referer" => some (escaped (r.headers.get "Referer"))
  | "user_agent" => some (escaped (r.headers.get "User-Agent"))
  | "host" => some (escaped r.host)
  | "path" => some (escaped r.url.pathText)
  | "latency" => some "0s"
  | _ => none

/-- Logs a line for each request. -/
def logging (t : LogTemplate) (next : Handler) : Handler := fun r st =>
  let (as, st) := next r st
  let log := match t.render (logField r as) with
    | some line => st.log.info line
    | none => st.log.error "unable to log request: "
  (as, { st with log })

/-! ## Stacks of middlewares -/

/-- A middleware as it is asked for. -/
inductive Layer where
  | gzip
  | cors (origin : String)
  | log (template : String)
deriving DecidableEq, Repr

/-- A middleware that is ready for use: its template is read. -/
inductive Middleware where
  | gzip
  | cors (origin : String)
  | log (template : LogTemplate)
deriving DecidableEq, Repr

/-- Makes a middleware ready. A template that cannot be read is logged and replaced, be it that it
is none or that it has actions beyond fields and comments. -/
def Layer.prepare (l : Layer) (journal : Log) : Middleware × Log :=
  match l with
  | .gzip => (.gzip, journal)
  | .cors origin => (.cors origin, journal)
  | .log template =>
    match LogTemplate.parse? template with
    | some t => (.log t, journal)
    | none => (.log .fallback, journal.error "invalid request logging template: ")

/-- Makes middlewares ready. -/
def Layer.prepareAll : List Layer → Log → List Middleware × Log
  | [], journal => ([], journal)
  | l :: ls, journal =>
    let (m, journal) := l.prepare journal
    let (ms, journal) := prepareAll ls journal
    (m :: ms, journal)

/-- Puts a middleware around a handler. -/
def Middleware.around (encode : List UInt8 → List UInt8) (m : Middleware) (next : Handler) :
    Handler :=
  match m with
  | .gzip => Http.gzip encode next
  | .cors origin => Http.cors origin next
  | .log t => logging t next

/-- Puts middlewares around a handler, the first one outermost. -/
def stack (encode : List UInt8 → List UInt8) (ms : List Middleware) (h : Handler) : Handler :=
  ms.foldr (fun m next => m.around encode next) h

end KpiReport.Http
