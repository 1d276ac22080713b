import KpiReport.Http.Url
import KpiReport.Table

/-!
# Requests and responses

A response is built by a sequence of actions: setting header fields, giving a status, writing
bytes. The first status counts, and bytes written without one imply success. Header fields count
as they are at that moment; what is set later comes too late.
-/

namespace KpiReport.Http

/-- A character that can stand in the name of a header field. -/
def isTokenChar (c : Char) : Bool :=
  c.isAlphanum || "!#$%&'*+-.^_|~\x60".toList.contains c

/-- Letters in lower case, except at the start and after a dash. -/
def capitalize (upper : Bool) : List Char → List Char
  | [] => []
  | c :: r => (if upper then c.toUpper else c.toLower) :: capitalize (c == '-') r

/-- The usual spelling of the name of a header field. A name that is none stays as it is. -/
def canonicalName (name : String) : String :=
  if name.toList.all isTokenChar then String.ofList (capitalize true name.toList) else name

/-- Header fields under their usual names. -/
structure Headers where
  table : Table String
deriving DecidableEq, Repr

namespace Headers

/-- No header fields. -/
def empty : Headers := ⟨.empty⟩

instance : Inhabited Headers := ⟨empty⟩

/-- The value of a field, empty if there is none. -/
def get (h : Headers) (name : String) : String :=
  (h.table.get? (canonicalName name)).getD ""

/-- Sets a field, in place of an earlier value. -/
def set (h : Headers) (name value : String) : Headers :=
  ⟨h.table.insert (canonicalName name) value⟩

/-- Takes a field away. -/
def erase (h : Headers) (name : String) : Headers :=
  ⟨h.table.erase (canonicalName name)⟩

/-- The fields of a list. -/
def ofList (l : List (String × String)) : Headers :=
  l.foldl (fun h p => h.set p.1 p.2) empty

end Headers

/-- A request. -/
structure Request where
  method : String
  url : Url
  headers : Headers
  body : String

namespace Request

/-- The host of requests that name none. -/
def defaultHost : String := "example.com"

/-- The version of the protocol. -/
def protocol : String := "HTTP/1.1"

/-- The host that a request goes to. -/
def host (r : Request) : String :=
  if r.url.host = "" then defaultHost else r.url.host

/-- A request for a target. -/
def make (method target : String) (headers : List (String × String)) (body : String) : Request :=
  ⟨if method = "" then "GET" else method, .parse target, .ofList headers, body⟩

end Request

/-- A step of building a response. -/
inductive Action where
  | setHeader (name value : String)
  | removeHeader (name : String)
  | status (code : Nat)
  | write (bytes : List UInt8)
deriving DecidableEq, Repr

/-- Writing a text. -/
def Action.writeText (s : String) : Action := .write (Url.bytesOf s)

/-- A response. -/
structure Response where
  status : Nat
  headers : Headers
  body : List UInt8
deriving DecidableEq, Repr

/-- A response in the making. Once the status is known, it and the header fields are settled. -/
structure Recorder where
  headers : Headers
  settled : Option (Nat × Headers)
  body : List UInt8

namespace Recorder

/-- Nothing is recorded yet. -/
def start : Recorder := ⟨.empty, none, []⟩

/-- Settles the status, if it is not settled already. -/
def settle (r : Recorder) (code : Nat) : Recorder :=
  match r.settled with
  | some _ => r
  | none => { r with settled := some (code, r.headers) }

/-- Records an action. -/
def act (r : Recorder) : Action → Recorder
  | .setHeader name value => { r with headers := r.headers.set name value }
  | .removeHeader name => { r with headers := r.headers.erase name }
  | .status code => r.settle code
  | .write bytes =>
    let r := r.settle 200
    { r with body := r.body ++ bytes }

/-- The response as it stands; without a status it is a success. -/
def response (r : Recorder) : Response :=
  let (status, headers) := r.settled.getD (200, r.headers)
  ⟨status, headers, r.body⟩

end Recorder

/-- The response that actions make. -/
def Response.ofActions (as : List Action) : Response :=
  (as.foldl Recorder.act .start).response

end KpiReport.Http
