import KpiReport.Http.Exchange

/-!
# The response that actions make

A response is recorded action by action. What comes out of it can be read off the actions at once:
its status is that of the first action which settles one, its header fields are those set before that
action, and its body is all that is written.

* **`Response.ofActions_eq`** — these three, which are all there is to a response.
* **`get_sentHeaders_of_spares`** — a header field that no action is about is not there.
* **`sentStatus_append_status`, `sentHeaders_append_status`** — if header fields are all that comes
  before a status, it counts, and so do they.
-/

namespace KpiReport.Http

/-! ## Header fields -/

namespace Headers

variable {name other : String}

theorem get_empty (name : String) : empty.get name = "" := rfl

/-- A header field that was set is read under every spelling of its name. -/
theorem get_set_of_eq (h : canonicalName other = canonicalName name) (hs : Headers)
    (value : String) : (hs.set name value).get other = value := by
  rw [get, set, h, Table.get?_insert_self, Option.getD_some]

theorem get_set_of_ne (h : canonicalName other ≠ canonicalName name) (hs : Headers)
    (value : String) : (hs.set name value).get other = hs.get other := by
  rw [get, set, Table.get?_insert_of_ne _ h, get]

theorem get_erase_of_ne (h : canonicalName other ≠ canonicalName name) (hs : Headers) :
    (hs.erase name).get other = hs.get other := by
  rw [get, erase, Table.get?_erase_of_ne _ h, get]

end Headers

/-! ## Single actions -/

namespace Action

/-- The status that an action settles if there is none yet. -/
def settles? : Action → Option Nat
  | setHeader .. | removeHeader _ => none
  | status code => some code
  | write _ => some 200

/-- The status that an action gives, whether or not it counts. -/
def code? : Action → Option Nat
  | status code => some code
  | setHeader .. | removeHeader _ | write _ => none

/-- The bytes that an action writes. -/
def bytes : Action → List UInt8
  | write bytes => bytes
  | setHeader .. | removeHeader _ | status _ => []

/-- An action is about header fields only. These are the actions that settle no status. -/
def isHeader (a : Action) : Bool :=
  a.settles?.isNone

/-- What an action does to header fields. -/
def onHeaders (hs : Headers) : Action → Headers
  | setHeader name value => hs.set name value
  | removeHeader name => hs.erase name
  | status _ | write _ => hs

/-- The action is not about that header field. -/
def Spares (field : String) : Action → Prop
  | setHeader name _ | removeHeader name => canonicalName field ≠ canonicalName name
  | status _ | write _ => True

theorem bytes_of_isHeader {a : Action} (h : a.isHeader = true) : a.bytes = [] := by
  cases a with
  | setHeader | removeHeader => rfl
  | status | write => cases h

theorem settles?_of_isHeader {a : Action} (h : a.isHeader = true) : a.settles? = none :=
  Option.isNone_iff_eq_none.1 h

/-- An action that is not about a header field leaves it as it is. -/
theorem get_onHeaders_of_spares {field : String} {a : Action} (h : a.Spares field)
    (hs : Headers) : (a.onHeaders hs).get field = hs.get field := by
  cases a with
  | setHeader name value => exact Headers.get_set_of_ne h hs value
  | removeHeader name => exact Headers.get_erase_of_ne h hs
  | status | write => rfl

end Action

/-! ## Lists of actions -/

/-- The status that counts: the first one that is settled, and success if there is none. Writing
settles success as well. -/
def sentStatus (as : List Action) : Nat :=
  (as.findSome? Action.settles?).getD 200

/-- The header fields that count: those set before the status is settled. Later ones reach
nobody. -/
def sentHeaders (as : List Action) : Headers :=
  (as.takeWhile Action.isHeader).foldl Action.onHeaders .empty

/-- All that is written. -/
def writtenBytes (as : List Action) : List UInt8 :=
  as.flatMap Action.bytes

@[simp] theorem writtenBytes_nil : writtenBytes [] = [] := rfl

@[simp] theorem writtenBytes_cons (a : Action) (as : List Action) :
    writtenBytes (a :: as) = a.bytes ++ writtenBytes as := rfl

@[simp] theorem writtenBytes_append (as bs : List Action) :
    writtenBytes (as ++ bs) = writtenBytes as ++ writtenBytes bs :=
  List.flatMap_append

/-- Leaving out actions that write nothing leaves all that is written. -/
theorem writtenBytes_filter {p : Action → Bool} (h : ∀ a, p a = false → a.bytes = [])
    (as : List Action) : writtenBytes (as.filter p) = writtenBytes as := by
  induction as with
  | nil => rfl
  | cons a as ih =>
    -- an action is left out only if it writes nothing
    cases hp : p a with
    | true => rw [List.filter_cons_of_pos hp, writtenBytes_cons, ih, writtenBytes_cons]
    | false =>
      rw [List.filter_cons_of_neg (Bool.eq_false_iff.1 hp), ih, writtenBytes_cons, h a hp,
        List.nil_append]

/-- Actions that are about header fields write nothing. -/
theorem writtenBytes_of_isHeader {as : List Action} (h : ∀ a ∈ as, a.isHeader = true) :
    writtenBytes as = [] :=
  List.flatMap_eq_nil_iff.2 fun a ha => Action.bytes_of_isHeader (h a ha)

/-! ## The recorder -/

namespace Recorder

/-- Once the status is settled, it stays and the header fields with it. Only the body grows. -/
theorem response_foldl_of_settled {r : Recorder} {code : Nat} {hs : Headers}
    (h : r.settled = some (code, hs)) (as : List Action) :
    (as.foldl act r).response = ⟨code, hs, r.body ++ writtenBytes as⟩ := by
  induction as generalizing r with
  | nil => simp [response, h]
  | cons a as ih =>
    -- a status that is settled is not settled again, and bytes go to the body
    have hsettled : (r.act a).settled = some (code, hs) := by
      cases a <;> simp [act, settle, h]
    have hbody : (r.act a).body = r.body ++ a.bytes := by
      cases a <;> simp [act, settle, h, Action.bytes]
    rw [List.foldl_cons, ih hsettled, hbody, writtenBytes_cons, List.append_assoc]

/-- Up to then header fields are set, and the first action of another kind settles the status. By
induction on the actions, until there is a status and the lemma before this one takes over. -/
theorem response_foldl_of_open {r : Recorder} (h : r.settled = none) (as : List Action) :
    (as.foldl act r).response =
      ⟨sentStatus as, (as.takeWhile Action.isHeader).foldl Action.onHeaders r.headers,
        r.body ++ writtenBytes as⟩ := by
  induction as generalizing r with
  | nil => simp [response, h, sentStatus]
  | cons a as ih =>
    rw [List.foldl_cons]
    cases a with
    | setHeader name value =>
      rw [ih (r := r.act (.setHeader name value)) h]
      rfl
    | removeHeader name =>
      rw [ih (r := r.act (.removeHeader name)) h]
      rfl
    -- the status is settled here, by the code that is given
    | status code =>
      have hsettled : (r.act (.status code)).settled = some (code, r.headers) := by
        simp [act, settle, h]
      have hbody : (r.act (.status code)).body = r.body := by
        simp [act, settle, h]
      rw [response_foldl_of_settled hsettled, hbody]
      rfl
    -- or here, as a success, by the bytes
    | write bytes =>
      have hsettled : (r.act (.write bytes)).settled = some (200, r.headers) := by
        simp [act, settle, h]
      have hbody : (r.act (.write bytes)).body = r.body ++ bytes := by
        simp [act, settle, h]
      rw [response_foldl_of_settled hsettled, hbody, List.append_assoc]
      rfl

end Recorder

/-- **What a response is.** The recorder is not looked at again: status, header fields and body are
read off the actions. -/
theorem Response.ofActions_eq (as : List Action) :
    Response.ofActions as = ⟨sentStatus as, sentHeaders as, writtenBytes as⟩ :=
  Recorder.response_foldl_of_open (r := .start) rfl as

theorem Response.status_ofActions (as : List Action) :
    (Response.ofActions as).status = sentStatus as :=
  congrArg Response.status (Response.ofActions_eq as)

/-! ## Parts of a response -/

/-- Actions that are not about a header field leave it as it is, one after the other. -/
theorem get_foldl_onHeaders_of_spares {field : String} {as : List Action}
    (h : ∀ a ∈ as, a.Spares field) (hs : Headers) :
    (as.foldl Action.onHeaders hs).get field = hs.get field := by
  induction as generalizing hs with
  | nil => rfl
  | cons a as ih =>
    rw [List.foldl_cons, ih fun b hb => h b (List.mem_cons_of_mem a hb),
      Action.get_onHeaders_of_spares (h a List.mem_cons_self)]

/-- A header field that no action is about is not there. -/
theorem get_sentHeaders_of_spares {field : String} {as : List Action}
    (h : ∀ a ∈ as, a.Spares field) : (sentHeaders as).get field = "" := by
  rw [sentHeaders, get_foldl_onHeaders_of_spares fun a ha =>
    h a ((List.takeWhile_prefix _).subset ha), Headers.get_empty]

section Append

variable {hs : List Action} (h : ∀ a ∈ hs, a.isHeader = true) (as : List Action)
include h

/-- Header fields in front do not settle a status. -/
theorem sentStatus_append : sentStatus (hs ++ as) = sentStatus as := by
  have hnone : hs.findSome? Action.settles? = none :=
    List.findSome?_eq_none_iff.2 fun a ha => Action.settles?_of_isHeader (h a ha)
  rw [sentStatus, List.findSome?_append, hnone, Option.none_or, sentStatus]

theorem sentStatus_append_status (code : Nat) : sentStatus (hs ++ .status code :: as) = code := by
  rw [sentStatus_append h]
  rfl

theorem sentHeaders_append_status (code : Nat) :
    sentHeaders (hs ++ .status code :: as) = hs.foldl Action.onHeaders .empty := by
  have hstop : (Action.status code :: as).takeWhile Action.isHeader = [] := rfl
  rw [sentHeaders, List.takeWhile_append_of_pos h, hstop, List.append_nil]

end Append

end KpiReport.Http
