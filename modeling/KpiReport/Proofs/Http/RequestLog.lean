import KpiReport.Proofs.Http.Transparency

/-!
# What the request log says of a response

The length in the log is that of all bytes written, which is what it should be. The status is another
matter: a response has the status that is given first, while the log shows the one given last. A
handler that answers and then fails gives a second status when it is too late for the client.

* **`loggedLength_eq`** — the length is right.
* **`loggedStatus_eq`** — the status is the last one that came too late, if there is any, and that
  of the response if not.
* **`sentStatus_stack`** — the client receives the status of the logged response through any
  middlewares that pass the request on.
* **`requestLog_truthful`** — so the log tells the truth exactly if the last late status, if there is
  one, repeats the first.
* **`status_logged_late`** — a response of which it does not.
-/

namespace KpiReport.Http

/-! ## The logged values -/

/-- The statuses that are given when there is one already. The first action that is not about header
fields settles one, so all codes behind it are late. -/
def lateCodes : List Action → List Nat
  | [] => []
  | a :: as => if a.isHeader then lateCodes as else as.filterMap Action.code?

/-- Numbers are logged as text, which loses nothing: the digits of a number read back. -/
theorem toString_eq_toString_iff {m n : Nat} : toString m = toString n ↔ m = n := by
  refine ⟨fun h => ?_, congrArg toString⟩
  -- the digits are read back to the number
  have hread : ∀ k, Nat.ofDigitChars 10 (toString k : String).toList 0 = k := fun k => by
    rw [Nat.toString_eq_ofList_toDigits, String.toList_ofList, Nat.ofDigitChars_ten_toDigits]
  rw [← hread m, h, hread]

/-- A sum to which every call adds the bytes that it writes. -/
theorem foldl_eq_add_length {f : Nat → Action → Nat} (hf : ∀ n a, f n a = n + a.bytes.length)
    (as : List Action) (n : Nat) : as.foldl f n = n + (writtenBytes as).length := by
  induction as generalizing n with
  | nil => rfl
  | cons a as ih =>
    rw [List.foldl_cons, ih, hf, writtenBytes_cons, List.length_append, Nat.add_assoc]

/-- The length in the log is that of all bytes written. -/
theorem loggedLength_eq (as : List Action) : loggedLength as = (writtenBytes as).length := by
  unfold loggedLength
  rw [foldl_eq_add_length (fun n a => by cases a <;> rfl), Nat.zero_add]

/-- A state that every code replaces ends as the last one. -/
theorem foldl_eq_getLast? {f : Nat → Action → Nat} (hf : ∀ n a, f n a = a.code?.getD n)
    (as : List Action) (n : Nat) :
    as.foldl f n = (as.filterMap Action.code?).getLast?.getD n := by
  induction as generalizing n with
  | nil => rfl
  | cons a as ih =>
    rw [List.foldl_cons, ih, hf, List.filterMap_cons]
    cases a.code? with
    | none => rfl
    | some code => rw [List.getLast?_cons, Option.getD_some, Option.getD_some]

/-- The last status that is given is the one that is logged. -/
theorem loggedStatus_eq_getLast? (as : List Action) :
    loggedStatus as = (as.filterMap Action.code?).getLast?.getD 200 :=
  foldl_eq_getLast? (fun n a => by cases a <;> rfl) as 200

/-- The log shows the last late status, and that of the response if none is late. By induction on
the actions, up to the first that settles a status. -/
theorem loggedStatus_eq (as : List Action) :
    loggedStatus as = (lateCodes as).getLast?.getD (sentStatus as) := by
  rw [loggedStatus_eq_getLast?]
  induction as with
  | nil => rfl
  | cons a as ih =>
    cases a with
    | setHeader name value => exact ih
    | removeHeader name => exact ih
    -- this is the first status, and the codes behind it are late
    | status code =>
      have hcodes : (Action.status code :: as).filterMap Action.code? =
          code :: as.filterMap Action.code? := rfl
      rw [hcodes, List.getLast?_cons, Option.getD_some]
      rfl
    -- a success is settled without a code, so all codes are late
    | write bytes => rfl

/-- The log shows the status of the response unless a late one differs from it. -/
theorem loggedStatus_eq_sentStatus_iff (as : List Action) :
    loggedStatus as = sentStatus as ↔ ∀ code ∈ (lateCodes as).getLast?, code = sentStatus as := by
  rw [loggedStatus_eq]
  cases (lateCodes as).getLast? with
  | none => simp
  | some code => simp

/-! ## What the client receives -/

/-- The middlewares pass the request on. -/
def Passes (r : Request) (ms : List Middleware) : Prop :=
  r.method = "OPTIONS" → ∀ origin, .cors origin ∉ ms

theorem Passes.tail {r : Request} {m : Middleware} {ms : List Middleware}
    (h : Passes r (m :: ms)) : Passes r ms :=
  fun hmethod origin hmem => h hmethod origin (List.mem_cons_of_mem m hmem)

/-- Middlewares that pass the request on leave the status as it is. By induction on the stack:
compression keeps the first status, permissions are header fields, and a log changes nothing. -/
theorem sentStatus_stack (encode : List UInt8 → List UInt8) {r : Request} {ms : List Middleware}
    (h : Passes r ms) (next : Handler) (st : Service.State) :
    sentStatus (stack encode ms next r st).1 = sentStatus (next r st).1 := by
  induction ms with
  | nil => rfl
  | cons m ms ih =>
    rw [← ih h.tail]
    cases m with
    | gzip =>
      refine (congrArg sentStatus (fst_gzip encode (stack encode ms next) r st)).trans ?_
      split
      · exact sentStatus_compress encode _
      · rfl
    | cors origin =>
      -- a request for permissions would have been answered here
      have hmethod : r.method ≠ "OPTIONS" := fun hm => h hm origin List.mem_cons_self
      refine (congrArg sentStatus (fst_cors hmethod origin (stack encode ms next) st)).trans ?_
      exact sentStatus_append (isHeader_permissions origin) _
    | log t => rfl

/-- **What the request log says.** A template is filled in with the number of bytes that the handler
has written and with a status. Below any middlewares that pass the request on, this is the status
that the client receives, exactly if no other one is given last after it is too late for the client.

A status comes too late once another one was given or bytes were written. -/
theorem requestLog_truthful (encode : List UInt8 → List UInt8) {r : Request}
    {outer : List Middleware} (hpass : Passes r outer) (t : LogTemplate) (next : Handler)
    (st : Service.State) :
    let as := (next r st).1
    let seen := Response.ofActions (stack encode outer (logging t next) r st).1
    let fields := logField r as
    (logging t next r st).2.log = (match t.render fields with
      | some line => (next r st).2.log.info line
      | none => (next r st).2.log.error "unable to log request: ") ∧
    fields "length" = some (toString (writtenBytes as).length) ∧
    fields "status" = some (toString ((lateCodes as).getLast?.getD seen.status)) ∧
    (fields "status" = some (toString seen.status) ↔
      ∀ code ∈ (lateCodes as).getLast?, code = seen.status) := by
  intro as seen fields
  have hseen : seen.status = sentStatus as := by
    have hresponse : seen.status = sentStatus (stack encode outer (logging t next) r st).1 :=
      Response.status_ofActions _
    rw [hresponse, sentStatus_stack encode hpass, fst_logging]
  have hstatus : fields "status" = some (toString (loggedStatus as)) := rfl
  have hlength : fields "length" = some (toString (loggedLength as)) := rfl
  refine ⟨rfl, ?_, ?_, ?_⟩
  · rw [hlength, loggedLength_eq]
  · rw [hstatus, hseen, loggedStatus_eq]
  · rw [hstatus, hseen, ← loggedStatus_eq_sentStatus_iff, Option.some_inj,
      toString_eq_toString_iff]

/-- A late status that repeats the first, below compression. Another one lies in between, and it
does not count: only the last late status is logged. -/
theorem requestLog_truthful_repeated :
    let encode : List UInt8 → List UInt8 := fun bytes => 0 :: bytes
    let next : Handler := fun _ st =>
      ([.status 404, .write [120], .status 500, .write [121], .status 404], st)
    let r := Request.make "OPTIONS" "/" [("Accept-Encoding", "gzip")] ""
    let as := (next r default).1
    let t : LogTemplate := .fallback
    let seen := Response.ofActions (stack encode [.gzip] (logging t next) r default).1
    Passes r [.gzip] ∧ lateCodes as = [500, 404] ∧ seen.status = 404 ∧
      logField r as "status" = some "404" ∧ logField r as "length" = some "2" := by
  intro encode next r as t seen
  have hpass : Passes r [.gzip] := by simp [Passes]
  have hseen : seen.status = 404 := by decide +kernel
  obtain ⟨-, hlength, -, hstatus⟩ := requestLog_truthful encode hpass t next default
  refine ⟨hpass, rfl, hseen, ?_, hlength.trans (by decide +kernel)⟩
  have hlast : (lateCodes as).getLast? = some 404 := rfl
  have htold : logField r as "status" = some (toString seen.status) := by
    rw [hstatus, hlast]
    exact fun code hcode => (Option.some.inj hcode).symm.trans hseen.symm
  rw [htold, hseen]
  rfl

/-- **The log can be wrong.** A handler that fails after it has written something has answered with
a success, and the log shows a failure. -/
theorem status_logged_late :
    let next : Handler := fun _ st => ([.write [120], .status 500], st)
    let r := Request.make "GET" "/" [] ""
    let t : LogTemplate := [.field "status".toList [] false]
    let st : Service.State := ⟨.zero, .ofLevel .info⟩
    (Response.ofActions (logging t next r st).1).status = 200 ∧
      logField r (next r st).1 "status" = some "500" ∧
      (logging t next r st).2.log.entries = [⟨.info, "500", []⟩] := by
  intro next r t st
  exact ⟨rfl, by decide +kernel, by decide +kernel⟩

end KpiReport.Http
