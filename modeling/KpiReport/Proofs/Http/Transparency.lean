import KpiReport.Http.Middleware
import KpiReport.Proofs.Http.Response

/-!
# Middlewares are transparent to responses

Compression holds a response back until its status is known, and sends the body of a success in one
piece at the end. Permissions are set in front of a response, and the log only looks at it. What a
client receives through all three is what the handler answers, the body possibly encoded.

* **`compress_of_success`, `compress_of_failure`** — what compression makes of a response: the
  header fields and one encoded body, or all but the statuses that come too late.
* **`sentStatus_compress`** — either way the first status counts, as it does without compression.
* **`stack_transparent`** — the statement about the whole stack, for all handlers, templates and
  origins.
-/

namespace KpiReport.Http

/-! ## Tests on requests and codes -/

/-- A success is a code of three digits that begins with two. -/
theorem isSuccess_iff {code : Nat} : isSuccess code = true ↔ 200 ≤ code ∧ code < 300 := by
  simp only [isSuccess, beq_iff_eq]
  omega

/-- The test goes through the text and looks for the other at each place. -/
theorem hasInfix_iff {s t : List Char} : hasInfix s t = true ↔ t <:+: s := by
  induction s with
  | nil => simp [hasInfix, List.infix_nil]
  | cons c r ih =>
    rw [hasInfix, Bool.or_eq_true, List.isPrefixOf_iff_prefix, ih, List.infix_cons_iff]

/-- A client takes compressed bodies if the header field says so anywhere, whatever stands around
it. -/
theorem acceptsGzip_iff {r : Request} : acceptsGzip r = true ↔
    "gzip".toList <:+: (r.headers.get "Accept-Encoding").toList :=
  hasInfix_iff

/-! ## Compression -/

section Compress

variable (encode : List UInt8 → List UInt8)

/-- Header fields pass, whatever is known of the status. -/
theorem compressFrom_of_isHeader {a : Action} (h : a.isHeader = true) (code : Option Nat)
    (held : List UInt8) (as : List Action) :
    compressFrom encode code held (a :: as) = a :: compressFrom encode code held as := by
  cases a with
  | setHeader | removeHeader => rw [compressFrom]
  | status | write => cases h

/-- Once a success is known, the body is held back to the end and later statuses are dropped. By
induction on the actions, with what is held back growing. -/
theorem compressFrom_of_success {code : Nat} (h : isSuccess code = true) (held : List UInt8)
    (as : List Action) :
    compressFrom encode (some code) held as =
      as.filter Action.isHeader ++ sendCompressed encode code (held ++ writtenBytes as) := by
  induction as generalizing held with
  | nil => simp [compressFrom, h]
  | cons a as ih =>
    cases a with
    | setHeader | removeHeader | status =>
      rw [compressFrom, ih]
      rfl
    -- the bytes are held back with those before them
    | write bytes =>
      rw [compressFrom, Option.getD_some, if_pos h, ih, List.append_assoc]
      rfl

/-- Once it is known that the response is no success, only later statuses are dropped. What was held
back until then is none: bytes would have settled a success. -/
theorem compressFrom_of_failure {code : Nat} (h : isSuccess code = false) (held : List UInt8)
    (as : List Action) :
    compressFrom encode (some code) held as = as.filter fun a => a.code?.isNone := by
  have hne : ¬ isSuccess code = true := Bool.eq_false_iff.1 h
  induction as with
  | nil => simp [compressFrom, h]
  | cons a as ih =>
    cases a with
    | setHeader | removeHeader | status =>
      rw [compressFrom, ih]
      rfl
    -- the bytes pass at once
    | write bytes =>
      rw [compressFrom, Option.getD_some, if_neg hne, ih]
      rfl

/-- The response to a success is made of the header fields and one compressed body, which is that of
all bytes together. -/
theorem compress_of_success {as : List Action} (h : isSuccess (sentStatus as) = true) :
    compress encode as =
      as.filter Action.isHeader ++ sendCompressed encode (sentStatus as) (writtenBytes as) := by
  unfold compress
  induction as with
  | nil => rfl
  | cons a as ih =>
    -- up to the first status or the first bytes nothing is decided
    cases a with
    | setHeader | removeHeader =>
      rw [compressFrom, ih h]
      rfl
    | status c =>
      have hc : isSuccess c = true := h
      rw [compressFrom, if_pos hc, compressFrom_of_success encode hc]
      rfl
    | write bytes =>
      have h200 : isSuccess 200 = true := rfl
      rw [compressFrom, Option.getD_none, if_pos h200, compressFrom_of_success encode h200]
      rfl

/-- Any other response starts with a status, which counts, and passes but for later ones. It cannot
start with bytes, as these settle a success. -/
theorem compress_of_failure {as : List Action} (h : isSuccess (sentStatus as) = false) :
    ∃ hs code rest, (∀ a ∈ hs, a.isHeader = true) ∧ as = hs ++ .status code :: rest ∧
      compress encode as = hs ++ .status code :: rest.filter fun a => a.code?.isNone := by
  unfold compress
  induction as with
  | nil => exact absurd h (by decide)
  | cons a as ih =>
    cases ha : a.isHeader with
    -- header fields pass, and the status comes further on
    | true =>
      rw [← List.singleton_append, sentStatus_append (List.forall_mem_singleton.2 ha)] at h
      obtain ⟨hs, code, rest, hhs, has, hcompress⟩ := ih h
      refine ⟨a :: hs, code, rest, List.forall_mem_cons.2 ⟨ha, hhs⟩, ?_, ?_⟩
      · rw [has, List.cons_append]
      · rw [compressFrom_of_isHeader encode ha, hcompress, List.cons_append]
    | false =>
      cases a with
      | setHeader | removeHeader => cases ha
      -- this is the status that counts, and it is no success
      | status c =>
        have hc : isSuccess c = false := h
        refine ⟨[], c, as, nofun, rfl, ?_⟩
        rw [compressFrom, hc, compressFrom_of_failure encode hc]
        rfl
      -- bytes would settle a success
      | write bytes =>
        have h200 : isSuccess 200 = false := h
        exact absurd h200 (by decide)

/-- A response that is no success is the same with compression. -/
theorem ofActions_compress_of_failure {as : List Action} (h : isSuccess (sentStatus as) = false) :
    Response.ofActions (compress encode as) = Response.ofActions as := by
  obtain ⟨hs, code, rest, hhs, has, hcompress⟩ := compress_of_failure encode h
  -- what is dropped are statuses, and these write nothing
  have hlate : ∀ a : Action, a.code?.isNone = false → a.bytes = [] := by
    intro a ha
    cases a with
    | setHeader | removeHeader | status => rfl
    | write => cases ha
  rw [hcompress, has, Response.ofActions_eq, Response.ofActions_eq, sentStatus_append_status hhs,
    sentStatus_append_status hhs, sentHeaders_append_status hhs, sentHeaders_append_status hhs]
  simp [writtenBytes_filter hlate]

/-- What the header fields say of an encoded body. -/
def encodedFields (bytes : List UInt8) : List Action :=
  [.setHeader "Content-Encoding" "gzip", .setHeader "Content-Length" (toString bytes.length),
    .removeHeader "Accept-Ranges"]

theorem isHeader_encodedFields (bytes : List UInt8) :
    ∀ a ∈ encodedFields bytes, a.isHeader = true := by
  simp [encodedFields, Action.isHeader, Action.settles?]

/-- The header fields of an encoded body say that it is encoded, and neither of the other two takes
that back. -/
theorem get_foldl_encodedFields (bytes : List UInt8) (hs : Headers) :
    ((encodedFields bytes).foldl Action.onHeaders hs).get "Content-Encoding" = "gzip" := by
  have hlength : canonicalName "Content-Encoding" ≠ canonicalName "Content-Length" := by
    decide +kernel
  have hranges : canonicalName "Content-Encoding" ≠ canonicalName "Accept-Ranges" := by
    decide +kernel
  simp only [encodedFields, List.foldl_cons, List.foldl_nil, Action.onHeaders]
  rw [Headers.get_erase_of_ne hranges, Headers.get_set_of_ne hlength, Headers.get_set_of_eq rfl]

/-- A success has its header fields with compression, and those of the encoded body. Header fields
that are set too late for the response without compression are set in time for this one. -/
theorem ofActions_compress_of_success {as : List Action} (h : isSuccess (sentStatus as) = true) :
    Response.ofActions (compress encode as) =
      { status := sentStatus as
        headers := (as.filter Action.isHeader ++ encodedFields (encode (writtenBytes as))).foldl
          Action.onHeaders .empty
        body := encode (writtenBytes as) } := by
  have hfields : ∀ a ∈ as.filter Action.isHeader ++ encodedFields (encode (writtenBytes as)),
      a.isHeader = true :=
    List.forall_mem_append.2 ⟨fun a ha => (List.mem_filter.1 ha).2, isHeader_encodedFields _⟩
  -- header fields first, then one status and one body
  have hsplit : compress encode as =
      (as.filter Action.isHeader ++ encodedFields (encode (writtenBytes as))) ++
        .status (sentStatus as) :: [.write (encode (writtenBytes as))] := by
    rw [compress_of_success encode h, List.append_assoc]
    rfl
  rw [hsplit, Response.ofActions_eq, sentStatus_append_status hfields,
    sentHeaders_append_status hfields, writtenBytes_append, writtenBytes_of_isHeader hfields]
  simp [Action.bytes]

/-- Compression leaves the status as it is. -/
theorem sentStatus_compress (as : List Action) :
    sentStatus (compress encode as) = sentStatus as := by
  rw [← Response.status_ofActions]
  cases h : isSuccess (sentStatus as) with
  | true => rw [ofActions_compress_of_success encode h]
  | false => rw [ofActions_compress_of_failure encode h, Response.status_ofActions]

end Compress

/-! ## Single middlewares -/

theorem fst_gzip (encode : List UInt8 → List UInt8) (next : Handler) (r : Request)
    (st : Service.State) : (gzip encode next r st).1 =
      if acceptsGzip r then compress encode (next r st).1 else (next r st).1 := by
  unfold gzip
  split <;> rfl

/-- Permissions are set in front of a response, unless the request asks for nothing else. -/
theorem fst_cors {r : Request} (h : r.method ≠ "OPTIONS") (origin : String) (next : Handler)
    (st : Service.State) : (cors origin next r st).1 = permissions origin ++ (next r st).1 := by
  rw [cors, if_neg h]

theorem fst_logging (t : LogTemplate) (next : Handler) (r : Request) (st : Service.State) :
    (logging t next r st).1 = (next r st).1 := rfl

theorem isHeader_permissions (origin : String) : ∀ a ∈ permissions origin, a.isHeader = true := by
  simp [permissions, Action.isHeader, Action.settles?]

theorem spares_permissions (origin : String) :
    ∀ a ∈ permissions origin, a.Spares "Content-Encoding" := by
  intro a ha
  simp only [permissions, List.mem_cons, List.not_mem_nil, or_false] at ha
  rcases ha with rfl | rfl | rfl | rfl
  all_goals
    rw [Action.Spares]
    decide +kernel

/-- A template that cannot be read is replaced, so there always is one to log with. -/
theorem exists_prepareAll (origin template : String) (journal : Log) :
    ∃ t, (Layer.prepareAll [.gzip, .cors origin, .log template] journal).1 =
      [.gzip, .cors origin, .log t] := by
  simp only [Layer.prepareAll, Layer.prepare]
  split <;> exact ⟨_, rfl⟩

/-! ## The stack -/

/-- The body is compressed. -/
def Response.isCompressed (r : Response) : Bool :=
  r.headers.get "Content-Encoding" == "gzip"

/-- The body of a response, as it was before it was compressed. -/
def Response.content (decode : List UInt8 → List UInt8) (r : Response) : List UInt8 :=
  if r.isCompressed then decode r.body else r.body

/-- What a client may expect of the actions `sent` in answer to a request, if the handler behind the
middlewares acts as in `as`. -/
structure Transparent (encode decode : List UInt8 → List UInt8) (origin : String) (r : Request)
    (as sent : List Action) : Prop where
  status : (Response.ofActions sent).status = (Response.ofActions as).status
  content : (Response.ofActions sent).content decode = (Response.ofActions as).body
  compressed_iff : (Response.ofActions sent).isCompressed = true ↔
    "gzip".toList <:+: (r.headers.get "Accept-Encoding").toList ∧
      200 ≤ (Response.ofActions as).status ∧ (Response.ofActions as).status < 300
  /-- A compressed body is that of all bytes together, and is sent under one status. -/
  compressed : (Response.ofActions sent).isCompressed = true →
    (Response.ofActions sent).body = encode (writtenBytes as) ∧
      sent.filterMap Action.code? = [(Response.ofActions as).status]
  /-- Any other response passes, with the permissions in front. -/
  passed : (Response.ofActions sent).isCompressed = false →
    Response.ofActions sent = Response.ofActions (permissions origin ++ as)

section Stack

variable {encode decode : List UInt8 → List UInt8}

/-- A response that nobody has said to be encoded is not compressed. -/
theorem isCompressed_of_spares {as : List Action} (h : ∀ a ∈ as, a.Spares "Content-Encoding") :
    (Response.ofActions as).isCompressed = false := by
  rw [Response.ofActions_eq, Response.isCompressed, get_sentHeaders_of_spares h]
  rfl

theorem isCompressed_compress_of_success (encode : List UInt8 → List UInt8) {as : List Action}
    (h : isSuccess (sentStatus as) = true) :
    (Response.ofActions (compress encode as)).isCompressed = true := by
  rw [ofActions_compress_of_success encode h, Response.isCompressed, List.foldl_append,
    get_foldl_encodedFields]
  rfl

/-- Header fields and one compressed body have one status between them. -/
theorem code?_compress_of_success (encode : List UInt8 → List UInt8) {as : List Action}
    (h : isSuccess (sentStatus as) = true) :
    (compress encode as).filterMap Action.code? = [sentStatus as] := by
  have hnone : (as.filter Action.isHeader).filterMap Action.code? = [] := by
    rw [List.filterMap_eq_nil_iff]
    intro a ha
    have hheader := (List.mem_filter.1 ha).2
    cases a with
    | setHeader | removeHeader | write => rfl
    | status => cases hheader
  rw [compress_of_success encode h, List.filterMap_append, hnone]
  rfl

/-- A response that is not compressed is transparent as it is. Either the client does not take
compressed bodies, or the response is no success. -/
theorem transparent_of_passed {origin : String} {r : Request} {as sent : List Action}
    (hspares : ∀ a ∈ as, a.Spares "Content-Encoding")
    (hsent : Response.ofActions sent = Response.ofActions (permissions origin ++ as))
    (h : ¬ (acceptsGzip r = true ∧ isSuccess (sentStatus as) = true)) :
    Transparent encode decode origin r as sent := by
  have hpart := Response.ofActions_eq (permissions origin ++ as)
  rw [sentStatus_append (isHeader_permissions origin), writtenBytes_append,
    writtenBytes_of_isHeader (isHeader_permissions origin), List.nil_append] at hpart
  -- nobody has said that the body is encoded
  have hplain : (Response.ofActions sent).isCompressed = false := by
    rw [hsent]
    exact isCompressed_of_spares (List.forall_mem_append.2 ⟨spares_permissions origin, hspares⟩)
  have hbare := Response.ofActions_eq as
  constructor
  · rw [hsent, hpart, hbare]
  · rw [Response.content, hplain, hsent, hpart, hbare]
    rfl
  · rw [hplain, hbare, ← acceptsGzip_iff, ← isSuccess_iff]
    exact iff_of_false Bool.false_ne_true h
  · intro hcompressed
    rw [hplain] at hcompressed
    cases hcompressed
  · exact fun _ => hsent

/-- A success that is compressed is transparent, as far as decoding undoes encoding. The permissions
in front are header fields, so neither the status nor the body is theirs. -/
theorem transparent_compress (hcodec : ∀ bytes, decode (encode bytes) = bytes) {origin : String}
    {r : Request} {as : List Action} (hr : acceptsGzip r = true)
    (h : isSuccess (sentStatus as) = true) :
    Transparent encode decode origin r as (compress encode (permissions origin ++ as)) := by
  -- the permissions in front settle no status and write nothing
  have hstatus : sentStatus (permissions origin ++ as) = sentStatus as :=
    sentStatus_append (isHeader_permissions origin) as
  have hbytes : writtenBytes (permissions origin ++ as) = writtenBytes as := by
    rw [writtenBytes_append, writtenBytes_of_isHeader (isHeader_permissions origin),
      List.nil_append]
  have hsuccess : isSuccess (sentStatus (permissions origin ++ as)) = true := by rwa [hstatus]
  have hcompressed := isCompressed_compress_of_success encode hsuccess
  have hseen := ofActions_compress_of_success encode hsuccess
  have hbare := Response.ofActions_eq as
  constructor
  · rw [hseen, hbare, hstatus]
  · rw [Response.content, hcompressed, if_pos rfl, hseen, hbare, hbytes]
    exact hcodec _
  · rw [hcompressed, hbare, ← acceptsGzip_iff, ← isSuccess_iff]
    exact iff_of_true rfl ⟨hr, h⟩
  · intro _
    rw [code?_compress_of_success encode hsuccess, hseen, hbare, hstatus, hbytes]
    exact ⟨rfl, rfl⟩
  · intro hplain
    rw [hcompressed] at hplain
    cases hplain

/-- **Middlewares are transparent to responses.** Whatever a handler answers, under compression
around permissions around the log the client receives the same status and, once it is decoded, the
same body. It is compressed exactly for requests that take compressed bodies and for successes, and
otherwise the response is that of the handler with the permissions.

The request is not one for permissions, which are answered without the handler, and the handler does
not itself say how its body is encoded. -/
theorem stack_transparent (hcodec : ∀ bytes, decode (encode bytes) = bytes) (next : Handler)
    {r : Request} (hmethod : r.method ≠ "OPTIONS") (st : Service.State)
    (hspares : ∀ a ∈ (next r st).1, a.Spares "Content-Encoding") (origin template : String)
    (journal : Log) :
    Transparent encode decode origin r (next r st).1
      (stack encode (Layer.prepareAll [.gzip, .cors origin, .log template] journal).1
        next r st).1 := by
  obtain ⟨t, ht⟩ := exists_prepareAll origin template journal
  -- the three middlewares, from the inside to the outside
  have hsent : (stack encode [.gzip, .cors origin, .log t] next r st).1 =
      if acceptsGzip r then compress encode (permissions origin ++ (next r st).1)
      else permissions origin ++ (next r st).1 := by
    have hinner : (stack encode [.cors origin, .log t] next r st).1 =
        permissions origin ++ (next r st).1 := fst_cors hmethod origin (logging t next) st
    exact (fst_gzip encode (stack encode [.cors origin, .log t] next) r st).trans (by rw [hinner])
  rw [ht, hsent]
  cases hr : acceptsGzip r with
  | false => exact transparent_of_passed hspares rfl fun h => Bool.false_ne_true (hr ▸ h.1)
  | true =>
    rw [if_pos rfl]
    cases h : isSuccess (sentStatus (next r st).1) with
    | true => exact transparent_compress hcodec hr h
    | false =>
      have hfail : isSuccess (sentStatus (permissions origin ++ (next r st).1)) = false := by
        rwa [sentStatus_append (isHeader_permissions origin)]
      refine transparent_of_passed hspares (ofActions_compress_of_failure encode hfail) fun hboth => ?_
      exact Bool.false_ne_true (h ▸ hboth.2)

/-- A body that is written in two parts, with a status in between that comes too late. The client
gets the first status and both parts, compressed as one. -/
theorem stack_transparent_parts :
    let hello : List UInt8 := [104, 101, 108, 108, 111]
    let packed : List UInt8 := [31, 139, 8, 0, 0, 0, 0, 0, 0, 255, 202, 72, 205, 201, 201, 7, 4, 0,
      0, 255, 255, 134, 166, 16, 54, 5, 0, 0, 0]
    let encode : List UInt8 → List UInt8 := fun bytes => if bytes = hello then packed else 0 :: bytes
    let decode : List UInt8 → List UInt8 := fun bytes => if bytes = packed then hello else bytes.tail
    let next : Handler := fun _ st =>
      ([.status 201, .write [104, 101], .status 500, .write [108, 108, 111]], st)
    let r := Request.make "GET" "/" [("accept-encoding", "deflate, gzip;q=1.0")] ""
    let layers : List Layer := [.gzip, .cors "", .log "\x7b\x7b.status\x7d\x7d"]
    let seen := Response.ofActions (stack encode (Layer.prepareAll layers default).1 next r default).1
    seen.status = 201 ∧ seen.isCompressed = true ∧ seen.body = packed ∧
      seen.content decode = hello := by
  intro hello packed encode decode next r layers seen
  have hcodec : ∀ bytes, decode (encode bytes) = bytes := by
    intro bytes
    by_cases h : bytes = hello
    · simp [encode, decode, h]
    · simp [encode, decode, h, packed]
  have hspares : ∀ a ∈ (next r default).1, a.Spares "Content-Encoding" := by
    simp [next, Action.Spares]
  have htransparent := stack_transparent hcodec next (r := r) (by decide) default hspares ""
    "\x7b\x7b.status\x7d\x7d" default
  -- the first status counts, and the two parts are one body
  have hbare : Response.ofActions (next r default).1 = ⟨201, .empty, hello⟩ := rfl
  have hgzip : acceptsGzip r = true := by decide +kernel
  have hcompressed : seen.isCompressed = true := by
    rw [htransparent.compressed_iff, hbare]
    exact ⟨acceptsGzip_iff.1 hgzip, by decide⟩
  have hbody : seen.body = encode hello := (htransparent.compressed hcompressed).1
  refine ⟨htransparent.status.trans (by rw [hbare]), hcompressed, hbody.trans (if_pos rfl), ?_⟩
  exact htransparent.content.trans (by rw [hbare])

end Stack

end KpiReport.Http
