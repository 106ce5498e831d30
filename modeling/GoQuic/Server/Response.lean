import GoQuic.Http.Header
import GoQuic.Io.Bufio

/-!
# Responses of the server

`SimpleServerStream.ProcessRequest` (`datastream_server.go:66–141`) runs the handler on a
goroutine of its own with a `spdyResponseWriter`, whose writes go through a `bufio.Writer` into a
`spdyResponseBufferedWriter`. Neither writer calls the stream: each sends a closure on
`sessionFnChan`, and the session's goroutine runs the closures in the order they were sent. The
handler is any sequence of header edits, `WriteHeader`, `Write` and `Flush` (`HandlerOp`).

`WriteHeader` is called only from the handler, directly or through its first `Write`. So the
stream gets a `WriteHeader` exactly when `:path` parses and the handler writes or calls
`WriteHeader` (`response_has_header_iff`): a handler that does neither gets the final call alone,
and a `:path` that `url.ParseRequestURI` rejects gets nothing. When the handler does start the
response, the stream gets one `WriteHeader` with `:status` and the headers set before it, the body
in `WriteOrBufferData` frames, and one final call: `WriteTrailers` with the headers the handler
set after `WriteHeader` (`lookup_trailersOf`), or an empty frame with the FIN when there are none
(`response_shape`).
-/

namespace GoQuic

open GoString

/-- A call of the session on `QuicServerStream` (`quicstream_server.go:21–54`). -/
inductive StreamCall where
  | writeHeader (header : Header) (isBodyEmpty : Bool)
  | writeOrBufferData (body : GoString) (fin : Bool)
  | writeTrailers (header : Header)
  deriving DecidableEq

/-- A closure sent on `sessionFnChan`, with what it captured. -/
inductive SessionFn where
  /-- The closure of `spdyResponseWriter.WriteHeader` (`datastream_server.go:186–193`). -/
  | writeHeader (copiedHeader : Header) (statusCode : Int)
  /-- The closure of `spdyResponseBufferedWriter.Write` (`datastream_server.go:215–220`). -/
  | write (copiedBuf : GoString)
  /-- The last closure of `ProcessRequest`'s goroutine (`datastream_server.go:122–139`). -/
  | finish
  deriving DecidableEq

/-- `cloneHeader` (`datastream_server.go:171–179`): a new map with copies of the value slices,
so the same header as a value. -/
def cloneHeader (h : Header) : Header := h

/-- `http.StatusOK`. -/
def StatusOK : Int := 200

/-- `spdyResponseWriter` (`datastream_server.go:150–157`) on the handler's goroutine, with the
closures sent on `sessionFnChan` so far. Its `headerSent` is read only on the session's
goroutine, which keeps it (`SessionFn.run`). -/
structure SpdyResponseWriter where
  header : Header
  wroteHeader : Bool
  w : Bufio.Writer UInt8
  sent : List SessionFn

namespace SpdyResponseWriter

/-- `spdyResponseBufferedWriter.Write` (`datastream_server.go:211–222`) on each chunk the
`bufio.Writer` passes on: a closure with a copy of the chunk. It never fails. -/
def sendChunks (w : SpdyResponseWriter) (chunks : List GoString) : SpdyResponseWriter :=
  { w with sent := w.sent ++ chunks.map .write }

/-- `spdyResponseWriter.WriteHeader` (`datastream_server.go:181–196`). -/
def WriteHeader (w : SpdyResponseWriter) (statusCode : Int) : SpdyResponseWriter :=
  if w.wroteHeader then w
  else
    { w with
      sent := w.sent ++ [.writeHeader (cloneHeader w.header) statusCode]
      wroteHeader := true }

/-- `spdyResponseWriter.Write` (`datastream_server.go:163–169`). -/
def Write (w : SpdyResponseWriter) (buffer : GoString) : SpdyResponseWriter :=
  let w := if !w.wroteHeader then w.WriteHeader StatusOK else w
  let r := w.w.Write buffer
  { w with w := r.1 }.sendChunks r.2

/-- `spdyResponseWriter.Flush` (`datastream_server.go:202–204`). -/
def Flush (w : SpdyResponseWriter) : SpdyResponseWriter :=
  let r := w.w.Flush
  { w with w := r.1 }.sendChunks r.2

end SpdyResponseWriter

/-- What a handler does with its `http.ResponseWriter`. Edits of the map `Header()` returns
leave some header in it. -/
inductive HandlerOp where
  | setHeader (h : Header)
  | writeHeader (statusCode : Int)
  | write (buffer : GoString)
  | flush

namespace HandlerOp

def run : HandlerOp → SpdyResponseWriter → SpdyResponseWriter
  | .setHeader h, w => { w with header := h }
  | .writeHeader statusCode, w => w.WriteHeader statusCode
  | .write buffer, w => w.Write buffer
  | .flush, w => w.Flush

/-- The operations that call `WriteHeader`. -/
def startsResponse : HandlerOp → Bool
  | .writeHeader _ | .write _ => true
  | _ => false

/-- The bytes an operation writes. -/
def written : HandlerOp → GoString
  | .write buffer => buffer
  | _ => []

end HandlerOp

/-- `bufio.NewWriter`'s buffer size. -/
def defaultBufSize : Nat := 4096

/-- The writer before the handler runs. -/
def SpdyResponseWriter.new : SpdyResponseWriter :=
  ⟨∅, false, Bufio.Writer.new defaultBufSize, []⟩

/-- The goroutine of `ProcessRequest` (`datastream_server.go:98–140`) for a handler that performs
`ops`: the writer it ends with, and the closures it sends, the last one ending the response.
`w.w.Flush()` cannot fail, since `spdyResponseBufferedWriter.Write` never does. -/
def serve (ops : List HandlerOp) : SpdyResponseWriter × List SessionFn :=
  let w := (ops.foldl (fun w op => op.run w) SpdyResponseWriter.new).Flush
  (w, w.sent ++ [.finish])

/-- `Header.Get` on a key `CanonicalMIMEHeaderKey` leaves as it is: the first value, or `""`. -/
def Header.Get (h : Header) (key : GoString) : GoString := ((h.lookup key).bind List.head?).getD []

/-- `ProcessRequest` (`datastream_server.go:66–141`) on a request with headers `header`, for a
handler that performs `ops`. When `url.ParseRequestURI` (`requestURIOk`) rejects `:path`, it
prints the error and returns, and no goroutine starts. The request built for the handler is what
the handler reads; since `ops` is arbitrary, nothing else of it is kept. -/
def ProcessRequest (requestURIOk : GoString → Bool) (header : Header) (ops : List HandlerOp) :
    Option (SpdyResponseWriter × List SessionFn) :=
  if requestURIOk (header.Get (ascii ":path")) then some (serve ops) else none

/-- The trailers of the last closure (`datastream_server.go:127–132`): the entries of the
writer's header whose key is not in `headerSent`. -/
def trailersOf (header headerSent : Header) : Header :=
  header.foldl
    (fun trailers key v => if key ∈ headerSent then trailers else trailers.insert key v) ∅

/-- What the last closure asks of the stream (`datastream_server.go:127–138`). -/
def finishCalls (header headerSent : Header) : List StreamCall :=
  let trailers := trailersOf header headerSent
  if 0 < trailers.entries.length then [.writeTrailers trailers] else [.writeOrBufferData [] true]

/-- `copiedHeader` as `WriteHeader`'s closure completes it. -/
def sentHeader (copiedHeader : Header) (statusCode : Int) : Header :=
  (copiedHeader.Set (ascii ":status") (Itoa statusCode)).Set (ascii ":version") (ascii "HTTP/1.1")

/-- One closure run on the session's goroutine, with the writer's final `header`, and the map
that `headerSent` points to. `WriteHeader`'s closure sets `:status` and `:version` in its
`copiedHeader`, which is that map, before it checks `closed`; until then it is a nil map. -/
def SessionFn.run (header : Header) (closed : Bool) :
    SessionFn → Header → Header × List StreamCall
  | .writeHeader copiedHeader statusCode, _ =>
    let copiedHeader := sentHeader copiedHeader statusCode
    (copiedHeader, if closed then [] else [.writeHeader copiedHeader false])
  | .write copiedBuf, headerSent =>
    (headerSent, if closed then [] else [.writeOrBufferData copiedBuf false])
  | .finish, headerSent => (headerSent, if closed then [] else finishCalls header headerSent)

/-- The session's goroutine runs the closures in order. -/
def runSession (header : Header) (closed : Bool) : List SessionFn → Header → List StreamCall
  | [], _ => []
  | f :: fs, headerSent =>
    let r := f.run header closed headerSent
    r.2 ++ runSession header closed fs r.1

/-- What the stream is asked to do for a request, while it is not closed. -/
def responseCalls (requestURIOk : GoString → Bool) (header : Header) (ops : List HandlerOp) :
    List StreamCall :=
  match ProcessRequest requestURIOk header ops with
  | none => []
  | some (w, fns) => runSession w.header false fns ∅

/-! ### Which closures and calls start a response -/

/-- `WriteHeader`'s closure. -/
def SessionFn.isHeader : SessionFn → Bool
  | .writeHeader _ _ => true
  | _ => false

/-- A call of `WriteHeader`. -/
def StreamCall.isHeader : StreamCall → Bool
  | .writeHeader _ _ => true
  | _ => false

namespace SpdyResponseWriter

variable (w : SpdyResponseWriter)

@[simp] theorem sendChunks_wroteHeader (chunks : List GoString) :
    (w.sendChunks chunks).wroteHeader = w.wroteHeader := rfl

/-- The closures of `spdyResponseBufferedWriter` do not start a response. -/
@[simp] theorem any_sendChunks (chunks : List GoString) :
    (w.sendChunks chunks).sent.any SessionFn.isHeader = w.sent.any SessionFn.isHeader := by
  simp [sendChunks, List.any_map, SessionFn.isHeader]

@[simp] theorem WriteHeader_wroteHeader (statusCode : Int) :
    (w.WriteHeader statusCode).wroteHeader = true := by
  unfold WriteHeader
  split
  · assumption
  · rfl

theorem any_WriteHeader (statusCode : Int) :
    (w.WriteHeader statusCode).sent.any SessionFn.isHeader =
      (w.sent.any SessionFn.isHeader || !w.wroteHeader) := by
  unfold WriteHeader
  split
  · next h => simp [h]
  · next h => simp [h, SessionFn.isHeader]

end SpdyResponseWriter

namespace HandlerOp

open SpdyResponseWriter

theorem run_wroteHeader (op : HandlerOp) (w : SpdyResponseWriter) :
    (op.run w).wroteHeader = (w.wroteHeader || op.startsResponse) := by
  cases op with
  | setHeader h => simp [run, startsResponse]
  | writeHeader c => simp [run, startsResponse]
  | write b =>
    simp only [run, Write, startsResponse, Bool.or_true]
    split <;> simp_all
  | flush => simp [run, Flush, startsResponse]

/-- Each operation keeps `wroteHeader` telling whether `WriteHeader`'s closure was sent. -/
theorem any_run (op : HandlerOp) {w : SpdyResponseWriter}
    (h : w.sent.any SessionFn.isHeader = w.wroteHeader) :
    (op.run w).sent.any SessionFn.isHeader = (op.run w).wroteHeader := by
  rw [run_wroteHeader]
  cases op with
  | setHeader h' => simpa [run, startsResponse] using h
  | writeHeader c => simp [run, startsResponse, any_WriteHeader, h]
  | write b =>
    simp only [run, Write, startsResponse, Bool.or_true]
    split
    · next hw => simp [any_WriteHeader, h, hw]
    · next hw => simp_all
  | flush => simpa [run, Flush, startsResponse] using h

end HandlerOp

theorem foldl_run_wroteHeader (ops : List HandlerOp) (w : SpdyResponseWriter) :
    (ops.foldl (fun w op => op.run w) w).wroteHeader =
      (w.wroteHeader || ops.any HandlerOp.startsResponse) := by
  induction ops generalizing w with
  | nil => simp
  | cons op ops ih =>
    rw [List.foldl_cons, ih, HandlerOp.run_wroteHeader, List.any_cons, Bool.or_assoc]

theorem any_foldl_run (ops : List HandlerOp) {w : SpdyResponseWriter}
    (h : w.sent.any SessionFn.isHeader = w.wroteHeader) :
    (ops.foldl (fun w op => op.run w) w).sent.any SessionFn.isHeader =
      (ops.foldl (fun w op => op.run w) w).wroteHeader := by
  induction ops generalizing w with
  | nil => exact h
  | cons op ops ih => exact ih (op.any_run h)

/-- The handler's goroutine sends `WriteHeader`'s closure exactly when an operation starts the
response. -/
theorem any_serve (ops : List HandlerOp) :
    (serve ops).2.any SessionFn.isHeader = ops.any HandlerOp.startsResponse := by
  have h := any_foldl_run ops (w := SpdyResponseWriter.new) rfl
  rw [foldl_run_wroteHeader] at h
  simp only [serve, SpdyResponseWriter.Flush, List.any_append, SpdyResponseWriter.any_sendChunks, h]
  simp [SpdyResponseWriter.new, SessionFn.isHeader]

theorem any_finishCalls (header headerSent : Header) :
    (finishCalls header headerSent).any StreamCall.isHeader = false := by
  unfold finishCalls
  dsimp only
  split <;> rfl

/-- With the stream open, the session calls `WriteHeader` exactly for `WriteHeader`'s closures. -/
theorem any_runSession (header : Header) (fns : List SessionFn) (headerSent : Header) :
    (runSession header false fns headerSent).any StreamCall.isHeader =
      fns.any SessionFn.isHeader := by
  induction fns generalizing headerSent with
  | nil => rfl
  | cons f fns ih =>
    rw [runSession, List.any_append, ih, List.any_cons]
    cases f with
    | writeHeader c code => rfl
    | write b => rfl
    | finish => simp [SessionFn.run, any_finishCalls, SessionFn.isHeader]

/-- The stream gets a `WriteHeader` exactly when `url.ParseRequestURI` accepts `:path` and the
handler writes or calls `WriteHeader`. A handler that does neither leaves the stream with the
final call alone, and a rejected `:path` leaves it with nothing. -/
theorem response_has_header_iff (requestURIOk : GoString → Bool) (header : Header)
    (ops : List HandlerOp) :
    (∃ h e, StreamCall.writeHeader h e ∈ responseCalls requestURIOk header ops) ↔
      requestURIOk (header.Get (ascii ":path")) = true ∧
        ∃ op ∈ ops, op.startsResponse = true := by
  have hany : (∃ h e, StreamCall.writeHeader h e ∈ responseCalls requestURIOk header ops) ↔
      (responseCalls requestURIOk header ops).any StreamCall.isHeader = true := by
    rw [List.any_eq_true]
    constructor
    · rintro ⟨h, e, hm⟩
      exact ⟨_, hm, rfl⟩
    · rintro ⟨c, hm, hc⟩
      cases c with
      | writeHeader h e => exact ⟨h, e, hm⟩
      | writeOrBufferData _ _ => cases hc
      | writeTrailers _ => cases hc
  rw [hany]
  by_cases hpath : requestURIOk (header.Get (ascii ":path")) = true
  · simp only [responseCalls, ProcessRequest, if_pos hpath, any_runSession, any_serve,
      List.any_eq_true]
    exact (and_iff_right hpath).symm
  · simp [responseCalls, ProcessRequest, hpath]

/-- A handler that returns at once: the stream is only asked to end the stream. -/
example : responseCalls (fun _ => true) ∅ [] = [.writeOrBufferData [] true] := by decide

/-! ### The shape of a started response -/

/-- The status `WriteHeader` gets from an operation that starts the response. -/
def HandlerOp.statusCode : HandlerOp → Int
  | .writeHeader statusCode => statusCode
  | _ => StatusOK

theorem HandlerOp.written_of_not_starts {op : HandlerOp} (h : op.startsResponse = false) :
    op.written = [] := by
  cases op <;> first | rfl | cases h

namespace SpdyResponseWriter

/-- Before the response starts: nothing sent and nothing buffered. -/
structure Quiet (w : SpdyResponseWriter) : Prop where
  wroteHeader : w.wroteHeader = false
  sent : w.sent = []
  buf : w.w.buf = []

/-- After `WriteHeader` with `copiedHeader` and `statusCode`: the closures sent are
`WriteHeader`'s and then chunks which, followed by what is buffered, are `body`. -/
structure Started (copiedHeader : Header) (statusCode : Int) (body : GoString)
    (w : SpdyResponseWriter) : Prop where
  wroteHeader : w.wroteHeader = true
  sent : ∃ chunks : List GoString,
    w.sent = .writeHeader copiedHeader statusCode :: chunks.map .write ∧
      chunks.flatten ++ w.w.buf = body

variable {w : SpdyResponseWriter} {copiedHeader : Header} {statusCode : Int} {body : GoString}

theorem quiet_new : SpdyResponseWriter.new.Quiet := ⟨rfl, rfl, rfl⟩

theorem Quiet.Flush (hq : w.Quiet) : w.Flush = w := by
  simp only [SpdyResponseWriter.Flush, Bufio.Writer.Flush_of_buf_nil hq.buf, sendChunks,
    List.map_nil, List.append_nil]

/-- Operations that do not start the response leave it unstarted. -/
theorem Quiet.run (hq : w.Quiet) {op : HandlerOp} (hop : op.startsResponse = false) :
    (op.run w).Quiet := by
  cases op with
  | setHeader h => exact ⟨hq.wroteHeader, hq.sent, hq.buf⟩
  | writeHeader c => cases hop
  | write b => cases hop
  | flush =>
    show w.Flush.Quiet
    rw [hq.Flush]
    exact hq

/-- The first operation that starts the response sends `WriteHeader`'s closure with the header
set so far. -/
theorem Quiet.start (hq : w.Quiet) {op : HandlerOp} (hop : op.startsResponse = true) :
    (op.run w).Started w.header op.statusCode op.written := by
  cases op with
  | setHeader h => cases hop
  | flush => cases hop
  | writeHeader c =>
    refine ⟨WriteHeader_wroteHeader w c, [], ?_, ?_⟩
    · simp [HandlerOp.run, WriteHeader, hq.wroteHeader, hq.sent, cloneHeader, HandlerOp.statusCode]
    · simp [HandlerOp.run, WriteHeader, hq.wroteHeader, hq.buf, HandlerOp.written]
  | write b =>
    have hw : (w.WriteHeader StatusOK).w.buf = [] := by
      simp [WriteHeader, hq.wroteHeader, hq.buf]
    refine ⟨by simp [HandlerOp.run, Write, hq.wroteHeader, sendChunks],
      ((w.WriteHeader StatusOK).w.Write b).2, ?_, ?_⟩
    · simp [HandlerOp.run, Write, hq.wroteHeader, sendChunks, WriteHeader, hq.sent, cloneHeader,
        HandlerOp.statusCode]
    · have hf := Bufio.Writer.write_flatten (w.WriteHeader StatusOK).w b
      rw [hw, List.nil_append] at hf
      simpa [HandlerOp.run, Write, hq.wroteHeader, sendChunks, HandlerOp.written] using hf

/-- Once started, every operation appends its bytes to the body. -/
theorem Started.run (hs : w.Started copiedHeader statusCode body) (op : HandlerOp) :
    (op.run w).Started copiedHeader statusCode (body ++ op.written) := by
  obtain ⟨hwh, chunks, hsent, hbody⟩ := hs
  have hwh' : (op.run w).wroteHeader = true := by rw [HandlerOp.run_wroteHeader, hwh, Bool.true_or]
  refine ⟨hwh', ?_⟩
  cases op with
  | setHeader h =>
    refine ⟨chunks, hsent, ?_⟩
    show chunks.flatten ++ w.w.buf = body ++ []
    rw [List.append_nil]
    exact hbody
  | writeHeader c =>
    refine ⟨chunks, ?_, ?_⟩ <;>
      simp [HandlerOp.run, WriteHeader, hwh, hsent, hbody, HandlerOp.written]
  | write b =>
    refine ⟨chunks ++ (w.w.Write b).2, ?_, ?_⟩
    · simp [HandlerOp.run, Write, hwh, sendChunks, hsent]
    · have hf := Bufio.Writer.write_flatten w.w b
      simp only [HandlerOp.run, Write, hwh, Bool.not_true, Bool.false_eq_true, if_false, sendChunks,
        HandlerOp.written, List.flatten_append, List.append_assoc]
      rw [hf, ← List.append_assoc, hbody]
  | flush =>
    refine ⟨chunks ++ w.w.Flush.2, ?_, ?_⟩
    · simp [HandlerOp.run, SpdyResponseWriter.Flush, sendChunks, hsent]
    · have hf := Bufio.Writer.flush_flatten w.w
      simp only [HandlerOp.run, SpdyResponseWriter.Flush, sendChunks, HandlerOp.written,
        List.flatten_append, List.append_assoc, List.append_nil]
      rw [hf, hbody]

theorem Quiet.foldl {w : SpdyResponseWriter} (hq : w.Quiet) {ops : List HandlerOp}
    (hops : ∀ op ∈ ops, op.startsResponse = false) :
    (ops.foldl (fun w op => op.run w) w).Quiet := by
  induction ops generalizing w with
  | nil => exact hq
  | cons op ops ih =>
    exact ih (hq.run (hops op List.mem_cons_self)) fun o ho => hops o (List.mem_cons_of_mem _ ho)

theorem Started.foldl {w : SpdyResponseWriter} {copiedHeader : Header} {statusCode : Int}
    {body : GoString} (hs : w.Started copiedHeader statusCode body) (ops : List HandlerOp) :
    (ops.foldl (fun w op => op.run w) w).Started copiedHeader statusCode
      (body ++ (ops.map HandlerOp.written).flatten) := by
  induction ops generalizing w body with
  | nil => simpa using hs
  | cons op ops ih =>
    have := ih (hs.run op)
    simpa using this

end SpdyResponseWriter

open SpdyResponseWriter

/-- The data closures become data frames, in order. -/
theorem runSession_writes (header : Header) (chunks : List GoString) (rest : List SessionFn)
    (headerSent : Header) :
    runSession header false (chunks.map .write ++ rest) headerSent =
      chunks.map (fun b => .writeOrBufferData b false) ++
        runSession header false rest headerSent := by
  induction chunks with
  | nil => rfl
  | cons b chunks ih => simp [runSession, SessionFn.run, ih]

/-- One step of the loop that collects the trailers. -/
theorem lookup_foldl_trailers (headerSent : Header) (k : GoString) :
    ∀ (l : List (Sigma fun _ : GoString => List GoString)) (t : Header), l.NodupKeys →
      (l.foldl (fun r a => if a.1 ∈ headerSent then r else r.insert a.1 a.2) t).lookup k =
        if k ∉ headerSent ∧ k ∈ l.keys then l.dlookup k else t.lookup k
  | [], t, _ => by simp
  | ⟨a, v⟩ :: l, t, hl => by
    obtain ⟨ha, hl⟩ := List.nodupKeys_cons.mp hl
    rw [List.foldl_cons, lookup_foldl_trailers headerSent k l _ hl]
    by_cases hk : k = a
    · -- the key of this entry is not met again
      subst hk
      have hnot : ¬(k ∉ headerSent ∧ k ∈ l.keys) := fun h => ha h.2
      rw [if_neg hnot, List.dlookup_cons_eq]
      by_cases hs : k ∈ headerSent
      · simp [hs]
      · simp [hs, AList.lookup_insert]
    · -- another key: the entry changes neither the trailers nor the lookup at `k`
      have hstep : (if a ∈ headerSent then t else t.insert a v).lookup k = t.lookup k := by
        split
        · rfl
        · exact AList.lookup_insert_ne hk
      have hkeys : k ∈ (⟨a, v⟩ :: l : List (Sigma fun _ : GoString => List GoString)).keys ↔
          k ∈ l.keys := by
        simp [hk]
      rw [hstep, List.dlookup_cons_ne l ⟨a, v⟩ hk]
      simp only [hkeys]

/-- The final call carries exactly the headers whose keys were not sent in `WriteHeader`: those
added to the writer's header after it, with the values they have at the end. -/
theorem lookup_trailersOf (header headerSent : Header) (k : GoString) :
    (trailersOf header headerSent).lookup k =
      if k ∈ headerSent then none else header.lookup k := by
  rw [trailersOf, AList.foldl, lookup_foldl_trailers headerSent k _ _ header.nodupKeys]
  by_cases hs : k ∈ headerSent
  · simp [hs]
  · by_cases hk : k ∈ header.entries.keys
    · simp [hs, hk, AList.lookup]
    · have hnone : header.lookup k = none := List.dlookup_eq_none.mpr hk
      simp [hs, hk, hnone]

/-- When `:path` parses and the handler starts the response after operations that do not, the
stream gets one `WriteHeader` carrying `:status`, `:version` and the header set before it, then
data frames that together are everything the handler wrote, then the final call, whose trailers
are the handler's final header without the keys `WriteHeader` sent. -/
theorem response_shape (requestURIOk : GoString → Bool) (header : Header)
    {pre post : List HandlerOp} {op : HandlerOp}
    (hpath : requestURIOk (header.Get (ascii ":path")) = true)
    (hpre : ∀ o ∈ pre, o.startsResponse = false) (hop : op.startsResponse = true) :
    let ops := pre ++ op :: post
    let headerSent :=
      sentHeader (pre.foldl (fun w o => o.run w) SpdyResponseWriter.new).header op.statusCode
    ∃ datas : List GoString,
      responseCalls requestURIOk header ops = .writeHeader headerSent false ::
        (datas.map fun b => .writeOrBufferData b false) ++
          finishCalls (serve ops).1.header headerSent ∧
      datas.flatten = (ops.map HandlerOp.written).flatten ∧
      ∀ k, (trailersOf (serve ops).1.header headerSent).lookup k =
        if k ∈ headerSent then none else (serve ops).1.header.lookup k := by
  intro ops headerSent
  -- the operations before `op` write nothing, so the body is what `op` and those after it write
  have hfold : (ops.foldl (fun w o => o.run w) SpdyResponseWriter.new).Started
      (pre.foldl (fun w o => o.run w) SpdyResponseWriter.new).header op.statusCode
      (ops.map HandlerOp.written).flatten := by
    have hs := ((Quiet.foldl quiet_new hpre).start hop).foldl post
    have hpre' : (pre.map HandlerOp.written).flatten = [] := by
      simp only [List.flatten_eq_nil_iff, List.mem_map]
      rintro _ ⟨o, ho, rfl⟩
      exact HandlerOp.written_of_not_starts (hpre o ho)
    simpa [ops, List.foldl_append, hpre'] using hs
  -- the final `Flush` passes what is left in the buffer on
  obtain ⟨-, chunks, hsent, hbody⟩ := hfold.run .flush
  have hbuf : (HandlerOp.flush.run (ops.foldl (fun w o => o.run w) SpdyResponseWriter.new)).w.buf =
      [] := Bufio.Writer.Flush_buf _
  refine ⟨chunks, ?_, ?_, fun k => lookup_trailersOf _ _ k⟩
  · have hcalls : responseCalls requestURIOk header ops = runSession (serve ops).1.header false
        ((HandlerOp.flush.run (ops.foldl (fun w o => o.run w) SpdyResponseWriter.new)).sent ++
          [.finish]) ∅ := by
      simp only [responseCalls, ProcessRequest, if_pos hpath]
      rfl
    rw [hcalls, hsent, List.cons_append, runSession, runSession_writes]
    simp [SessionFn.run, runSession, headerSent]
  · rw [hbuf, List.append_nil] at hbody
    rw [hbody]
    exact List.append_nil _

/-- A handler that writes `hi` and returns: one `WriteHeader` with status 200, frames that carry
`hi`, and the final call. -/
theorem response_shape_one_write :
    (fun _ => true : GoString → Bool) ((∅ : Header).Get (ascii ":path")) = true ∧
      (HandlerOp.write (ascii "hi")).startsResponse = true ∧
      let ops := [HandlerOp.write (ascii "hi")]
      let headerSent := sentHeader SpdyResponseWriter.new.header StatusOK
      ∃ datas : List GoString,
        responseCalls (fun _ => true) ∅ ops = .writeHeader headerSent false ::
          (datas.map fun b => .writeOrBufferData b false) ++
            finishCalls (serve ops).1.header headerSent ∧
        datas.flatten = (ops.map HandlerOp.written).flatten ∧
        ∀ k, (trailersOf (serve ops).1.header headerSent).lookup k =
          if k ∈ headerSent then none else (serve ops).1.header.lookup k :=
  ⟨rfl, rfl, @response_shape (fun _ => true) ∅ [] [] (.write (ascii "hi")) rfl (by simp) rfl⟩

end GoQuic
