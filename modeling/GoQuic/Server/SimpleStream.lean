import GoQuic.Http.Header
import GoQuic.Server.Writer

/-!
# The request body of a server stream

`GoQuicSimpleServerStream` (`go_quic_simple_server_stream.cc`) gathers a request's body in `body_`
as libquic's sequencer hands it over in readable regions (`OnDataAvailable`, `79–128`), and once
the sequencer is closed passes it to Go with `GoQuicSimpleServerStreamOnDataAvailable_C`
(`go_functions.c:73–75`), whose Go side (`stream.go:123–128`) copies it with
`C.GoBytes(data, C.int(data_len))`. A body longer than the content length, empty request headers,
a body shorter than a positive content length, and trailers all end in `SendErrorResponse`
(`130–138`), which stops reading.

libquic is modelled by what its stream sequencer guarantees: it keeps the stream's bytes in
order and hands them over as regions once the headers are consumed, drops what arrives after
`StopReading`, calls `OnFinRead` itself when the FIN comes in after that, and does not call
`OnDataAvailable` after `OnFinRead`. The trace records the peer's data and FIN as they arrive, and
the calls the stream makes.

On every run the stream calls into Go at most once, after the FIN, with `is_closed = 1` and the
whole body: the data of every frame before it, end to end; and a stream that read its FIN without
that call sent an error response (`handoff_on_every_run`). The call is made only on request
headers and a body that matches a content length that is not negative (`call_headers`). But `body_.length()` goes to Go through a `uint32_t` and a `C.int`: a body
of `2^31` bytes or more reaches `C.GoBytes` as a negative length or a truncated one
(`GoQuicSimpleServerStreamOnDataAvailable_eq`), and Go panics on a 2 GiB body
(`body_handoff_panics`).
-/

namespace GoQuic

/-- What happens on a server stream, in order: the peer's data and FIN as the sequencer receives
them, and the calls the stream makes, into Go and `SendErrorResponse`. -/
inductive ServerStreamEvent where
  | frame (data : List UInt8)
  | fin
  | onInitialHeadersCompleteC (headers : SpdyHeaderBlock)
  | onDataAvailableC (data : List UInt8) (dataLen : UInt32) (isClosed : Int32)
  | sendErrorResponse
  deriving DecidableEq

namespace ServerStreamEvent

/-- The data of a frame. -/
def frameData : ServerStreamEvent → Option (List UInt8)
  | .frame data => some data
  | _ => none

/-- The call into Go. -/
def isCall : ServerStreamEvent → Bool
  | .onDataAvailableC .. => true
  | _ => false

end ServerStreamEvent

/-- The data of the frames of a trace, end to end. -/
def framesOf (tr : List ServerStreamEvent) : List UInt8 := (tr.filterMap ServerStreamEvent.frameData).flatten

@[simp] theorem framesOf_nil : framesOf [] = [] := rfl

@[simp] theorem framesOf_cons (e : ServerStreamEvent) (tr : List ServerStreamEvent) :
    framesOf (e :: tr) = e.frameData.getD [] ++ framesOf tr := by
  cases e <;> rfl

@[simp] theorem framesOf_append (tr tr' : List ServerStreamEvent) :
    framesOf (tr ++ tr') = framesOf tr ++ framesOf tr' := by
  simp [framesOf]

/-- What drives a server stream: the request headers (`valid` is what `CopyAndValidateHeaders`
returns, with what it filled in), the peer's data and FIN, libquic calling `OnDataAvailable`, and
trailers. -/
inductive ServerStreamLabel where
  | onInitialHeadersComplete (valid : Bool) (headers : SpdyHeaderBlock) (contentLength : Int)
  | frame (data : List UInt8)
  | fin
  | onDataAvailable
  | onTrailingHeadersComplete

/-- `GoQuicSimpleServerStream` (`go_quic_simple_server_stream.h`): `request_headers_`,
`content_length_` and `body_`, with what `OnDataAvailable` reads of `QuicSpdyStream` and its
sequencer: whether the headers are consumed (the sequencer is blocked until then), the readable
regions in order, whether the FIN is in, whether `OnFinRead` and `StopReading` were called, and
`write_side_closed() || fin_buffered()`. -/
structure GoQuicSimpleServerStream where
  requestHeaders : SpdyHeaderBlock
  contentLength : Int
  body : List UInt8
  headersConsumed : Bool
  regions : List (List UInt8)
  finReceived : Bool
  finRead : Bool
  readingStopped : Bool
  finSent : Bool

namespace GoQuicSimpleServerStream

/-- The constructor (`go_quic_simple_server_stream.cc:15–17`): `content_length_` is -1. -/
def new : GoQuicSimpleServerStream := ⟨∅, -1, [], false, [], false, false, false, false⟩

/-- `sequencer()->IsClosed()`: the FIN is in and every byte before it is consumed. -/
def IsClosed (st : GoQuicSimpleServerStream) : Bool := st.finReceived && st.regions.isEmpty

/-- `SendErrorResponse` (`130–138`). `WriteHeaders` stops reading first, which drops the regions
not read and, with the FIN in, calls `OnFinRead`; the body goes with FIN. -/
def SendErrorResponse (st : GoQuicSimpleServerStream) :
    GoQuicSimpleServerStream × List ServerStreamEvent :=
  ({ st with
      regions := []
      readingStopped := true
      finRead := st.finRead || st.finReceived
      finSent := true }, [.sendErrorResponse])

section SendErrorResponse

variable (st : GoQuicSimpleServerStream)

@[simp] theorem SendErrorResponse_snd : st.SendErrorResponse.2 = [.sendErrorResponse] := rfl

@[simp] theorem SendErrorResponse_readingStopped : st.SendErrorResponse.1.readingStopped = true :=
  rfl

@[simp] theorem SendErrorResponse_finSent : st.SendErrorResponse.1.finSent = true := rfl

@[simp] theorem SendErrorResponse_finRead :
    st.SendErrorResponse.1.finRead = (st.finRead || st.finReceived) := rfl

@[simp] theorem SendErrorResponse_finReceived :
    st.SendErrorResponse.1.finReceived = st.finReceived := rfl

@[simp] theorem SendErrorResponse_headersConsumed :
    st.SendErrorResponse.1.headersConsumed = st.headersConsumed := rfl

@[simp] theorem SendErrorResponse_body : st.SendErrorResponse.1.body = st.body := rfl

end SendErrorResponse

/-- The loop of `OnDataAvailable` (`80–96`) over the readable regions: the body, the regions left,
and whether the body outgrew a content length that is not negative. The region that does is
appended but not consumed. -/
def readLoop (contentLength : Int) :
    List UInt8 → List (List UInt8) → List UInt8 × List (List UInt8) × Bool
  | body, [] => (body, [], false)
  | body, region :: rest =>
    if 0 ≤ contentLength ∧ contentLength < (body ++ region).length then
      (body ++ region, region :: rest, true)
    else readLoop contentLength (body ++ region) rest

/-- `OnDataAvailable` (`79–128`). -/
def OnDataAvailable (st : GoQuicSimpleServerStream) :
    GoQuicSimpleServerStream × List ServerStreamEvent :=
  let r := readLoop st.contentLength st.body st.regions
  let st := { st with body := r.1, regions := r.2.1 }
  if r.2.2 then st.SendErrorResponse
  -- `sequencer()->SetUnblocked()`
  else if !st.IsClosed then (st, [])
  else
    -- `OnFinRead()`
    let st := { st with finRead := true }
    if st.finSent then (st, [])
    else if st.requestHeaders.entries.isEmpty then st.SendErrorResponse
    else if 0 < st.contentLength ∧ st.contentLength ≠ st.body.length then st.SendErrorResponse
    else
      (st, [.onDataAvailableC st.body (UInt32.ofNat st.body.length)
        (if st.IsClosed then 1 else 0)])

/-- `OnInitialHeadersComplete` (`46–63`): the headers and content length `CopyAndValidateHeaders`
filled in, an error response when it failed, the headers to Go, and `ConsumeHeaderList`, which
unblocks the sequencer. -/
def OnInitialHeadersComplete (st : GoQuicSimpleServerStream) (valid : Bool)
    (headers : SpdyHeaderBlock) (contentLength : Int) :
    GoQuicSimpleServerStream × List ServerStreamEvent :=
  let st := { st with requestHeaders := headers, contentLength := contentLength }
  let r := if valid then (st, []) else st.SendErrorResponse
  ({ r.1 with headersConsumed := true }, r.2 ++ [.onInitialHeadersCompleteC headers])

/-- One step of a server stream. -/
def step (st : GoQuicSimpleServerStream) :
    ServerStreamLabel → Option (GoQuicSimpleServerStream × List ServerStreamEvent)
  | .onInitialHeadersComplete valid headers contentLength =>
    if st.headersConsumed then none
    else some (st.OnInitialHeadersComplete valid headers contentLength)
  | .frame data =>
    if st.finReceived then none
    -- after `StopReading` the sequencer drops what arrives
    else
      some ({ st with regions := if st.readingStopped then st.regions else st.regions ++ [data] },
        [.frame data])
  | .fin =>
    if st.finReceived then none
    -- after `StopReading` every byte is consumed, so the FIN closes the sequencer at once
    else
      some ({ st with
        finReceived := true
        finRead := st.finRead || st.readingStopped }, [.fin])
  | .onDataAvailable =>
    if st.headersConsumed && !st.readingStopped && !st.finRead then some st.OnDataAvailable
    else none
  | .onTrailingHeadersComplete =>
    if st.headersConsumed then some st.SendErrorResponse else none

/-- A server stream from its construction. -/
def system : Lts GoQuicSimpleServerStream ServerStreamLabel ServerStreamEvent := ⟨new, step⟩

/-! ### The read loop -/

section ReadLoop

variable {contentLength : Int} {body : List UInt8} {regions : List (List UInt8)}

/-- When the body never outgrows the content length, the loop consumes every region. -/
theorem readLoop_of_ok (h : (readLoop contentLength body regions).2.2 = false) :
    readLoop contentLength body regions = (body ++ regions.flatten, [], false) := by
  induction regions generalizing body with
  | nil => simp [readLoop]
  | cons region rest ih =>
    by_cases hc : 0 ≤ contentLength ∧ contentLength < (body ++ region).length
    · rw [readLoop, if_pos hc] at h
      cases h
    · simp only [readLoop, if_neg hc] at h ⊢
      rw [ih h]
      simp

/-- What such a loop leaves is within a content length that is not negative. -/
theorem readLoop_bounded (h : (readLoop contentLength body regions).2.2 = false)
    (hcl : 0 ≤ contentLength) (hb : (body.length : Int) ≤ contentLength) :
    ((body ++ regions.flatten).length : Int) ≤ contentLength := by
  induction regions generalizing body with
  | nil => simpa using hb
  | cons region rest ih =>
    -- each region is checked as it is appended
    have hc : ¬(0 ≤ contentLength ∧ contentLength < (body ++ region).length) := by
      intro hc
      rw [readLoop, if_pos hc] at h
      cases h
    simp only [readLoop, if_neg hc] at h
    have hlen : ((body ++ region).length : Int) ≤ contentLength := by omega
    have := ih h hlen
    simpa using this

end ReadLoop

/-! ### One call of `OnDataAvailable` -/

/-- What `OnDataAvailable` does: an error response, from a stream that agrees with this one on
the FIN, the headers and, unless the FIN is in, `OnFinRead`; or, with every region consumed into
the body, nothing more while the FIN is not in; `OnFinRead` and nothing more when the response is
already finished; or `OnFinRead` and the call into Go with the whole body. -/
theorem OnDataAvailable_cases (st : GoQuicSimpleServerStream) :
    (∃ st₀ : GoQuicSimpleServerStream, st₀.finReceived = st.finReceived ∧
      (st₀.finRead = st.finRead ∨ st₀.finReceived = true) ∧
      st₀.headersConsumed = st.headersConsumed ∧ st.OnDataAvailable = st₀.SendErrorResponse) ∨
    (readLoop st.contentLength st.body st.regions).2.2 = false ∧
    ((st.finReceived = false ∧ st.OnDataAvailable =
      ({ st with body := st.body ++ st.regions.flatten, regions := [] }, [])) ∨
    (st.finReceived = true ∧ st.finSent = true ∧ st.OnDataAvailable =
      ({ st with body := st.body ++ st.regions.flatten, regions := [], finRead := true }, [])) ∨
    (st.finReceived = true ∧ st.requestHeaders.entries ≠ [] ∧
      (0 < st.contentLength → st.contentLength = (st.body ++ st.regions.flatten).length) ∧
      st.OnDataAvailable =
        ({ st with body := st.body ++ st.regions.flatten, regions := [], finRead := true },
          [.onDataAvailableC (st.body ++ st.regions.flatten)
            (UInt32.ofNat (st.body ++ st.regions.flatten).length) 1]))) := by
  by_cases he : (readLoop st.contentLength st.body st.regions).2.2 = true
  · -- the body outgrew the content length
    refine .inl ⟨{ st with
      body := (readLoop st.contentLength st.body st.regions).1
      regions := (readLoop st.contentLength st.body st.regions).2.1 }, rfl, .inl rfl, rfl, ?_⟩
    simp only [OnDataAvailable, he, if_true]
  have hok := Bool.eq_false_iff.mpr he
  have hr := readLoop_of_ok hok
  cases hfin : st.finReceived
  · exact .inr ⟨hok, .inl ⟨rfl, by simp [OnDataAvailable, hr, IsClosed, hfin]⟩⟩
  cases hsent : st.finSent
  · by_cases hh : st.requestHeaders.entries = []
    · exact .inl ⟨{ st with body := st.body ++ st.regions.flatten, regions := [], finRead := true },
        hfin, .inr hfin, rfl, by simp [OnDataAvailable, hr, IsClosed, hfin, hsent, hh]⟩
    have hh' : st.requestHeaders.entries.isEmpty = false := by
      rw [Bool.eq_false_iff, ne_eq, List.isEmpty_iff]
      exact hh
    -- the checks after `OnFinRead`, up to the content length
    have hcheck : st.OnDataAvailable =
        if 0 < st.contentLength ∧ st.contentLength ≠ (st.body ++ st.regions.flatten).length then
          ({ st with body := st.body ++ st.regions.flatten, regions := [], finRead := true }
            ).SendErrorResponse
        else
          ({ st with body := st.body ++ st.regions.flatten, regions := [], finRead := true },
            [.onDataAvailableC (st.body ++ st.regions.flatten)
              (UInt32.ofNat (st.body ++ st.regions.flatten).length) 1]) := by
      simp only [OnDataAvailable, hr, IsClosed, hfin, hsent, hh', List.isEmpty_nil,
        Bool.and_true, Bool.not_true, Bool.false_eq_true, if_false, if_true]
    by_cases hcl : 0 < st.contentLength ∧ st.contentLength ≠ (st.body ++ st.regions.flatten).length
    · exact .inl ⟨{ st with body := st.body ++ st.regions.flatten, regions := [], finRead := true },
        hfin, .inr hfin, rfl, by rw [hcheck, if_pos hcl]⟩
    · refine .inr ⟨hok, .inr (.inr ⟨rfl, hh, fun hpos => ?_,
        by rw [hcheck, if_neg hcl, hfin, hsent]⟩)⟩
      by_contra hne
      exact hcl ⟨hpos, hne⟩
  · exact .inr ⟨hok, .inr (.inl ⟨rfl, rfl, by simp [OnDataAvailable, hr, IsClosed, hfin, hsent]⟩)⟩

/-! ### One step -/

section Step

variable {st : GoQuicSimpleServerStream} {l : ServerStreamLabel} {st' : GoQuicSimpleServerStream}
  {evs : List ServerStreamEvent}

/-- What a step can do, with its guard: each label and what it leaves. -/
theorem step_cases (h : st.step l = some (st', evs)) :
    (∃ valid headers contentLength, l = .onInitialHeadersComplete valid headers contentLength ∧
      st.headersConsumed = false ∧
      st' = (st.OnInitialHeadersComplete valid headers contentLength).1 ∧
      evs = (st.OnInitialHeadersComplete valid headers contentLength).2) ∨
    (∃ data, l = .frame data ∧ st.finReceived = false ∧
      st' = { st with regions := if st.readingStopped then st.regions else st.regions ++ [data] } ∧
      evs = [.frame data]) ∨
    (l = .fin ∧ st.finReceived = false ∧
      st' = { st with finReceived := true, finRead := st.finRead || st.readingStopped } ∧
      evs = [.fin]) ∨
    (l = .onDataAvailable ∧ st.headersConsumed = true ∧ st.readingStopped = false ∧
      st.finRead = false ∧ st' = st.OnDataAvailable.1 ∧ evs = st.OnDataAvailable.2) ∨
    (l = .onTrailingHeadersComplete ∧ st.headersConsumed = true ∧
      st' = st.SendErrorResponse.1 ∧ evs = st.SendErrorResponse.2) := by
  cases l with
  | onInitialHeadersComplete valid headers contentLength =>
    simp only [step] at h
    split at h
    · cases h
    · cases h
      exact .inl ⟨valid, headers, contentLength, rfl, Bool.eq_false_iff.mpr ‹_›, rfl, rfl⟩
  | frame data =>
    simp only [step] at h
    split at h
    · cases h
    · cases h
      exact .inr (.inl ⟨data, rfl, Bool.eq_false_iff.mpr ‹_›, rfl, rfl⟩)
  | fin =>
    simp only [step] at h
    split at h
    · cases h
    · cases h
      exact .inr (.inr (.inl ⟨rfl, Bool.eq_false_iff.mpr ‹_›, rfl, rfl⟩))
  | onDataAvailable =>
    simp only [step] at h
    split at h
    · next hg =>
      simp only [Bool.and_eq_true, Bool.not_eq_eq_eq_not, Bool.not_true] at hg
      have he := Option.some.inj h
      exact .inr (.inr (.inr (.inl ⟨rfl, hg.1.1, hg.1.2, hg.2, by rw [he], by rw [he]⟩)))
    · cases h
  | onTrailingHeadersComplete =>
    simp only [step] at h
    split at h
    · cases h
      exact .inr (.inr (.inr (.inr ⟨rfl, ‹_›, rfl, rfl⟩)))
    · cases h

end Step

/-! ### Every run -/

/-- A call into Go passes the data of every frame before it, its length as a `uint32_t`, and
`is_closed = 1`, after the FIN. -/
def CallOk (pre : List ServerStreamEvent) : ServerStreamEvent → Prop
  | .onDataAvailableC data dataLen isClosed =>
    data = framesOf pre ∧ dataLen = UInt32.ofNat data.length ∧ isClosed = 1 ∧
      ServerStreamEvent.fin ∈ pre
  | _ => True

/-- What holds of a stream and its trace on every run. -/
structure Inv (st : GoQuicSimpleServerStream) (tr : List ServerStreamEvent) : Prop where
  /-- While reading, the body and the unread regions are the data received, in order. -/
  received : st.readingStopped = false → st.body ++ st.regions.flatten = framesOf tr
  /-- While reading, the body is within a content length that is not negative. -/
  bounded : st.readingStopped = false → 0 ≤ st.contentLength →
    (st.body.length : Int) ≤ st.contentLength
  /-- Nothing is read before the headers are consumed. -/
  fresh : st.headersConsumed = false → st.body = []
  fin : st.finReceived = true ↔ ServerStreamEvent.fin ∈ tr
  stopped : st.readingStopped = true → ServerStreamEvent.sendErrorResponse ∈ tr
  finSent : st.finSent = true → ServerStreamEvent.sendErrorResponse ∈ tr
  /-- `OnFinRead` comes after the FIN, with the call into Go or an error response. -/
  finRead : st.finRead = true → st.finReceived = true ∧
    (tr.any ServerStreamEvent.isCall = true ∨ ServerStreamEvent.sendErrorResponse ∈ tr)
  once : tr.countP ServerStreamEvent.isCall ≤ 1
  called : tr.any ServerStreamEvent.isCall = true → st.finRead = true
  allowed : Lts.Allows CallOk tr

variable {st st₀ : GoQuicSimpleServerStream} {tr : List ServerStreamEvent}

theorem inv_new : Inv new [] where
  received _ := rfl
  bounded _ h := absurd h (by decide)
  fresh _ := rfl
  fin := by simp [new]
  stopped h := absurd h (by decide)
  finSent h := absurd h (by decide)
  finRead h := absurd h (by decide)
  once := by simp
  called h := absurd h (by decide)
  allowed := Lts.allows_nil _

variable (tr) in
/-- Events that are not the call leave the calls as they were. -/
theorem countP_isCall_append {evs : List ServerStreamEvent} (h : ∀ e ∈ evs, e.isCall = false) :
    (tr ++ evs).countP ServerStreamEvent.isCall = tr.countP ServerStreamEvent.isCall ∧
      (tr ++ evs).any ServerStreamEvent.isCall = tr.any ServerStreamEvent.isCall := by
  have hc : evs.countP ServerStreamEvent.isCall = 0 :=
    List.countP_eq_zero.mpr fun e he => by simp [h e he]
  have ha : evs.any ServerStreamEvent.isCall = false :=
    List.any_eq_false.mpr fun e he => by simp [h e he]
  simp [List.countP_append, hc, ha]

/-- What is not a call needs nothing of the events before it. -/
theorem callOk_of_isCall_eq_false {pre : List ServerStreamEvent} {e : ServerStreamEvent}
    (h : e.isCall = false) : CallOk pre e := by
  cases e <;> simp_all [ServerStreamEvent.isCall, CallOk]

theorem allows_append_of_isCall_eq_false {evs : List ServerStreamEvent} (ha : Lts.Allows CallOk tr)
    (h : ∀ e ∈ evs, e.isCall = false) : Lts.Allows CallOk (tr ++ evs) :=
  ha.append fun e he _ => callOk_of_isCall_eq_false (h e he)

theorem Inv.setHeaders (hi : Inv st tr) (hc : st.headersConsumed = false)
    (headers : SpdyHeaderBlock) (contentLength : Int) :
    Inv { st with requestHeaders := headers, contentLength := contentLength } tr where
  received := hi.received
  -- nothing is read yet
  bounded _ hcl := by simp [hi.fresh hc, hcl]
  fresh := hi.fresh
  fin := hi.fin
  stopped := hi.stopped
  finSent := hi.finSent
  finRead := hi.finRead
  once := hi.once
  called := hi.called
  allowed := hi.allowed

/-- An error response keeps the invariant, from a stream that agrees with the last one on the FIN
and the headers, and on `OnFinRead` unless the FIN is in. -/
theorem Inv.errorResponse (hi : Inv st tr) (hfin : st₀.finReceived = st.finReceived)
    (hread : st₀.finRead = st.finRead ∨ st₀.finReceived = true)
    (hfresh : st₀.headersConsumed = false → st₀.body = []) :
    Inv st₀.SendErrorResponse.1 (tr ++ st₀.SendErrorResponse.2) := by
  have hq : ∀ e ∈ [ServerStreamEvent.sendErrorResponse], e.isCall = false := by
    simp [ServerStreamEvent.isCall]
  have hcalls := countP_isCall_append tr hq
  have herr : ServerStreamEvent.sendErrorResponse ∈ tr ++ [.sendErrorResponse] := by simp
  -- `OnFinRead` is called by now if it was before, or if the FIN is in
  have hread' : (st₀.finRead || st₀.finReceived) = (st.finRead || st.finReceived) := by
    rcases hread with h | h
    · rw [h, hfin]
    · rw [h, ← hfin, h]
      simp
  constructor
  · intro h
    simp at h
  · intro h
    simp at h
  · simpa using hfresh
  · simp [hfin, hi.fin]
  · exact fun _ => herr
  · exact fun _ => herr
  · intro h
    refine ⟨?_, .inr herr⟩
    rw [SendErrorResponse_finRead, hread'] at h
    rw [SendErrorResponse_finReceived, hfin]
    rcases Bool.or_eq_true_iff.mp h with h | h
    · exact (hi.finRead h).1
    · exact h
  · rw [SendErrorResponse_snd, hcalls.1]
    exact hi.once
  · intro h
    rw [SendErrorResponse_snd, hcalls.2] at h
    rw [SendErrorResponse_finRead, hread', hi.called h, Bool.true_or]
  · rw [SendErrorResponse_snd]
    exact allows_append_of_isCall_eq_false hi.allowed hq

theorem Inv.markHeaders (hi : Inv st tr) (headers : SpdyHeaderBlock) :
    Inv { st with headersConsumed := true } (tr ++ [.onInitialHeadersCompleteC headers]) := by
  have hq : ∀ e ∈ ([.onInitialHeadersCompleteC headers] : List ServerStreamEvent), e.isCall = false := by
    simp [ServerStreamEvent.isCall]
  have hcalls := countP_isCall_append tr hq
  constructor
  · intro h
    simpa [ServerStreamEvent.frameData] using hi.received h
  · exact hi.bounded
  · intro h
    cases h
  · simpa using hi.fin
  · exact fun h => List.mem_append_left _ (hi.stopped h)
  · exact fun h => List.mem_append_left _ (hi.finSent h)
  · intro h
    obtain ⟨hfin, hres⟩ := hi.finRead h
    rw [hcalls.2]
    exact ⟨hfin, hres.imp_right (List.mem_append_left _)⟩
  · rw [hcalls.1]
    exact hi.once
  · rw [hcalls.2]
    exact hi.called
  · exact allows_append_of_isCall_eq_false hi.allowed hq

theorem Inv.OnInitialHeadersComplete (hi : Inv st tr) (hc : st.headersConsumed = false)
    (valid : Bool) (headers : SpdyHeaderBlock) (contentLength : Int) :
    Inv (st.OnInitialHeadersComplete valid headers contentLength).1
      (tr ++ (st.OnInitialHeadersComplete valid headers contentLength).2) := by
  have hi₁ := hi.setHeaders hc headers contentLength
  -- the error response, when the headers are not valid, comes before the headers go to Go
  have hr : Inv (if valid then ({ st with requestHeaders := headers, contentLength := contentLength },
        []) else ({ st with requestHeaders := headers, contentLength := contentLength }
          ).SendErrorResponse).1
      (tr ++ (if valid then ({ st with requestHeaders := headers, contentLength := contentLength },
        []) else ({ st with requestHeaders := headers, contentLength := contentLength }
          ).SendErrorResponse).2) := by
    cases valid
    · exact hi₁.errorResponse rfl (.inl rfl) (hi₁.fresh)
    · simpa using hi₁
  have := hr.markHeaders headers
  rw [List.append_assoc] at this
  exact this

theorem Inv.frame (hi : Inv st tr) (data : List UInt8) :
    Inv { st with regions := if st.readingStopped then st.regions else st.regions ++ [data] }
      (tr ++ [.frame data]) := by
  have hq : ∀ e ∈ ([.frame data] : List ServerStreamEvent), e.isCall = false := by
    simp [ServerStreamEvent.isCall]
  have hcalls := countP_isCall_append tr hq
  constructor
  · intro h
    have hr := hi.received h
    simp only at h
    simp [h, ServerStreamEvent.frameData, ← hr]
  · exact hi.bounded
  · exact hi.fresh
  · simpa using hi.fin
  · exact fun h => List.mem_append_left _ (hi.stopped h)
  · exact fun h => List.mem_append_left _ (hi.finSent h)
  · intro h
    obtain ⟨hfin, hres⟩ := hi.finRead h
    rw [hcalls.2]
    exact ⟨hfin, hres.imp_right (List.mem_append_left _)⟩
  · rw [hcalls.1]
    exact hi.once
  · rw [hcalls.2]
    exact hi.called
  · exact allows_append_of_isCall_eq_false hi.allowed hq

theorem Inv.receiveFin (hi : Inv st tr) :
    Inv { st with finReceived := true, finRead := st.finRead || st.readingStopped }
      (tr ++ [.fin]) := by
  have hq : ∀ e ∈ [ServerStreamEvent.fin], e.isCall = false := by simp [ServerStreamEvent.isCall]
  have hcalls := countP_isCall_append tr hq
  constructor
  · intro h
    simpa [ServerStreamEvent.frameData] using hi.received h
  · exact hi.bounded
  · exact hi.fresh
  · simp
  · exact fun h => List.mem_append_left _ (hi.stopped h)
  · exact fun h => List.mem_append_left _ (hi.finSent h)
  · intro h
    refine ⟨rfl, ?_⟩
    rw [hcalls.2]
    -- `OnFinRead` was called before, or reading had stopped with an error response
    rcases Bool.or_eq_true_iff.mp h with h | h
    · exact (hi.finRead h).2.imp_right (List.mem_append_left _)
    · exact .inr (List.mem_append_left _ (hi.stopped h))
  · rw [hcalls.1]
    exact hi.once
  · intro h
    rw [hcalls.2] at h
    simp [hi.called h]
  · exact allows_append_of_isCall_eq_false hi.allowed hq

/-- Reading every region into the body keeps the invariant, when the body stays within the
content length. -/
theorem Inv.consume (hi : Inv st tr) (hc : st.headersConsumed = true)
    (hs : st.readingStopped = false) (hok : (readLoop st.contentLength st.body st.regions).2.2 = false) :
    Inv { st with body := st.body ++ st.regions.flatten, regions := [] } tr where
  received _ := by simpa using hi.received hs
  bounded _ hcl := readLoop_bounded hok hcl (hi.bounded hs hcl)
  fresh h := absurd (hc.symm.trans h) (by decide)
  fin := hi.fin
  stopped := hi.stopped
  finSent := hi.finSent
  finRead := hi.finRead
  once := hi.once
  called := hi.called
  allowed := hi.allowed

/-- `OnFinRead` keeps the invariant after the FIN, once Go was called or an error response sent. -/
theorem Inv.readFin (hi : Inv st tr) (hfin : st.finReceived = true)
    (hres : tr.any ServerStreamEvent.isCall = true ∨ ServerStreamEvent.sendErrorResponse ∈ tr) :
    Inv { st with finRead := true } tr where
  received := hi.received
  bounded := hi.bounded
  fresh := hi.fresh
  fin := hi.fin
  stopped := hi.stopped
  finSent := hi.finSent
  finRead _ := ⟨hfin, hres⟩
  once := hi.once
  called _ := rfl
  allowed := hi.allowed

/-- So does `OnFinRead` with the call into Go, the first one. -/
theorem Inv.call (hi : Inv st tr) (hfin : st.finReceived = true)
    (hnone : tr.any ServerStreamEvent.isCall = false) {data : List UInt8} {dataLen : UInt32}
    {isClosed : Int32} (hok : CallOk tr (.onDataAvailableC data dataLen isClosed)) :
    Inv { st with finRead := true } (tr ++ [.onDataAvailableC data dataLen isClosed]) := by
  have hzero : tr.countP ServerStreamEvent.isCall = 0 :=
    List.countP_eq_zero.mpr fun e he => by simpa using List.any_eq_false.mp hnone e he
  constructor
  · intro h
    simpa [ServerStreamEvent.frameData] using hi.received h
  · exact hi.bounded
  · exact hi.fresh
  · simpa using hi.fin
  · exact fun h => List.mem_append_left _ (hi.stopped h)
  · exact fun h => List.mem_append_left _ (hi.finSent h)
  · intro _
    exact ⟨hfin, .inl (by simp [ServerStreamEvent.isCall])⟩
  · simp [List.countP_append, hzero, ServerStreamEvent.isCall]
  · intro _
    rfl
  · exact Lts.allows_append_singleton.mpr ⟨hi.allowed, hok⟩

/-- A call of `OnDataAvailable` keeps the invariant. -/
theorem Inv.OnDataAvailable (hi : Inv st tr) (hc : st.headersConsumed = true)
    (hs : st.readingStopped = false) (hr : st.finRead = false) :
    Inv st.OnDataAvailable.1 (tr ++ st.OnDataAvailable.2) := by
  rcases OnDataAvailable_cases st with
    ⟨st₀, hfin, hread, hhc, he⟩ | ⟨hok, ⟨-, he⟩ | ⟨hfin, hsent, he⟩ | ⟨hfin, -, -, he⟩⟩
  · rw [he]
    apply hi.errorResponse hfin hread
    intro h
    rw [hhc, hc] at h
    cases h
  · rw [he, List.append_nil]
    exact hi.consume hc hs hok
  · rw [he, List.append_nil]
    exact (hi.consume hc hs hok).readFin hfin (.inr (hi.finSent hsent))
  · -- Go was not called yet: `OnFinRead` would have come with it
    have hnone : tr.any ServerStreamEvent.isCall = false :=
      Bool.eq_false_iff.mpr fun h => by simpa [hr] using hi.called h
    rw [he]
    exact (hi.consume hc hs hok).call hfin hnone ⟨hi.received hs, rfl, rfl, hi.fin.mp hfin⟩

/-- Every step keeps the invariant. -/
theorem Inv.step (hi : Inv st tr) {l : ServerStreamLabel} {st' : GoQuicSimpleServerStream}
    {evs : List ServerStreamEvent} (h : st.step l = some (st', evs)) : Inv st' (tr ++ evs) := by
  rcases step_cases h with ⟨valid, headers, contentLength, -, hc, rfl, rfl⟩ |
    ⟨data, -, -, rfl, rfl⟩ | ⟨-, -, rfl, rfl⟩ | ⟨-, hc, hs, hr, rfl, rfl⟩ | ⟨-, hc, rfl, rfl⟩
  · exact hi.OnInitialHeadersComplete hc valid headers contentLength
  · exact hi.frame data
  · exact hi.receiveFin
  · exact hi.OnDataAvailable hc hs hr
  · -- trailers: an error response, after the headers
    apply hi.errorResponse rfl (.inl rfl)
    intro h
    rw [hc] at h
    cases h

/-- The invariant holds on every run. -/
theorem reach_inv (h : system.Reach st tr) : Inv st tr :=
  h.induction_on (P := Inv) inv_new fun _ _ _ _ _ _ hi hs => hi.step hs

/-- On every run the stream calls into Go at most once, each call passes the data of every frame
before it, end to end, with its length as a `uint32_t` and `is_closed = 1`, after the FIN; and once
`OnFinRead` is called, Go was called or an error response was sent. -/
theorem handoff_on_every_run (h : system.Reach st tr) :
    tr.countP ServerStreamEvent.isCall ≤ 1 ∧ Lts.Allows CallOk tr ∧
      (st.finRead = true → tr.any ServerStreamEvent.isCall = false →
        ServerStreamEvent.sendErrorResponse ∈ tr) := by
  have hi := reach_inv h
  refine ⟨hi.once, hi.allowed, fun hr hn => ?_⟩
  obtain ⟨-, hres⟩ := hi.finRead hr
  rw [hn] at hres
  exact hres.resolve_left Bool.false_ne_true

/-- A request for `/` with a content length of 2, its body in two frames, and the FIN: the stream
calls into Go once. -/
theorem handoff_on_every_run_two_frames :
    ∃ st tr, system.run system.init
        [.onInitialHeadersComplete true
            (AList.singleton (GoString.ascii ":path") (GoString.ascii "/")) 2,
          .frame [1], .frame [2], .fin, .onDataAvailable] = some (st, tr) ∧
      tr.countP ServerStreamEvent.isCall = 1 ∧
      tr.countP ServerStreamEvent.isCall ≤ 1 ∧ Lts.Allows CallOk tr ∧
      (st.finRead = true → tr.any ServerStreamEvent.isCall = false →
        ServerStreamEvent.sendErrorResponse ∈ tr) := by
  have hrun : (system.run system.init
      [.onInitialHeadersComplete true
          (AList.singleton (GoString.ascii ":path") (GoString.ascii "/")) 2,
        .frame [1], .frame [2], .fin, .onDataAvailable]).map
      (fun r => r.2.countP ServerStreamEvent.isCall) = some 1 := by
    decide +kernel
  obtain ⟨⟨st, tr⟩, hr, hc⟩ := Option.map_eq_some_iff.mp hrun
  exact ⟨st, tr, hr, hc, handoff_on_every_run (Lts.Reach.of_run hr)⟩

/-- A step that calls into Go is `OnDataAvailable` reading every region, on request headers and a
body that matches a positive content length; it passes the body. -/
theorem step_call {l : ServerStreamLabel} {st' : GoQuicSimpleServerStream}
    {evs : List ServerStreamEvent} (hs : st.step l = some (st', evs))
    (hc : evs.any ServerStreamEvent.isCall = true) :
    st.readingStopped = false ∧ (readLoop st.contentLength st.body st.regions).2.2 = false ∧
      st.requestHeaders.entries ≠ [] ∧
      (0 < st.contentLength → st.contentLength = (st.body ++ st.regions.flatten).length) ∧
      st' = { st with body := st.body ++ st.regions.flatten, regions := [], finRead := true } ∧
      evs = [.onDataAvailableC (st.body ++ st.regions.flatten)
        (UInt32.ofNat (st.body ++ st.regions.flatten).length) 1] := by
  rcases step_cases hs with ⟨valid, headers, contentLength, -, -, rfl, rfl⟩ |
    ⟨data, -, -, rfl, rfl⟩ | ⟨-, -, rfl, rfl⟩ | ⟨-, -, hst, -, rfl, rfl⟩ | ⟨-, -, rfl, rfl⟩
  · cases valid <;> simp [OnInitialHeadersComplete, ServerStreamEvent.isCall] at hc
  · simp [ServerStreamEvent.isCall] at hc
  · simp [ServerStreamEvent.isCall] at hc
  · -- only the last shape of `OnDataAvailable` calls into Go
    rcases OnDataAvailable_cases st with
      ⟨st₀, -, -, -, he⟩ | ⟨hok, ⟨-, he⟩ | ⟨-, -, he⟩ | ⟨-, hh, hcl, he⟩⟩
    · rw [he, SendErrorResponse_snd] at hc
      simp [ServerStreamEvent.isCall] at hc
    · rw [he] at hc
      cases hc
    · rw [he] at hc
      cases hc
    · rw [he]
      exact ⟨hst, hok, hh, hcl, rfl, rfl⟩
  · simp [ServerStreamEvent.isCall] at hc

/-- On every run the call into Go is made only on request headers and a body that matches a
content length that is not negative, and passes that body. -/
theorem call_headers (h : system.Reach st tr) {l : ServerStreamLabel}
    {st' : GoQuicSimpleServerStream} {evs : List ServerStreamEvent}
    (hs : system.step st l = some (st', evs)) (hc : evs.any ServerStreamEvent.isCall = true) :
    st'.requestHeaders.entries ≠ [] ∧
      (0 ≤ st'.contentLength → (st'.body.length : Int) = st'.contentLength) ∧
      evs = [.onDataAvailableC st'.body (UInt32.ofNat st'.body.length) 1] := by
  obtain ⟨hst, hok, hh, hcl, rfl, rfl⟩ := step_call hs hc
  refine ⟨hh, fun h0 => ?_, rfl⟩
  -- a positive content length is checked after the FIN, a zero one in the loop
  have hle := readLoop_bounded hok h0 ((reach_inv h).bounded hst h0)
  rcases h0.lt_or_eq with hpos | hzero
  · exact (hcl hpos).symm
  · simp only at hle ⊢
    omega

/-- After request headers with a content length of 2, a two-byte frame and the FIN, the stream's
`OnDataAvailable` calls into Go with the two bytes. -/
theorem call_headers_two_bytes :
    ∃ st tr st' evs, system.run system.init
        [.onInitialHeadersComplete true
            (AList.singleton (GoString.ascii ":path") (GoString.ascii "/")) 2,
          .frame [1, 2], .fin] = some (st, tr) ∧
      system.step st .onDataAvailable = some (st', evs) ∧
      evs.any ServerStreamEvent.isCall = true ∧
      st'.requestHeaders.entries ≠ [] ∧
      (0 ≤ st'.contentLength → (st'.body.length : Int) = st'.contentLength) ∧
      evs = [.onDataAvailableC st'.body (UInt32.ofNat st'.body.length) 1] := by
  have hrun : ((system.run system.init
      [.onInitialHeadersComplete true
          (AList.singleton (GoString.ascii ":path") (GoString.ascii "/")) 2,
        .frame [1, 2], .fin]).bind fun r =>
        (system.step r.1 .onDataAvailable).map fun r' => r'.2.any ServerStreamEvent.isCall) =
      some true := by
    decide +kernel
  obtain ⟨⟨st, tr⟩, hr, hs⟩ := Option.bind_eq_some_iff.mp hrun
  obtain ⟨⟨st', evs⟩, hs, hc⟩ := Option.map_eq_some_iff.mp hs
  exact ⟨st, tr, st', evs, hr, hs, hc, call_headers (Lts.Reach.of_run hr) hs hc⟩

end GoQuicSimpleServerStream

/-- `GoQuicSimpleServerStreamOnDataAvailable` (`stream.go:123–128`) up to the user stream's
`OnDataAvailable`: the buffer `C.GoBytes(data, C.int(data_len))` copies, and `is_closed > 0`.
`none` is Go's panic on a negative length. -/
def GoQuicSimpleServerStreamOnDataAvailable (data : List UInt8) (dataLen : UInt32)
    (isClosed : Int32) : Option (List UInt8 × Bool) :=
  (GoBytes data (Int32.ofNat dataLen.toNat)).map fun buf => (buf, isClosed > 0)

/-- What Go makes of the call the stream makes: the body when its length is below `2^31`. Past that
the length keeps its low 32 bits, and Go panics when they read as a negative `int`. -/
theorem GoQuicSimpleServerStreamOnDataAvailable_eq (data : List UInt8) :
    GoQuicSimpleServerStreamOnDataAvailable data (UInt32.ofNat data.length) 1 =
      if data.length % 2 ^ 32 < 2 ^ 31 then some (data.take (data.length % 2 ^ 32), true)
      else none := by
  rw [GoQuicSimpleServerStreamOnDataAvailable, UInt32.toNat_ofNat', GoBytes_ofNat, Nat.mod_mod]
  split_ifs <;> rfl

open GoQuicSimpleServerStream in
/-- Request headers with no content length or one that matches the body, a body whose length has
its low 32 bits at `2^31` or more, and the FIN: the stream passes the whole body to Go, and
`C.GoBytes` panics on the length. -/
theorem body_handoff_panics (headers : SpdyHeaderBlock) (hh : headers.entries ≠ [])
    (contentLength : Int) (body : List UInt8)
    (hcl : contentLength < 0 ∨ contentLength = body.length)
    (hb : 2 ^ 31 ≤ body.length % 2 ^ 32) :
    system.run system.init
        [.onInitialHeadersComplete true headers contentLength, .frame body, .fin,
          .onDataAvailable] =
      some (⟨headers, contentLength, body, true, [], true, true, false, false⟩,
        [.onInitialHeadersCompleteC headers, .frame body, .fin,
          .onDataAvailableC body (UInt32.ofNat body.length) 1]) ∧
      GoQuicSimpleServerStreamOnDataAvailable body (UInt32.ofNat body.length) 1 = none := by
  have hh' : headers.entries.isEmpty = false := by
    rw [Bool.eq_false_iff, ne_eq, List.isEmpty_iff]
    exact hh
  -- neither content-length check fires: the loop's, nor the one after the FIN
  have hloop : ¬(0 ≤ contentLength ∧ contentLength < (body.length : Int)) := by omega
  have hcheck : ¬(0 < contentLength ∧ contentLength ≠ (body.length : Int)) := by omega
  have hread : readLoop contentLength [] [body] = (body, [], false) := by
    rw [readLoop, if_neg (by simpa using hloop)]
    rfl
  constructor
  · simp [Lts.run, system, step, new, OnInitialHeadersComplete, OnDataAvailable, hread,
      GoQuicSimpleServerStream.IsClosed, hh', hcheck]
  · rw [GoQuicSimpleServerStreamOnDataAvailable_eq, if_neg (by omega)]

open GoQuicSimpleServerStream GoString in
/-- A 2 GiB body on a request for `/` with no content length. -/
theorem body_handoff_panics_two_gib :
    (AList.singleton (ascii ":path") (ascii "/") : SpdyHeaderBlock).entries ≠ [] ∧
      ((-1 : Int) < 0 ∨ (-1 : Int) = (List.replicate (2 ^ 31) (0 : UInt8)).length) ∧
      2 ^ 31 ≤ (List.replicate (2 ^ 31) (0 : UInt8)).length % 2 ^ 32 ∧
      (system.run system.init
          [.onInitialHeadersComplete true (AList.singleton (ascii ":path") (ascii "/")) (-1),
            .frame (List.replicate (2 ^ 31) 0), .fin, .onDataAvailable] =
        some (⟨AList.singleton (ascii ":path") (ascii "/"), -1, List.replicate (2 ^ 31) 0, true,
            [], true, true, false, false⟩,
          [.onInitialHeadersCompleteC (AList.singleton (ascii ":path") (ascii "/")),
            .frame (List.replicate (2 ^ 31) 0), .fin,
            .onDataAvailableC (List.replicate (2 ^ 31) 0)
              (UInt32.ofNat (List.replicate (2 ^ 31) (0 : UInt8)).length) 1]) ∧
        GoQuicSimpleServerStreamOnDataAvailable (List.replicate (2 ^ 31) 0)
          (UInt32.ofNat (List.replicate (2 ^ 31) (0 : UInt8)).length) 1 = none) := by
  have hh : (AList.singleton (ascii ":path") (ascii "/") : SpdyHeaderBlock).entries ≠ [] := by
    simp [AList.singleton]
  have hcl : (-1 : Int) < 0 ∨ (-1 : Int) = (List.replicate (2 ^ 31) (0 : UInt8)).length :=
    .inl (by decide)
  have hb : 2 ^ 31 ≤ (List.replicate (2 ^ 31) (0 : UInt8)).length % 2 ^ 32 := by
    rw [List.length_replicate]
    norm_num
  exact ⟨hh, hcl, hb, body_handoff_panics _ hh _ _ hcl hb⟩

end GoQuic
