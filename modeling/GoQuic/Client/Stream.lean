import GoQuic.Container.Deque
import GoQuic.Http.Header
import GoQuic.Trace.Reach

/-!
# Reading a client stream

`SpdyClientStream` (`datastream_client.go`) receives the body of a response through
`OnDataAvailable` (`51–56`), which `GoQuicSpdyClientStream::OnDataAvailable`
(`go_quic_spdy_client_stream.cc:120–146`) calls with every readable region read so far, in
stream order, and learns that the stream closed through `OnClose` (`59–61`). The chunks wait in
a `lane.Deque`. `Read` (`89–112`) pumps the event loop until there is a chunk or the stream is
closed, then copies what fits from the oldest chunk and puts the rest back at the front.

The event loop that `Read` pumps delivers the same callbacks as the one the caller runs, and
`Read` looks at the stream only after them; so a `Read` is the callbacks it processed, as steps
of their own, then one step that returns. A `Read` that would wait is refused until a callback
comes.

On every run, the bytes returned, then the bytes still queued, are the bytes delivered; a `Read`
returns `io.EOF` only after `OnClose`, with every delivered byte returned; and a `Read` that
returns data returns as much of the oldest chunk as fits (`read_reassembles`).
-/

namespace GoQuic

open Lane

/-- The fields of `SpdyClientStream` that reading uses. -/
structure SpdyClientStream where
  pendingReads : Deque GoString
  readFinished : Bool
  closed : Bool
  deriving DecidableEq, Repr

/-- What `Read` returns: the bytes copied into `p`, whose number is the count returned, with a
nil error; or `0, io.EOF`. -/
inductive ReadOutcome where
  | data (bytes : GoString)
  | eof
  deriving DecidableEq, Repr

namespace SpdyClientStream

/-- The stream as `Conn.CreateStream` makes it (`client_conn.go`). -/
def new : SpdyClientStream := ⟨Deque.NewDeque, false, false⟩

/-- `OnDataAvailable`. -/
def OnDataAvailable (stream : SpdyClientStream) (data : GoString) (isClosed : Bool) :
    SpdyClientStream :=
  let stream := { stream with pendingReads := (stream.pendingReads.Append data).1 }
  if isClosed then { stream with readFinished := true } else stream

/-- `OnClose`. -/
def OnClose (stream : SpdyClientStream) : SpdyClientStream := { stream with closed := true }

/-- `copy(p, src)` into a buffer of length `n`: the bytes copied. -/
def copy (n : Nat) (src : GoString) : GoString := src.take n

/-- `Read` into a buffer of length `len`, after the callbacks the event loop delivered while it
waited; `none` while it is still waiting. -/
def Read (stream : SpdyClientStream) (len : Nat) : Option (SpdyClientStream × ReadOutcome) :=
  if stream.closed && stream.pendingReads.Empty then some (stream, .eof)
  -- wait for body
  else if stream.pendingReads.Empty then none
  else
    match stream.pendingReads.Shift with
    -- not reached: the deque is not empty
    | (none, _) => none
    | (some buffer, pendingReads) =>
      if len < buffer.length then
        some ({ stream with pendingReads := (pendingReads.Prepend (buffer.drop len)).1 },
          .data (copy len (buffer.take len)))
      else some ({ stream with pendingReads := pendingReads }, .data (copy len buffer))

end SpdyClientStream

/-- What drives a client stream: the callbacks from libquic, and `Read` calls. -/
inductive StreamLabel where
  | onDataAvailable (data : GoString) (isClosed : Bool)
  | onClose
  | read (len : Nat)
  deriving DecidableEq, Repr

/-- What a run of a client stream shows. -/
inductive StreamEvent where
  | dataAvailable (data : GoString)
  | closed
  | returned (outcome : ReadOutcome)
  deriving DecidableEq, Repr

namespace SpdyClientStream

/-- One step of a client stream. -/
def step (stream : SpdyClientStream) : StreamLabel → Option (SpdyClientStream × List StreamEvent)
  | .onDataAvailable data isClosed =>
    some (stream.OnDataAvailable data isClosed, [.dataAvailable data])
  | .onClose => some (stream.OnClose, [.closed])
  | .read len => (stream.Read len).map fun r => (r.1, [.returned r.2])

/-- A client stream as a system. -/
def system : Lts SpdyClientStream StreamLabel StreamEvent := ⟨new, step⟩

/-! ### What `Read` returns -/

variable {stream stream' : SpdyClientStream} {len : Nat}

/-- `Read` returns `io.EOF` only on a closed stream with nothing queued, which it leaves as it
was. -/
theorem Read_eof (h : stream.Read len = some (stream', .eof)) :
    stream.closed = true ∧ stream.pendingReads.container = [] ∧ stream' = stream := by
  unfold Read at h
  split at h
  · next hc =>
    simp only [Bool.and_eq_true, Deque.Empty_iff] at hc
    exact ⟨hc.1, hc.2, (Prod.mk.inj (Option.some.inj h)).1.symm⟩
  · split at h
    · cases h
    · split at h
      · cases h
      · split at h <;> cases h

/-- A `Read` that returns data copies it from the front of the oldest chunk, as much as fits, and
puts the rest of the chunk back in front. -/
theorem Read_data {bytes : GoString} (hcap : stream.pendingReads.capacity < 0)
    (h : stream.Read len = some (stream', .data bytes)) :
    ∃ c rest, stream.pendingReads.container = c :: rest ∧ bytes = c.take len ∧
      stream'.pendingReads.container = (if len < c.length then c.drop len :: rest else rest) ∧
      stream'.pendingReads.capacity = stream.pendingReads.capacity ∧
      stream'.closed = stream.closed := by
  unfold Read at h
  split at h
  · cases h
  · split at h
    · cases h
    · split at h
      · cases h
      · next buffer pendingReads hshift =>
        obtain ⟨hc, hcap'⟩ := Deque.Shift_eq_some hshift
        refine ⟨buffer, pendingReads.container, hc, ?_⟩
        split at h
        · next hlt =>
          obtain ⟨rfl, hb⟩ := Prod.mk.inj (Option.some.inj h)
          cases hb
          refine ⟨by simp [copy, List.take_take], ?_, by simp [hcap'], rfl⟩
          rw [if_pos hlt, Deque.container_Prepend (hcap'.symm ▸ hcap)]
        · next hge =>
          obtain ⟨rfl, hb⟩ := Prod.mk.inj (Option.some.inj h)
          cases hb
          exact ⟨rfl, by rw [if_neg hge], hcap', rfl⟩

/-- What a `Read` returns, then what it leaves queued, is what was queued. -/
theorem Read_data_flatten {bytes : GoString} (hcap : stream.pendingReads.capacity < 0)
    (h : stream.Read len = some (stream', .data bytes)) :
    bytes ++ stream'.pendingReads.container.flatten = stream.pendingReads.container.flatten := by
  obtain ⟨c, rest, hc, rfl, hc', -⟩ := Read_data hcap h
  rw [hc, hc']
  split
  · rw [List.flatten_cons, ← List.append_assoc, List.take_append_drop, List.flatten_cons]
  · next hge =>
    rw [List.take_of_length_le (by omega)]
    simp

end SpdyClientStream

/-! ### Every run -/

/-- The bytes an event delivers. -/
def StreamEvent.delivered : StreamEvent → GoString
  | .dataAvailable data => data
  | _ => []

/-- The bytes an event returns to the reader. -/
def StreamEvent.returnedData : StreamEvent → GoString
  | .returned (.data bytes) => bytes
  | _ => []

/-- Every byte delivered, in order. -/
def deliveredBytes (tr : List StreamEvent) : GoString := tr.flatMap StreamEvent.delivered

/-- Every byte `Read` returned, in order. -/
def returnedBytes (tr : List StreamEvent) : GoString := tr.flatMap StreamEvent.returnedData

theorem deliveredBytes_append (tr evs : List StreamEvent) :
    deliveredBytes (tr ++ evs) = deliveredBytes tr ++ deliveredBytes evs :=
  List.flatMap_append

theorem returnedBytes_append (tr evs : List StreamEvent) :
    returnedBytes (tr ++ evs) = returnedBytes tr ++ returnedBytes evs :=
  List.flatMap_append

@[simp] theorem deliveredBytes_singleton (e : StreamEvent) : deliveredBytes [e] = e.delivered := by
  simp [deliveredBytes]

@[simp] theorem returnedBytes_singleton (e : StreamEvent) :
    returnedBytes [e] = e.returnedData := by
  simp [returnedBytes]

/-- `io.EOF` comes after `OnClose`, once every byte delivered has been returned. -/
def EofAllowed (pre : List StreamEvent) : StreamEvent → Prop
  | .returned .eof => StreamEvent.closed ∈ pre ∧ returnedBytes pre = deliveredBytes pre
  | _ => True

namespace SpdyClientStream

variable {stream stream' : SpdyClientStream}

/-- What a run keeps: the deque has no capacity, the bytes returned then the bytes queued are the
bytes delivered, and a closed stream was told so by `OnClose`. -/
structure Tracks (stream : SpdyClientStream) (tr : List StreamEvent) : Prop where
  uncapped : stream.pendingReads.capacity < 0
  bytes : returnedBytes tr ++ stream.pendingReads.container.flatten = deliveredBytes tr
  closed : stream.closed = true → StreamEvent.closed ∈ tr

theorem tracks_new : new.Tracks [] where
  uncapped := by decide
  bytes := rfl
  closed := by simp [new]

/-- Each step emits one event, which `EofAllowed` allows, and keeps `Tracks`. -/
theorem Tracks.step {tr : List StreamEvent} (ht : stream.Tracks tr) {l : StreamLabel}
    {evs : List StreamEvent} (h : stream.step l = some (stream', evs)) :
    stream'.Tracks (tr ++ evs) ∧ ∃ e, evs = [e] ∧ EofAllowed tr e := by
  cases l with
  | onDataAvailable data isClosed =>
    obtain ⟨rfl, rfl⟩ := Prod.mk.inj (Option.some.inj h)
    -- the chunk goes to the back of the deque
    have hq : (stream.OnDataAvailable data isClosed).pendingReads.container =
        stream.pendingReads.container ++ [data] := by
      unfold OnDataAvailable
      split <;> exact Deque.container_Append ht.uncapped
    have hcap : (stream.OnDataAvailable data isClosed).pendingReads.capacity =
        stream.pendingReads.capacity := by
      unfold OnDataAvailable
      split <;> exact Deque.capacity_Append
    have hclosed : (stream.OnDataAvailable data isClosed).closed = stream.closed := by
      unfold OnDataAvailable
      split <;> rfl
    refine ⟨⟨hcap ▸ ht.uncapped, ?_, fun hc => ?_⟩, _, rfl, trivial⟩
    · rw [hq, List.flatten_append, returnedBytes_append, deliveredBytes_append, ← ht.bytes]
      simp [StreamEvent.returnedData, StreamEvent.delivered]
    · exact List.mem_append_left _ (ht.closed (hclosed ▸ hc))
  | onClose =>
    obtain ⟨rfl, rfl⟩ := Prod.mk.inj (Option.some.inj h)
    refine ⟨⟨ht.uncapped, ?_, fun _ => by simp⟩, _, rfl, trivial⟩
    rw [returnedBytes_append, deliveredBytes_append, ← ht.bytes]
    simp [StreamEvent.returnedData, StreamEvent.delivered, OnClose]
  | read len =>
    obtain ⟨⟨stream'', outcome⟩, hr, he⟩ := Option.map_eq_some_iff.mp h
    obtain ⟨rfl, rfl⟩ := Prod.mk.inj he
    cases outcome with
    | eof =>
      obtain ⟨hc, hnil, rfl⟩ := Read_eof hr
      have hbytes := ht.bytes
      rw [hnil, List.flatten_nil, List.append_nil] at hbytes
      refine ⟨⟨ht.uncapped, ?_, fun hc' => List.mem_append_left _ (ht.closed hc')⟩, _, rfl,
        ht.closed hc, hbytes⟩
      rw [returnedBytes_append, deliveredBytes_append, hnil, hbytes]
      simp [StreamEvent.returnedData, StreamEvent.delivered]
    | data bytes =>
      obtain ⟨-, -, -, -, -, hcap, hclosed⟩ := Read_data ht.uncapped hr
      refine ⟨⟨hcap ▸ ht.uncapped, ?_, fun hc => ?_⟩, _, rfl, trivial⟩
      · -- the bytes returned come off the front of what was queued
        rw [returnedBytes_append, deliveredBytes_append, ← ht.bytes,
          ← Read_data_flatten ht.uncapped hr]
        simp [StreamEvent.returnedData, StreamEvent.delivered]
      · exact List.mem_append_left _ (ht.closed (hclosed ▸ hc))

/-- On every run of a client stream: the bytes `Read` returned, then the bytes still queued, are
the bytes delivered, so what was returned is a prefix of what was delivered; every `io.EOF` came
after `OnClose`, with every delivered byte returned; and a `Read` that returns data returns
`min(len(p), len(c))` bytes from the front of the oldest chunk `c` left. -/
theorem read_reassembles {stream : SpdyClientStream} {tr : List StreamEvent}
    (h : system.Reach stream tr) :
    returnedBytes tr ++ stream.pendingReads.container.flatten = deliveredBytes tr ∧
      Lts.Allows EofAllowed tr ∧
      ∀ len stream' bytes, stream.Read len = some (stream', .data bytes) →
        ∃ c rest, stream.pendingReads.container = c :: rest ∧ bytes = c.take len ∧
          bytes.length = min len c.length := by
  have hrun : stream.Tracks tr ∧ Lts.Allows EofAllowed tr :=
    h.induction_on (P := fun stream tr => stream.Tracks tr ∧ Lts.Allows EofAllowed tr)
      ⟨tracks_new, Lts.allows_nil _⟩ fun _ _ _ _ _ _ hp hs => by
        obtain ⟨ht', e, rfl, he⟩ := hp.1.step hs
        exact ⟨ht', Lts.allows_append_singleton.mpr ⟨hp.2, he⟩⟩
  refine ⟨hrun.1.bytes, hrun.2, fun len stream' bytes hr => ?_⟩
  obtain ⟨c, rest, hc, rfl, -⟩ := Read_data hrun.1.uncapped hr
  exact ⟨c, rest, hc, rfl, List.length_take⟩

/-- A chunk read in two parts, a second chunk with the fin, `OnClose`, and `io.EOF`. -/
theorem read_reassembles_split_chunk :
    let tr : List StreamEvent := [.dataAvailable [1, 2, 3], .returned (.data [1, 2]),
      .dataAvailable [4], .closed, .returned (.data [3]), .returned (.data [4]), .returned .eof]
    let stream : SpdyClientStream := ⟨⟨[], -1⟩, true, true⟩
    system.Reach stream tr ∧
      (returnedBytes tr ++ stream.pendingReads.container.flatten = deliveredBytes tr ∧
        Lts.Allows EofAllowed tr ∧
        ∀ len stream' bytes, stream.Read len = some (stream', .data bytes) →
          ∃ c rest, stream.pendingReads.container = c :: rest ∧ bytes = c.take len ∧
            bytes.length = min len c.length) := by
  intro tr stream
  have hrun : system.run system.init [.onDataAvailable [1, 2, 3] false, .read 2,
      .onDataAvailable [4] true, .onClose, .read 5, .read 5, .read 5] = some (stream, tr) := by
    decide +kernel
  exact ⟨Lts.Reach.of_run hrun, read_reassembles (Lts.Reach.of_run hrun)⟩

end SpdyClientStream

end GoQuic
