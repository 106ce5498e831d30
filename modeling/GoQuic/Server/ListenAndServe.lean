import Mathlib
import GoQuic.Server.Listen
import GoQuic.Trace.Custody

/-!
# The server as `ListenAndServe` runs it

`ListenAndServe` (`server.go:58–166`) starts `numOfServers` `Serve` loops (`server.go:169–208`),
each with its own dispatcher and its own `readChan` of capacity 500, and as many readers, which
share `srv.bufpool`. A step is one goroutine's move on shared state: a reader's turn of its loop
up to the channel send (`readFunc`), the send itself, which blocks while the channel is full, a
`Serve` loop taking the next `UdpData` and calling `ProcessPacket` on `Buf[:N]`, its
`srv.bufpool.Put` of the buffer afterwards, and the dispatcher's other work (`DoTasks`, the
sessions' callbacks), taken as the dispatcher's own labels. goquic never calls
`ProcessBufferedChlos`, so that label is not among them (`DispatcherLabel.ofServe`). The writers'
goroutines touch none of this state and are left out.

On every run:
* no buffer is in two places: the pool, the readers, the channels and the `Serve` loops that
  still have to put one back hold pairwise different buffers, none of them in the pool, and every
  buffer keeps its 3000 bytes (`buffers_exclusive`);
* each reader sends the datagram it read last, cut to the buffer, to the dispatcher its
  connection ID routes to (`sends_as_read`), and each dispatcher processes what the readers sent
  it, in the order they sent it, byte for byte (`delivery_in_order`);
* a connection ID a dispatcher knows routes to it, so no two dispatchers know one connection
  (`held_routes`);
* each dispatcher's state is one the dispatcher reaches alone, with the server's events for it as
  its trace (`dispatcher_reach`).
-/

namespace GoQuic

/-- Where a reader is in its loop: between datagrams, or blocked on the send of `d` to the
channel of dispatcher `i`. -/
inductive ReadFuncPc (N : NumOfServers) where
  | idle
  | sending (d : ReadUdpData) (i : Fin N.n)

/-- Where a `Serve` loop is: at its `select`, or between `ProcessPacket` and
`srv.bufpool.Put(result.Buf)` of the buffer `b`. -/
inductive ServePc where
  | idle
  | putting (b : Nat)

/-- The running server: `srv.bufpool`, the slices its buffers are, where each reader and `Serve`
loop is, `readChanArray`, and each `Serve` loop's dispatcher. -/
structure QuicSpdyServer (N : NumOfServers) where
  heap : Heap
  bufpool : BytesBufferPool
  readers : Fin N.n → ReadFuncPc N
  readChanArray : Fin N.n → List ReadUdpData
  serves : Fin N.n → ServePc
  dispatchers : Fin N.n → GoQuicDispatcher

/-- What drives the server: the datagrams the sockets deliver, the readers' sends, and the
`Serve` loops' cases. The stateless rejector's and the packet store's outcomes for a packet are
part of the label, as for the dispatcher alone. -/
inductive ServerLabel (N : NumOfServers) where
  | read (r : Fin N.n) (peer : UDPAddr) (dgram : List UInt8)
  | send (r : Fin N.n)
  | receive (i : Fin N.n) (rejector : RejectorOutcome) (enqueueOk : Bool)
  | put (i : Fin N.n)
  /-- `DoTasks` or a session's callback on `sessionFnChan`, which step the dispatcher on `l`. -/
  | task (i : Fin N.n) (l : DispatcherLabel)

/-- What a run shows: the datagrams read, the bytes each send hands over, the bytes each
`ProcessPacket` gets, and the dispatchers' own events. -/
inductive ServerEvent (N : NumOfServers) where
  | readFromUDP (r : Fin N.n) (peer : UDPAddr) (dgram : List UInt8)
  | send (r i : Fin N.n) (peer : UDPAddr) (bytes : List UInt8)
  | processPacket (i : Fin N.n) (peer : UDPAddr) (bytes : List UInt8)
  | dispatcher (i : Fin N.n) (e : DispatcherEvent)
  deriving DecidableEq

/-- The dispatcher's labels that `Serve` brings besides a packet, which only `readChan` brings:
the alarms `DoTasks` runs (the time-wait list's and the packet store's expirations,
`DeleteSessionsAlarm`) and a session that closes. Nothing in goquic calls
`ProcessBufferedChlos`. -/
def DispatcherLabel.ofServe : DispatcherLabel → Bool
  | .onConnectionClosed _ | .expireBuffered _ | .deleteSessions | .timeWaitExpire _ => true
  | .processPacket .. | .processBufferedChlos _ => false

theorem DispatcherLabel.ids_eq_empty {l : DispatcherLabel} (h : l.ofServe = true) : l.ids = ∅ := by
  cases l with
  | processPacket => cases h
  | processBufferedChlos => cases h
  | _ => rfl

variable {N : NumOfServers}

/-- The reader after its turn: sending, or back at the top of its loop. -/
def ReadFuncPc.after : Option (ReadUdpData × Fin N.n) → ReadFuncPc N
  | some (d, i) => .sending d i
  | none => .idle

namespace QuicSpdyServer

variable (N) in
/-- The server once `ListenAndServe` has started its loops: `NewBytesBufferPool(1000, 3000)`, empty
channels and new dispatchers. -/
def new : QuicSpdyServer N :=
  ⟨Heap.empty, BytesBufferPool.NewBytesBufferPool 1000 3000, fun _ => .idle, fun _ => [],
    fun _ => .idle, fun _ => GoQuicDispatcher.new⟩

variable (flags : Flags) (framer : Framer)

/-- One step of one goroutine. -/
def step (s : QuicSpdyServer N) :
    ServerLabel N → Option (QuicSpdyServer N × List (ServerEvent N))
  | .read r peer dgram =>
    match s.readers r with
    | .idle =>
      let t := readFunc N s.bufpool s.heap peer dgram
      some ({ s with
          bufpool := t.1
          heap := t.2.1
          readers := Function.update s.readers r (ReadFuncPc.after t.2.2) },
        [.readFromUDP r peer dgram])
    | .sending _ _ => none
  | .send r =>
    match s.readers r with
    | .sending d i =>
      -- `make(chan UdpData, 500)`: the send blocks while the channel is full
      if (s.readChanArray i).length < 500 then
        some ({ s with
            readers := Function.update s.readers r .idle
            readChanArray := Function.update s.readChanArray i (s.readChanArray i ++ [d]) },
          [.send r i d.Addr (s.heap.slice d)])
      else none
    | .idle => none
  | .receive i rejector enqueueOk =>
    match s.serves i, s.readChanArray i with
    | .idle, d :: rest =>
      -- `dispatcher.ProcessPacket(listen_addr, result.Addr, result.Buf[:result.N])`
      let r := (s.dispatchers i).ProcessPacket flags (framer.packet d.Addr (s.heap.slice d))
        rejector enqueueOk
      some ({ s with
          readChanArray := Function.update s.readChanArray i rest
          serves := Function.update s.serves i (.putting d.Buf)
          dispatchers := Function.update s.dispatchers i r.1 },
        .processPacket i d.Addr (s.heap.slice d) :: r.2.map (.dispatcher i))
    | _, _ => none
  | .put i =>
    match s.serves i with
    | .putting b =>
      some ({ s with bufpool := s.bufpool.Put b, serves := Function.update s.serves i .idle }, [])
    | .idle => none
  | .task i l =>
    match s.serves i with
    | .idle =>
      if l.ofServe then
        (GoQuicDispatcher.step flags (s.dispatchers i) l).map fun r =>
          ({ s with dispatchers := Function.update s.dispatchers i r.1 }, r.2.map (.dispatcher i))
      else none
    | .putting _ => none

variable (N) in
/-- The server as a system. -/
def system : Lts (QuicSpdyServer N) (ServerLabel N) (ServerEvent N) := ⟨new N, step flags framer⟩

/-! ### What each step does -/

variable {flags framer} {s s' : QuicSpdyServer N} {evs : List (ServerEvent N)}

theorem step_read_cases {r : Fin N.n} {peer : UDPAddr} {dgram : List UInt8}
    (h : step flags framer s (.read r peer dgram) = some (s', evs)) :
    s.readers r = .idle ∧
      s' = { s with
        bufpool := (readFunc N s.bufpool s.heap peer dgram).1
        heap := (readFunc N s.bufpool s.heap peer dgram).2.1
        readers := Function.update s.readers r
          (ReadFuncPc.after (readFunc N s.bufpool s.heap peer dgram).2.2) } ∧
      evs = [.readFromUDP r peer dgram] := by
  simp only [step] at h
  split at h
  · next hr =>
    obtain ⟨rfl, rfl⟩ := Prod.mk.inj (Option.some.inj h)
    exact ⟨hr, rfl, rfl⟩
  · cases h

theorem step_send_cases {r : Fin N.n} (h : step flags framer s (.send r) = some (s', evs)) :
    ∃ d i, s.readers r = .sending d i ∧ (s.readChanArray i).length < 500 ∧
      s' = { s with
        readers := Function.update s.readers r .idle
        readChanArray := Function.update s.readChanArray i (s.readChanArray i ++ [d]) } ∧
      evs = [.send r i d.Addr (s.heap.slice d)] := by
  simp only [step] at h
  split at h
  · next d i hr =>
    split at h
    · next hlt =>
      obtain ⟨rfl, rfl⟩ := Prod.mk.inj (Option.some.inj h)
      exact ⟨d, i, hr, hlt, rfl, rfl⟩
    · cases h
  · cases h

theorem step_receive_cases {i : Fin N.n} {rejector : RejectorOutcome} {enqueueOk : Bool}
    (h : step flags framer s (.receive i rejector enqueueOk) = some (s', evs)) :
    ∃ d rest, s.serves i = .idle ∧ s.readChanArray i = d :: rest ∧
      s' = { s with
        readChanArray := Function.update s.readChanArray i rest
        serves := Function.update s.serves i (.putting d.Buf)
        dispatchers := Function.update s.dispatchers i
          ((s.dispatchers i).ProcessPacket flags (framer.packet d.Addr (s.heap.slice d))
            rejector enqueueOk).1 } ∧
      evs = .processPacket i d.Addr (s.heap.slice d) ::
        ((s.dispatchers i).ProcessPacket flags (framer.packet d.Addr (s.heap.slice d))
          rejector enqueueOk).2.map (.dispatcher i) := by
  simp only [step] at h
  split at h
  · next d rest hs hc =>
    obtain ⟨rfl, rfl⟩ := Prod.mk.inj (Option.some.inj h)
    exact ⟨d, rest, hs, hc, rfl, rfl⟩
  · cases h

theorem step_put_cases {i : Fin N.n} (h : step flags framer s (.put i) = some (s', evs)) :
    ∃ b, s.serves i = .putting b ∧
      s' = { s with bufpool := s.bufpool.Put b, serves := Function.update s.serves i .idle } ∧
      evs = [] := by
  simp only [step] at h
  split at h
  · next b hs =>
    obtain ⟨rfl, rfl⟩ := Prod.mk.inj (Option.some.inj h)
    exact ⟨b, hs, rfl, rfl⟩
  · cases h

theorem step_task_cases {i : Fin N.n} {l : DispatcherLabel}
    (h : step flags framer s (.task i l) = some (s', evs)) :
    s.serves i = .idle ∧ l.ofServe = true ∧
      ∃ d devs, GoQuicDispatcher.step flags (s.dispatchers i) l = some (d, devs) ∧
        s' = { s with dispatchers := Function.update s.dispatchers i d } ∧
        evs = devs.map (.dispatcher i) := by
  simp only [step] at h
  split at h
  · next hs =>
    split at h
    · next hl =>
      obtain ⟨⟨d, devs⟩, hd, he⟩ := Option.map_eq_some_iff.mp h
      obtain ⟨rfl, rfl⟩ := Prod.mk.inj he
      exact ⟨hs, hl, d, devs, hd, rfl, rfl⟩
    · cases h
  · cases h

end QuicSpdyServer

/-! ### Where the buffers are -/

/-- The buffer a reader holds. -/
def ReadFuncPc.bufs : ReadFuncPc N → Multiset Nat
  | .idle => 0
  | .sending d _ => {d.Buf}

/-- The buffer a `Serve` loop has still to put back. -/
def ServePc.bufs : ServePc → Multiset Nat
  | .idle => 0
  | .putting b => {b}

/-- The buffers of the `UdpData` waiting in a channel. -/
def chanBufs (q : List ReadUdpData) : Multiset Nat := (q.map (·.Buf) : List Nat)

@[simp] theorem ReadFuncPc.bufs_idle : (ReadFuncPc.idle : ReadFuncPc N).bufs = 0 := rfl

@[simp] theorem ServePc.bufs_idle : ServePc.idle.bufs = 0 := rfl

@[simp] theorem chanBufs_nil : chanBufs [] = 0 := rfl

@[simp] theorem chanBufs_cons (d : ReadUdpData) (q : List ReadUdpData) :
    chanBufs (d :: q) = {d.Buf} + chanBufs q := by
  simp [chanBufs, Multiset.singleton_add]

@[simp] theorem chanBufs_append (q : List ReadUdpData) (d : ReadUdpData) :
    chanBufs (q ++ [d]) = chanBufs q + {d.Buf} := by
  rw [chanBufs, List.map_append, ← Multiset.coe_add]
  rfl

/-- The reader after a turn holds at most the buffer it got. -/
theorem ReadFuncPc.bufs_after_le {o : Option (ReadUdpData × Fin N.n)} {b : Nat}
    (h : ∀ d i, o = some (d, i) → d.Buf = b) : (ReadFuncPc.after o).bufs ≤ {b} := by
  match o, h with
  | none, _ => exact Multiset.zero_le _
  | some (d, i), h => rw [ReadFuncPc.after, ReadFuncPc.bufs, h d i rfl]

theorem ReadFuncPc.after_eq_sending {o : Option (ReadUdpData × Fin N.n)} {d : ReadUdpData}
    {i : Fin N.n} (h : ReadFuncPc.after o = .sending d i) : o = some (d, i) := by
  match o, h with
  | some (d', i'), h =>
    cases h
    rfl

namespace QuicSpdyServer

/-- The buffers in use: held by a reader, waiting in a channel, or about to be put back. -/
def inUse (s : QuicSpdyServer N) : Multiset Nat :=
  ∑ r, (s.readers r).bufs + ∑ i, chanBufs (s.readChanArray i) + ∑ i, (s.serves i).bufs

/-- Every buffer the server holds: those waiting in the pool, and those in use. -/
def buffers (s : QuicSpdyServer N) : Multiset Nat := (s.bufpool.c : Multiset Nat) + s.inUse

variable {s s' : QuicSpdyServer N}

theorem mem_inUse_of_reading {r : Fin N.n} {d : ReadUdpData} {i : Fin N.n}
    (h : s.readers r = .sending d i) : d.Buf ∈ s.inUse := by
  have hr : d.Buf ∈ ∑ r, (s.readers r).bufs :=
    Multiset.mem_sum.mpr ⟨r, Finset.mem_univ r, by simp [h, ReadFuncPc.bufs]⟩
  exact Multiset.mem_add.mpr (.inl (Multiset.mem_add.mpr (.inl hr)))

theorem mem_inUse_of_queued {i : Fin N.n} {d : ReadUdpData} (h : d ∈ s.readChanArray i) :
    d.Buf ∈ s.inUse := by
  have hc : d.Buf ∈ ∑ i, chanBufs (s.readChanArray i) :=
    Multiset.mem_sum.mpr ⟨i, Finset.mem_univ i, by simpa [chanBufs] using ⟨d, h, rfl⟩⟩
  exact Multiset.mem_add.mpr (.inl (Multiset.mem_add.mpr (.inr hc)))

variable (N) in
/-- The `UdpData` `d` is on its way to dispatcher `i`: `0 < N ≤ len(Buf)`, and the connection ID
its reader read from `Buf` routes to `i`. -/
def Routed (h : Heap) (d : ReadUdpData) (i : Fin N.n) : Prop :=
  0 < d.N ∧ d.N ≤ (h.mem d.Buf).length ∧
    ∃ connId, parseConnId (h.mem d.Buf) d.N = some connId ∧ route N connId = i

theorem Routed.of_mem_eq {h h' : Heap} {d : ReadUdpData} {i : Fin N.n} (hr : Routed N h d i)
    (he : h'.mem d.Buf = h.mem d.Buf) : Routed N h' d i := by
  rw [Routed, he]
  exact hr

/-- What every reachable server keeps: each buffer is in one place and below the heap's counter,
every slice the server made has its 3000 bytes, the pool is `NewBytesBufferPool(1000, 3000)`, and
each `UdpData` a reader holds or a channel carries is routed to its dispatcher. -/
structure Inv (s : QuicSpdyServer N) : Prop where
  fresh : Custody.Fresh s.buffers s.heap.next
  sized : ∀ b < s.heap.next, (s.heap.mem b).length = 3000
  poolsize : s.bufpool.poolsize = 1000
  bufsize : s.bufpool.bufsize = 3000
  reading : ∀ r d i, s.readers r = .sending d i → Routed N s.heap d i
  queued : ∀ i, ∀ d ∈ s.readChanArray i, Routed N s.heap d i

theorem inv_new : (new N).Inv := by
  refine ⟨⟨?_, ?_⟩, ?_, rfl, rfl, ?_, ?_⟩
  · simp [buffers, inUse, new, BytesBufferPool.NewBytesBufferPool]
  · simp [buffers, inUse, new, BytesBufferPool.NewBytesBufferPool]
  · intro b hb
    exact absurd hb (Nat.not_lt_zero b)
  · intro r d i h
    cases h
  · intro i d hd
    cases hd

theorem Inv.lt_of_mem_inUse (hi : s.Inv) {b : Nat} (hb : b ∈ s.inUse) : b < s.heap.next :=
  hi.fresh.lt b (Multiset.mem_add.mpr (.inr hb))

/-! #### The buffer a reader gets -/

section Get

variable {b : Nat} {bp' : BytesBufferPool} {h₁ : Heap}

/-- The buffer `Get` hands out is in use nowhere: it waited in the pool, or it is new. -/
theorem Inv.Get_ne (hi : s.Inv) (hg : s.bufpool.Get s.heap = (b, bp', h₁)) {b' : Nat}
    (hb' : b' ∈ s.inUse) : b' ≠ b := by
  rcases BytesBufferPool.Get_cases hg with ⟨rest, hc, -, -⟩ | ⟨-, rfl, -, -⟩
  · have hb : b ∈ (s.bufpool.c : Multiset Nat) := by simp [hc]
    exact (hi.fresh.ne_of_mem_add (le_refl _) hb hb').symm
  · exact Nat.ne_of_lt (hi.lt_of_mem_inUse hb')

/-- `Get` changes no slice in use. -/
theorem Inv.Get_mem (hi : s.Inv) (hg : s.bufpool.Get s.heap = (b, bp', h₁)) {b' : Nat}
    (hb' : b' ∈ s.inUse) : h₁.mem b' = s.heap.mem b' := by
  rcases BytesBufferPool.Get_cases hg with ⟨rest, -, -, rfl⟩ | ⟨-, rfl, -, rfl⟩
  · rfl
  · exact Heap.make_mem_of_ne (Nat.ne_of_lt (hi.lt_of_mem_inUse hb'))

/-- After `Get` every slice, the one handed out included, has its 3000 bytes. -/
theorem Inv.Get_sized (hi : s.Inv) (hg : s.bufpool.Get s.heap = (b, bp', h₁)) :
    b < h₁.next ∧ ∀ b' < h₁.next, (h₁.mem b').length = 3000 := by
  rcases BytesBufferPool.Get_cases hg with ⟨rest, hc, -, rfl⟩ | ⟨-, rfl, -, rfl⟩
  · have hb : b ∈ s.buffers := Multiset.mem_add.mpr (.inl (by simp [hc]))
    exact ⟨hi.fresh.lt b hb, hi.sized⟩
  · refine ⟨by simp, fun b' hb' => ?_⟩
    rw [Heap.make_next] at hb'
    rcases Nat.lt_succ_iff_lt_or_eq.mp hb' with hlt | rfl
    · rw [Heap.make_mem_of_ne (Nat.ne_of_lt hlt)]
      exact hi.sized b' hlt
    · rw [Heap.make_mem_self, List.length_replicate, hi.bufsize]

end Get

/-! #### What each step does to the buffers

A send and a receive move a buffer from one place to the next, a `Put` into a full pool drops
one, and a reader's turn takes one from the pool, or a new one from the heap, and keeps it or
drops it. -/

variable {flags framer} {evs : List (ServerEvent N)}

theorem buffers_read {r : Fin N.n} {peer : UDPAddr} {dgram : List UInt8}
    (hs : step flags framer s (.read r peer dgram) = some (s', evs)) :
    s'.buffers ≤ s.buffers ∧ s'.heap.next = s.heap.next ∨
      s'.buffers ≤ s.heap.next ::ₘ s.buffers ∧ s'.heap.next = s.heap.next + 1 := by
  obtain ⟨hidle, rfl, -⟩ := step_read_cases hs
  rcases ht : readFunc N s.bufpool s.heap peer dgram with ⟨bp', h', o⟩
  obtain ⟨b, h₁, hg, rfl, ho⟩ := readFunc_spec ht
  -- the reader, idle before, now holds at most the buffer it got
  have hR : ∑ j, (Function.update s.readers r (ReadFuncPc.after o) j).bufs + 0 =
      ∑ j, (s.readers j).bufs + (ReadFuncPc.after o).bufs :=
    Custody.sum_update_add_eq s.readers ReadFuncPc.bufs r (by rw [hidle]; simp)
  obtain ⟨e, he⟩ := Multiset.le_iff_exists_add.mp
    (ReadFuncPc.bufs_after_le fun d i h => by rw [(ho d i h).1])
  have hbuf : ({ s with
      bufpool := bp'
      heap := h₁.write b (ReadFromUDP (h₁.mem b) dgram).1
      readers := Function.update s.readers r (ReadFuncPc.after o) } : QuicSpdyServer N).buffers + e =
      (bp'.c : Multiset Nat) + s.inUse + {b} := by
    simp only [buffers, inUse]
    rw [add_zero] at hR
    rw [hR, he]
    abel
  rcases BytesBufferPool.Get_cases hg with ⟨rest, hc, rfl, rfl⟩ | ⟨hc, rfl, rfl, rfl⟩
  · -- a buffer from the pool
    refine .inl ⟨?_, rfl⟩
    calc _ ≤ _ := Multiset.le_add_right _ e
      _ = _ := hbuf
      _ = s.buffers := by
        simp only [buffers, hc, ← Multiset.cons_coe, ← Multiset.singleton_add]
        abel
  · -- a new buffer
    refine .inr ⟨?_, rfl⟩
    calc _ ≤ _ := Multiset.le_add_right _ e
      _ = _ := hbuf
      _ = s.heap.next ::ₘ s.buffers := by
        simp only [buffers, ← Multiset.singleton_add]
        abel

theorem buffers_send {r : Fin N.n} (hs : step flags framer s (.send r) = some (s', evs)) :
    s'.buffers = s.buffers := by
  obtain ⟨d, i, hr, -, rfl, -⟩ := step_send_cases hs
  -- the buffer moves from the reader to the end of the channel
  have hR : ∑ j, (Function.update s.readers r .idle j).bufs + {d.Buf} =
      ∑ j, (s.readers j).bufs + 0 :=
    Custody.sum_update_add_eq s.readers ReadFuncPc.bufs r (by rw [hr]; simp [ReadFuncPc.bufs])
  have hC : ∑ j, chanBufs (Function.update s.readChanArray i (s.readChanArray i ++ [d]) j) + 0 =
      ∑ j, chanBufs (s.readChanArray j) + {d.Buf} :=
    Custody.sum_update_add_eq s.readChanArray chanBufs i (by simp)
  simp only [buffers, inUse]
  rw [add_zero] at hR hC
  rw [hC, ← hR]
  abel

theorem buffers_receive {i : Fin N.n} {rejector : RejectorOutcome} {enqueueOk : Bool}
    (hs : step flags framer s (.receive i rejector enqueueOk) = some (s', evs)) :
    s'.buffers = s.buffers := by
  obtain ⟨d, rest, hsv, hc, rfl, -⟩ := step_receive_cases hs
  -- the buffer moves from the head of the channel to the `Serve` loop
  have hC : ∑ j, chanBufs (Function.update s.readChanArray i rest j) + {d.Buf} =
      ∑ j, chanBufs (s.readChanArray j) + 0 :=
    Custody.sum_update_add_eq s.readChanArray chanBufs i (by rw [hc]; simp [add_comm])
  have hS : ∑ j, (Function.update s.serves i (.putting d.Buf) j).bufs + 0 =
      ∑ j, (s.serves j).bufs + {d.Buf} :=
    Custody.sum_update_add_eq s.serves ServePc.bufs i (by rw [hsv]; simp [ServePc.bufs])
  simp only [buffers, inUse]
  rw [add_zero] at hC hS
  rw [hS, ← hC]
  abel

theorem buffers_put {i : Fin N.n} (hs : step flags framer s (.put i) = some (s', evs)) :
    s'.buffers ≤ s.buffers := by
  obtain ⟨b, hsv, rfl, -⟩ := step_put_cases hs
  -- the buffer goes back to the pool, or is dropped when the pool is full
  have hS : ∑ j, (Function.update s.serves i .idle j).bufs + {b} = ∑ j, (s.serves j).bufs + 0 :=
    Custody.sum_update_add_eq s.serves ServePc.bufs i (by rw [hsv]; simp [ServePc.bufs])
  rw [add_zero] at hS
  have hle : ((s.bufpool.Put b).c : Multiset Nat) ≤ (s.bufpool.c : Multiset Nat) + {b} := by
    rcases @BytesBufferPool.Put_c s.bufpool b with hc | hc
    · rw [hc, ← Multiset.coe_add]
      rfl
    · rw [hc]
      exact Multiset.le_add_right _ _
  simp only [buffers, inUse]
  rw [← hS]
  calc _ ≤ (s.bufpool.c : Multiset Nat) + {b} + (∑ j, (s.readers j).bufs +
        ∑ j, chanBufs (s.readChanArray j) + ∑ j, (Function.update s.serves i .idle j).bufs) :=
      Multiset.add_le_add_right hle
    _ = _ := by abel

/-! #### The invariant -/

/-- A reader's write over the buffer it got changes no slice in use. -/
theorem Inv.read_mem (hi : s.Inv) {b : Nat} {bp' : BytesBufferPool} {h₁ : Heap}
    (hg : s.bufpool.Get s.heap = (b, bp', h₁)) (bytes : List UInt8) {b' : Nat}
    (hb' : b' ∈ s.inUse) : (h₁.write b bytes).mem b' = s.heap.mem b' := by
  rw [Heap.write_mem_of_ne (hi.Get_ne hg hb'), hi.Get_mem hg hb']

theorem Inv.read (hi : s.Inv) {r : Fin N.n} {peer : UDPAddr} {dgram : List UInt8}
    (hs : step flags framer s (.read r peer dgram) = some (s', evs)) : s'.Inv := by
  have hbuf := buffers_read hs
  obtain ⟨-, rfl, -⟩ := step_read_cases hs
  generalize ht : readFunc N s.bufpool s.heap peer dgram = t at hbuf ⊢
  obtain ⟨bp', h', o⟩ := t
  obtain ⟨b, h₁, hg, rfl, ho⟩ := readFunc_spec ht
  obtain ⟨hb, hsized⟩ := hi.Get_sized hg
  have hbp : bp' = (s.bufpool.Get s.heap).2.1 := by rw [hg]
  refine ⟨?_, ?_, ?_, ?_, ?_, ?_⟩
  · rcases hbuf with ⟨hle, hn⟩ | ⟨hle, hn⟩
    · exact hi.fresh.of_le hle (Nat.le_of_eq hn.symm)
    · exact hn ▸ hi.fresh.alloc hle
  · intro b' hb'
    by_cases he : b' = b
    · subst he
      simp only [Heap.write_mem_self, ReadFromUDP_length]
      exact hsized b' hb
    · rw [Heap.write_mem_of_ne he]
      exact hsized b' hb'
  · rw [hbp, BytesBufferPool.Get_poolsize, hi.poolsize]
  · rw [hbp, BytesBufferPool.Get_bufsize, hi.bufsize]
  · intro r' d i hr'
    by_cases he : r' = r
    · -- the reader that read: its `UdpData` is the buffer it got, routed as it parsed it
      subst he
      simp only [Function.update_self] at hr'
      obtain ⟨rfl, hpos, connId, hp, hroute⟩ := ho d i (ReadFuncPc.after_eq_sending hr')
      refine ⟨hpos, ?_, connId, hp, hroute⟩
      simp only [Heap.write_mem_self, ReadFromUDP_length]
      exact ReadFromUDP_le _ _
    · simp only [ne_eq, he, not_false_eq_true, Function.update_of_ne] at hr'
      exact (hi.reading r' d i hr').of_mem_eq (hi.read_mem hg _ (mem_inUse_of_reading hr'))
  · intro i d hd
    exact (hi.queued i d hd).of_mem_eq (hi.read_mem hg _ (mem_inUse_of_queued hd))

theorem Inv.send (hi : s.Inv) {r : Fin N.n} (hs : step flags framer s (.send r) = some (s', evs)) :
    s'.Inv := by
  have hbuf := buffers_send hs
  obtain ⟨d, i, hr, -, rfl, -⟩ := step_send_cases hs
  refine ⟨hbuf ▸ hi.fresh, hi.sized, hi.poolsize, hi.bufsize, ?_, ?_⟩
  · intro r' d' i' hr'
    by_cases he : r' = r
    · subst he
      simp only [Function.update_self] at hr'
      cases hr'
    · simp only [ne_eq, he, not_false_eq_true, Function.update_of_ne] at hr'
      exact hi.reading r' d' i' hr'
  · intro j d' hd'
    by_cases he : j = i
    · -- the channel the reader sent on: what it held, and the reader's `UdpData`
      subst he
      simp only [Function.update_self] at hd'
      rcases List.mem_append.mp hd' with hd' | hd'
      · exact hi.queued j d' hd'
      · rw [List.mem_singleton.mp hd']
        exact hi.reading r d j hr
    · simp only [ne_eq, he, not_false_eq_true, Function.update_of_ne] at hd'
      exact hi.queued j d' hd'

theorem Inv.receive (hi : s.Inv) {i : Fin N.n} {rejector : RejectorOutcome} {enqueueOk : Bool}
    (hs : step flags framer s (.receive i rejector enqueueOk) = some (s', evs)) : s'.Inv := by
  have hbuf := buffers_receive hs
  obtain ⟨d, rest, -, hc, rfl, -⟩ := step_receive_cases hs
  refine ⟨hbuf ▸ hi.fresh, hi.sized, hi.poolsize, hi.bufsize, hi.reading, ?_⟩
  intro j d' hd'
  by_cases he : j = i
  · subst he
    simp only [Function.update_self] at hd'
    exact hi.queued j d' (by rw [hc]; exact List.mem_cons_of_mem d hd')
  · simp only [ne_eq, he, not_false_eq_true, Function.update_of_ne] at hd'
    exact hi.queued j d' hd'

theorem Inv.put (hi : s.Inv) {i : Fin N.n} (hs : step flags framer s (.put i) = some (s', evs)) :
    s'.Inv := by
  have hbuf := buffers_put hs
  obtain ⟨b, -, rfl, -⟩ := step_put_cases hs
  refine ⟨hi.fresh.of_le hbuf (Nat.le_refl _), hi.sized, ?_, ?_, hi.reading, hi.queued⟩
  · rw [BytesBufferPool.Put_poolsize, hi.poolsize]
  · rw [BytesBufferPool.Put_bufsize, hi.bufsize]

theorem Inv.task (hi : s.Inv) {i : Fin N.n} {l : DispatcherLabel}
    (hs : step flags framer s (.task i l) = some (s', evs)) : s'.Inv := by
  obtain ⟨-, -, d, devs, -, rfl, -⟩ := step_task_cases hs
  exact ⟨hi.fresh, hi.sized, hi.poolsize, hi.bufsize, hi.reading, hi.queued⟩

theorem Inv.step (hi : s.Inv) {l : ServerLabel N} (hs : step flags framer s l = some (s', evs)) :
    s'.Inv := by
  cases l with
  | read r peer dgram => exact hi.read hs
  | send r => exact hi.send hs
  | receive i rejector enqueueOk => exact hi.receive hs
  | put i => exact hi.put hs
  | task i l => exact hi.task hs

theorem reach_inv {tr : List (ServerEvent N)} (h : (system N flags framer).Reach s tr) : s.Inv :=
  h.invariant inv_new fun _ _ _ _ hi hs => hi.step hs

end QuicSpdyServer

/-! ### What the readers send and the dispatchers process -/

namespace ServerEvent

/-- The datagram reader `r` read. -/
def readBy (r : Fin N.n) : ServerEvent N → Option (UDPAddr × List UInt8)
  | .readFromUDP r' peer dgram => if r' = r then some (peer, dgram) else none
  | _ => none

/-- What a send to dispatcher `i` hands over. -/
def sentTo (i : Fin N.n) : ServerEvent N → Option (UDPAddr × List UInt8)
  | .send _ i' peer bytes => if i' = i then some (peer, bytes) else none
  | _ => none

/-- What `ProcessPacket` of dispatcher `i` gets. -/
def processedBy (i : Fin N.n) : ServerEvent N → Option (UDPAddr × List UInt8)
  | .processPacket i' peer bytes => if i' = i then some (peer, bytes) else none
  | _ => none

/-- An event of dispatcher `i` itself. -/
def ofDispatcher (i : Fin N.n) : ServerEvent N → Option DispatcherEvent
  | .dispatcher i' e => if i' = i then some e else none
  | _ => none

end ServerEvent

namespace QuicSpdyServer

variable {flags : Flags} {framer : Framer} {s s' : QuicSpdyServer N} {evs : List (ServerEvent N)}

/-- The datagram reader `r` read last. -/
def lastRead (r : Fin N.n) (tr : List (ServerEvent N)) : Option (UDPAddr × List UInt8) :=
  Lts.lastSome (ServerEvent.readBy r) tr

/-- What the readers sent to dispatcher `i`, in the order of the sends. -/
def sentTo (i : Fin N.n) (tr : List (ServerEvent N)) : List (UDPAddr × List UInt8) :=
  tr.filterMap (ServerEvent.sentTo i)

/-- What dispatcher `i`'s `ProcessPacket` got, in order. -/
def processedBy (i : Fin N.n) (tr : List (ServerEvent N)) : List (UDPAddr × List UInt8) :=
  tr.filterMap (ServerEvent.processedBy i)

/-- Dispatcher `i`'s own events. -/
def dispatcherTrace (i : Fin N.n) (tr : List (ServerEvent N)) : List DispatcherEvent :=
  tr.filterMap (ServerEvent.ofDispatcher i)

variable (N) in
/-- A send hands over the datagram its reader read last, cut to the buffer's 3000 bytes, and
sends it to the dispatcher that the connection ID it carries routes to. -/
def SendOk (pre : List (ServerEvent N)) : ServerEvent N → Prop
  | .send r i peer bytes => ∃ dgram, lastRead r pre = some (peer, dgram) ∧
      bytes = dgram.take 3000 ∧
      ∃ connId, parseConnId bytes bytes.length = some connId ∧ route N connId = i
  | _ => True

section Events

variable {i j r : Fin N.n} {devs : List DispatcherEvent}

/-- A dispatcher's own events carry no datagram. -/
@[simp] theorem sentTo_map_dispatcher :
    (devs.map (ServerEvent.dispatcher i)).filterMap (ServerEvent.sentTo j) = [] :=
  List.filterMap_eq_nil_iff.mpr fun e he => by
    obtain ⟨e', -, rfl⟩ := List.mem_map.mp he
    rfl

@[simp] theorem processedBy_map_dispatcher :
    (devs.map (ServerEvent.dispatcher i)).filterMap (ServerEvent.processedBy j) = [] :=
  List.filterMap_eq_nil_iff.mpr fun e he => by
    obtain ⟨e', -, rfl⟩ := List.mem_map.mp he
    rfl

theorem readBy_map_dispatcher :
    ∀ e ∈ devs.map (ServerEvent.dispatcher i), ServerEvent.readBy r e = none := by
  intro e he
  obtain ⟨e', -, rfl⟩ := List.mem_map.mp he
  rfl

/-- The server's events of dispatcher `i`'s step: its own events, for `i` alone. -/
theorem dispatcherTrace_map_dispatcher :
    dispatcherTrace j (devs.map (ServerEvent.dispatcher i)) = if i = j then devs else [] := by
  rw [dispatcherTrace]
  induction devs with
  | nil => simp
  | cons e devs ih =>
    rw [List.map_cons, List.filterMap_cons, ih]
    by_cases h : i = j <;> simp [ServerEvent.ofDispatcher, h]

end Events

/-- What every run keeps of the datagrams: a dispatcher's processed packets, then its channel,
are what the readers sent it; a reader about to send holds the datagram it read, cut to 3000
bytes; and every send so far was right. -/
structure Delivery (s : QuicSpdyServer N) (tr : List (ServerEvent N)) : Prop where
  fifo : ∀ i, processedBy i tr ++ (s.readChanArray i).map (fun d => (d.Addr, s.heap.slice d)) =
    sentTo i tr
  reading : ∀ r d i, s.readers r = .sending d i →
    ∃ dgram, lastRead r tr = some (d.Addr, dgram) ∧ s.heap.slice d = dgram.take 3000
  sends : Lts.Allows (SendOk N) tr

theorem delivery_new : (new N).Delivery [] where
  fifo _ := rfl
  reading _ _ _ h := nomatch h
  sends := Lts.allows_nil _

/-- Events other than sends may follow any history. -/
theorem sendOk_of_sentTo {e : ServerEvent N} (h : ∀ i, ServerEvent.sentTo i e = none)
    (pre : List (ServerEvent N)) : SendOk N pre e := by
  cases e with
  | send r i peer bytes => simp [ServerEvent.sentTo] at h
  | _ => trivial

theorem Delivery.read (hi : s.Inv) {tr : List (ServerEvent N)} (hd : s.Delivery tr)
    {r : Fin N.n} {peer : UDPAddr} {dgram : List UInt8}
    (hs : step flags framer s (.read r peer dgram) = some (s', evs)) : s'.Delivery (tr ++ evs) := by
  obtain ⟨-, rfl, rfl⟩ := step_read_cases hs
  generalize ht : readFunc N s.bufpool s.heap peer dgram = t
  obtain ⟨bp', h', o⟩ := t
  obtain ⟨b, h₁, hg, rfl, ho⟩ := readFunc_spec ht
  obtain ⟨hb, hsized⟩ := hi.Get_sized hg
  -- the slices in use are as they were
  have hslice : ∀ d : ReadUdpData, d.Buf ∈ s.inUse →
      (h₁.write b (ReadFromUDP (h₁.mem b) dgram).1).slice d = s.heap.slice d := fun d hd' => by
    simp only [Heap.slice, hi.read_mem hg _ hd']
  refine ⟨fun i => ?_, fun r' d i hr' => ?_, ?_⟩
  · have := hd.fifo i
    simp only [processedBy, sentTo, List.filterMap_append, List.filterMap_cons,
      ServerEvent.processedBy, ServerEvent.sentTo, List.filterMap_nil, List.append_nil] at this ⊢
    rw [← this, List.map_inj_left.mpr fun d hd' => by rw [hslice d (mem_inUse_of_queued hd')]]
  · by_cases he : r' = r
    · -- the reader that read: it holds the datagram, cut to the buffer
      subst he
      simp only [Function.update_self] at hr'
      obtain ⟨rfl, -, -⟩ := ho d i (ReadFuncPc.after_eq_sending hr')
      refine ⟨dgram, ?_, ?_⟩
      · simp [lastRead, Lts.lastSome_append_singleton, ServerEvent.readBy]
      · simp only [Heap.slice, Heap.write_mem_self, ReadFromUDP_take, hsized b hb]
    · simp only [ne_eq, he, not_false_eq_true, Function.update_of_ne] at hr'
      obtain ⟨dg, hl, hsl⟩ := hd.reading r' d i hr'
      refine ⟨dg, ?_, by rw [hslice d (mem_inUse_of_reading hr'), hsl]⟩
      rw [lastRead, Lts.lastSome_append_singleton]
      simp only [ServerEvent.readBy, Ne.symm he, if_false, Option.none_or]
      exact hl
  · exact hd.sends.append fun e he pre => sendOk_of_sentTo
      (fun i => by rw [List.mem_singleton.mp he]; rfl) pre

theorem Delivery.send (hi : s.Inv) {tr : List (ServerEvent N)} (hd : s.Delivery tr) {r : Fin N.n}
    (hs : step flags framer s (.send r) = some (s', evs)) : s'.Delivery (tr ++ evs) := by
  obtain ⟨d, i, hr, -, rfl, rfl⟩ := step_send_cases hs
  obtain ⟨dgram, hl, hsl⟩ := hd.reading r d i hr
  obtain ⟨hpos, hle, connId, hp, hroute⟩ := hi.reading r d i hr
  refine ⟨fun j => ?_, fun r' d' i' hr' => ?_, ?_⟩
  · have := hd.fifo j
    by_cases he : j = i
    · -- the channel sent on grows by the sent `UdpData`
      subst he
      simp only [processedBy, sentTo, List.filterMap_append, List.filterMap_cons,
        ServerEvent.processedBy, ServerEvent.sentTo, List.filterMap_nil, List.append_nil,
        if_true, Function.update_self, List.map_append, List.map_cons, List.map_nil] at this ⊢
      rw [← this, List.append_assoc]
    · simp only [processedBy, sentTo, List.filterMap_append, List.filterMap_cons,
        ServerEvent.processedBy, ServerEvent.sentTo, List.filterMap_nil, List.append_nil,
        Ne.symm he, if_false, ne_eq, he, not_false_eq_true, Function.update_of_ne] at this ⊢
      exact this
  · by_cases he : r' = r
    · subst he
      simp only [Function.update_self] at hr'
      cases hr'
    · simp only [ne_eq, he, not_false_eq_true, Function.update_of_ne] at hr'
      obtain ⟨dg, hl', hsl'⟩ := hd.reading r' d' i' hr'
      refine ⟨dg, ?_, hsl'⟩
      rw [lastRead, Lts.lastSome_append_singleton]
      exact hl'
  · -- the send is right: the reader's datagram, and its connection ID routes to `i`
    have hlen : (s.heap.slice d).length = d.N := by
      simp only [Heap.slice, List.length_take]
      exact Nat.min_eq_left hle
    refine Lts.allows_append_singleton.mpr ⟨hd.sends, dgram, hl, hsl, connId, ?_, hroute⟩
    rw [hlen, Heap.slice, parseConnId_take _ hpos]
    exact hp

theorem Delivery.receive {tr : List (ServerEvent N)} (hd : s.Delivery tr) {i : Fin N.n}
    {rejector : RejectorOutcome} {enqueueOk : Bool}
    (hs : step flags framer s (.receive i rejector enqueueOk) = some (s', evs)) :
    s'.Delivery (tr ++ evs) := by
  obtain ⟨d, rest, -, hc, rfl, rfl⟩ := step_receive_cases hs
  refine ⟨fun j => ?_, fun r d' i' hr => ?_, ?_⟩
  · have := hd.fifo j
    by_cases he : j = i
    · -- the head of the channel is processed
      subst he
      simp only [processedBy, sentTo, List.filterMap_append, List.filterMap_cons,
        ServerEvent.processedBy, ServerEvent.sentTo, if_true, processedBy_map_dispatcher,
        sentTo_map_dispatcher, List.append_nil, Function.update_self, hc, List.map_cons] at this ⊢
      rw [← this, List.append_assoc, List.singleton_append]
    · simp only [processedBy, sentTo, List.filterMap_append, List.filterMap_cons,
        ServerEvent.processedBy, ServerEvent.sentTo, Ne.symm he, if_false,
        processedBy_map_dispatcher, sentTo_map_dispatcher, List.append_nil, ne_eq, he,
        not_false_eq_true, Function.update_of_ne] at this ⊢
      exact this
  · obtain ⟨dg, hl, hsl⟩ := hd.reading r d' i' hr
    refine ⟨dg, ?_, hsl⟩
    rw [lastRead, Lts.lastSome_append_of_none]
    · exact hl
    · intro e he
      rcases List.mem_cons.mp he with rfl | he
      · rfl
      · exact readBy_map_dispatcher e he
  · refine hd.sends.append fun e he pre => sendOk_of_sentTo (fun j => ?_) pre
    rcases List.mem_cons.mp he with rfl | he
    · rfl
    · obtain ⟨e', -, rfl⟩ := List.mem_map.mp he
      rfl

theorem Delivery.put {tr : List (ServerEvent N)} (hd : s.Delivery tr) {i : Fin N.n}
    (hs : step flags framer s (.put i) = some (s', evs)) : s'.Delivery (tr ++ evs) := by
  obtain ⟨b, -, rfl, rfl⟩ := step_put_cases hs
  rw [List.append_nil]
  exact ⟨hd.fifo, hd.reading, hd.sends⟩

theorem Delivery.task {tr : List (ServerEvent N)} (hd : s.Delivery tr) {i : Fin N.n}
    {l : DispatcherLabel} (hs : step flags framer s (.task i l) = some (s', evs)) :
    s'.Delivery (tr ++ evs) := by
  obtain ⟨-, -, d, devs, -, rfl, rfl⟩ := step_task_cases hs
  -- the dispatcher's own events say nothing of datagrams
  refine ⟨fun j => ?_, fun r d' i' hr => ?_, ?_⟩
  · have := hd.fifo j
    rw [processedBy, sentTo, List.filterMap_append, List.filterMap_append,
      processedBy_map_dispatcher, sentTo_map_dispatcher, List.append_nil, List.append_nil]
    exact this
  · obtain ⟨dg, hl, hsl⟩ := hd.reading r d' i' hr
    refine ⟨dg, ?_, hsl⟩
    rw [lastRead, Lts.lastSome_append_of_none readBy_map_dispatcher]
    exact hl
  · refine hd.sends.append fun e he pre => sendOk_of_sentTo (fun j => ?_) pre
    obtain ⟨e', -, rfl⟩ := List.mem_map.mp he
    rfl

theorem Delivery.step (hi : s.Inv) {tr : List (ServerEvent N)} (hd : s.Delivery tr)
    {l : ServerLabel N} (hs : step flags framer s l = some (s', evs)) : s'.Delivery (tr ++ evs) := by
  cases l with
  | read r peer dgram => exact hd.read hi hs
  | send r => exact hd.send hi hs
  | receive i rejector enqueueOk => exact hd.receive hs
  | put i => exact hd.put hs
  | task i l => exact hd.task hs

theorem reach_delivery {tr : List (ServerEvent N)} (h : (system N flags framer).Reach s tr) :
    s.Delivery tr :=
  (h.induction_on (P := fun s tr => s.Inv ∧ s.Delivery tr) ⟨inv_new, delivery_new⟩
    fun _ _ _ _ _ _ hp hs => ⟨hp.1.step hs, hp.2.step hp.1 hs⟩).2

/-! ### What the dispatchers know and do -/

/-- Every connection ID a dispatcher knows routes to it. -/
def Sharded (s : QuicSpdyServer N) : Prop :=
  ∀ i, ∀ c ∈ (s.dispatchers i).held, c % N.n = i.val

theorem sharded_new : (new N).Sharded := by
  intro i c hc
  simp [new] at hc

theorem Sharded.step (hi : s.Inv) (hsh : s.Sharded) {l : ServerLabel N}
    (hs : step flags framer s l = some (s', evs)) : s'.Sharded := by
  cases l with
  | read r peer dgram =>
    obtain ⟨-, rfl, -⟩ := step_read_cases hs
    exact hsh
  | send r =>
    obtain ⟨d, i, -, -, rfl, -⟩ := step_send_cases hs
    exact hsh
  | put i =>
    obtain ⟨b, -, rfl, -⟩ := step_put_cases hs
    exact hsh
  | receive i rejector enqueueOk =>
    obtain ⟨d, rest, -, hc, rfl, -⟩ := step_receive_cases hs
    intro j c hcj
    by_cases he : j = i
    · -- the packet's own connection ID went to `i`, as its reader routed it
      subst he
      simp only [Function.update_self] at hcj
      rcases GoQuicDispatcher.held_ProcessPacket _ rejector enqueueOk hcj with hc' | hc'
      · exact hsh j c hc'
      · obtain ⟨-, -, connId, hp, hroute⟩ := hi.queued j d (by rw [hc]; exact List.mem_cons_self)
        rw [framer.route_eq N hp d.Addr hc', hroute]
    · simp only [ne_eq, he, not_false_eq_true, Function.update_of_ne] at hcj
      exact hsh j c hcj
  | task i l =>
    obtain ⟨-, hl, d, devs, hd, rfl, -⟩ := step_task_cases hs
    intro j c hcj
    by_cases he : j = i
    · -- the dispatcher's other work learns no connection ID
      subst he
      simp only [Function.update_self] at hcj
      rcases GoQuicDispatcher.held_step hd hcj with hc' | hc'
      · exact hsh j c hc'
      · rw [DispatcherLabel.ids_eq_empty hl] at hc'
        exact absurd hc' (Set.notMem_empty c)
    · simp only [ne_eq, he, not_false_eq_true, Function.update_of_ne] at hcj
      exact hsh j c hcj

theorem reach_sharded {tr : List (ServerEvent N)} (h : (system N flags framer).Reach s tr) :
    s.Sharded :=
  (h.invariant (I := fun s => s.Inv ∧ s.Sharded) ⟨inv_new, sharded_new⟩
    fun _ _ _ _ hp hs => ⟨hp.1.step hs, hp.2.step hp.1 hs⟩).2

variable (flags) in
/-- Each dispatcher is where the dispatcher alone gets with the server's events for it. -/
def Projected (s : QuicSpdyServer N) (tr : List (ServerEvent N)) : Prop :=
  ∀ i, (GoQuicDispatcher.system flags).Reach (s.dispatchers i) (dispatcherTrace i tr)

theorem projected_new : (new N).Projected flags [] := fun _ => Lts.Reach.init

theorem dispatcherTrace_append (i : Fin N.n) (tr evs : List (ServerEvent N)) :
    dispatcherTrace i (tr ++ evs) = dispatcherTrace i tr ++ dispatcherTrace i evs :=
  List.filterMap_append

/-- A step that leaves the dispatchers and emits none of their events keeps the projection. -/
theorem Projected.of_dispatchers {tr : List (ServerEvent N)} (hp : s.Projected flags tr)
    (hd : s'.dispatchers = s.dispatchers) (he : ∀ i, dispatcherTrace i evs = []) :
    s'.Projected flags (tr ++ evs) := by
  intro i
  rw [dispatcherTrace_append, he i, List.append_nil, hd]
  exact hp i

/-- Dispatcher `i` steps on `l` as it would alone, and only it. -/
theorem Projected.dispatch {tr : List (ServerEvent N)} (hp : s.Projected flags tr) {i : Fin N.n}
    {l : DispatcherLabel} {d : GoQuicDispatcher} {devs : List DispatcherEvent}
    (hd : GoQuicDispatcher.step flags (s.dispatchers i) l = some (d, devs))
    (pre : List (ServerEvent N)) (hpre : ∀ j, dispatcherTrace j pre = []) :
    ({ s with dispatchers := Function.update s.dispatchers i d } : QuicSpdyServer N).Projected flags
      (tr ++ (pre ++ devs.map (.dispatcher i))) := by
  intro j
  rw [dispatcherTrace_append, dispatcherTrace_append, hpre j, List.nil_append,
    dispatcherTrace_map_dispatcher]
  by_cases he : j = i
  · subst he
    simp only [Function.update_self, if_true]
    exact (hp j).step hd
  · simp only [ne_eq, he, not_false_eq_true, Function.update_of_ne, Ne.symm he, if_false,
      List.append_nil]
    exact hp j

theorem Projected.step {tr : List (ServerEvent N)} (hp : s.Projected flags tr) {l : ServerLabel N}
    (hs : step flags framer s l = some (s', evs)) : s'.Projected flags (tr ++ evs) := by
  cases l with
  | read r peer dgram =>
    obtain ⟨-, rfl, rfl⟩ := step_read_cases hs
    exact hp.of_dispatchers rfl fun i => rfl
  | send r =>
    obtain ⟨d, i, -, -, rfl, rfl⟩ := step_send_cases hs
    exact hp.of_dispatchers rfl fun i => rfl
  | put i =>
    obtain ⟨b, -, rfl, rfl⟩ := step_put_cases hs
    exact hp.of_dispatchers rfl fun i => rfl
  | receive i rejector enqueueOk =>
    obtain ⟨d, rest, -, -, rfl, rfl⟩ := step_receive_cases hs
    -- `ProcessPacket` is the dispatcher's step on the packet
    have hd : GoQuicDispatcher.step flags (s.dispatchers i)
        (.processPacket (framer.packet d.Addr (s.heap.slice d)) rejector enqueueOk) =
        some ((s.dispatchers i).ProcessPacket flags (framer.packet d.Addr (s.heap.slice d))
          rejector enqueueOk) := rfl
    exact hp.dispatch hd [.processPacket i d.Addr (s.heap.slice d)] fun j => rfl
  | task i l =>
    obtain ⟨-, -, d, devs, hd, rfl, rfl⟩ := step_task_cases hs
    have h := hp.dispatch hd [] fun j => rfl
    rwa [List.nil_append] at h

theorem reach_projected {tr : List (ServerEvent N)} (h : (system N flags framer).Reach s tr) :
    s.Projected flags tr :=
  h.induction_on (P := fun s tr => s.Projected flags tr) projected_new
    fun _ _ _ _ _ _ hp hs => hp.step hs

/-! ### One datagram through the server

Two dispatchers; a client's first datagram, a CHLO with connection ID 1, is read by reader 0,
sent to dispatcher 1, processed there, and its buffer goes back to the pool. -/

/-- Two dispatchers. -/
def twoServers : NumOfServers := ⟨2, by decide, by decide⟩

/-- The packet of a datagram without a full connection ID. -/
def noConnectionId : Packet := ⟨0, false, false, false, false, false, false, false, 0, false⟩

/-- A framer that reads the public header as `readFunc` does and takes a datagram with a full
connection ID for a first CHLO: a supported version, packet number 1. -/
def chloFramer : Framer where
  parse bytes :=
    match bytes with
    | b0 :: rest =>
      match LittleEndian.Uint64 (rest.take 8) with
      | some id =>
        if b0 &&& 0x8 = 0x8 then ⟨id.toNat, false, true, false, true, true, true, true, 1, true⟩
        else noConnectionId
      | none => noConnectionId
    | [] => noConnectionId
  full bytes h := by
    match bytes with
    | [] => cases h
    | b0 :: rest =>
      cases hid : LittleEndian.Uint64 (rest.take 8) with
      | none => simp [hid, noConnectionId] at h
      | some id =>
        by_cases hf : b0 &&& 0x8 = 0x8
        · exact ⟨b0, rest, id, rfl, hf, hid, by simp [hid, hf]⟩
        · simp [hid, hf, noConnectionId] at h

/-- The datagram: public flags `0x8`, connection ID 1, one byte more. -/
def chloDatagram : List UInt8 := [0x8, 1, 0, 0, 0, 0, 0, 0, 0, 0x2A]

/-- The client. -/
def chloPeer : UDPAddr := ⟨[127, 0, 0, 1], 443⟩

/-- Read on reader 0, sent, processed by dispatcher 1, and the buffer put back. -/
def oneDatagram : List (ServerLabel twoServers) :=
  [.read ⟨0, by decide⟩ chloPeer chloDatagram, .send ⟨0, by decide⟩,
    .receive ⟨1, by decide⟩ ⟨true, .accepted⟩ true, .put ⟨1, by decide⟩]

/-- Its events. -/
def oneDatagramTrace : List (ServerEvent twoServers) :=
  [.readFromUDP ⟨0, by decide⟩ chloPeer chloDatagram,
    .send ⟨0, by decide⟩ ⟨1, by decide⟩ chloPeer chloDatagram,
    .processPacket ⟨1, by decide⟩ chloPeer chloDatagram,
    .dispatcher ⟨1, by decide⟩ (.createQuicSession 1 false)]

/-- The run: its events, dispatcher 1's session, which the datagram created, and the pool, where
the buffer is back. -/
theorem run_oneDatagram :
    ((system twoServers ⟨true, false, false, false⟩ chloFramer).run
        (system twoServers ⟨true, false, false, false⟩ chloFramer).init oneDatagram).map
      (fun r => (r.2, (r.1.dispatchers ⟨1, by decide⟩).sessionMap, r.1.bufpool.c)) =
    some (oneDatagramTrace, [1], [0]) := by
  decide +kernel

/-! ### Every run -/

section Runs

variable {tr : List (ServerEvent N)}

/-- On every run no buffer is in two places: the pool, the readers, the channels and the `Serve`
loops that have still to put one back hold pairwise different buffers. Every buffer the server
made keeps its 3000 bytes. -/
theorem buffers_exclusive (h : (system N flags framer).Reach s tr) :
    s.buffers.Nodup ∧ ∀ b < s.heap.next, (s.heap.mem b).length = 3000 :=
  ⟨(reach_inv h).fresh.nodup, (reach_inv h).sized⟩

theorem buffers_exclusive_one_datagram : ∃ s,
    (system twoServers ⟨true, false, false, false⟩ chloFramer).run
      (system twoServers ⟨true, false, false, false⟩ chloFramer).init oneDatagram =
      some (s, oneDatagramTrace) ∧
    s.bufpool.c = [0] ∧ s.buffers.Nodup ∧ ∀ b < s.heap.next, (s.heap.mem b).length = 3000 := by
  obtain ⟨⟨s, tr⟩, hr, he⟩ := Option.map_eq_some_iff.mp run_oneDatagram
  obtain ⟨rfl, hrest⟩ := Prod.mk.inj he
  exact ⟨s, hr, (Prod.mk.inj hrest).2, buffers_exclusive (Lts.Reach.of_run hr)⟩

/-- On every run each send hands over the datagram its reader read last, cut to the buffer's
3000 bytes, to the dispatcher that the connection ID it carries routes to. -/
theorem sends_as_read (h : (system N flags framer).Reach s tr) : Lts.Allows (SendOk N) tr :=
  (reach_delivery h).sends

theorem sends_as_read_one_datagram : ∃ s,
    (system twoServers ⟨true, false, false, false⟩ chloFramer).run
      (system twoServers ⟨true, false, false, false⟩ chloFramer).init oneDatagram =
      some (s, oneDatagramTrace) ∧
    Lts.Allows (SendOk twoServers) oneDatagramTrace := by
  obtain ⟨⟨s, tr⟩, hr, he⟩ := Option.map_eq_some_iff.mp run_oneDatagram
  obtain ⟨rfl, -⟩ := Prod.mk.inj he
  exact ⟨s, hr, sends_as_read (Lts.Reach.of_run hr)⟩

/-- On every run what dispatcher `i`'s `ProcessPacket` got, then what its channel holds, is what
the readers sent it, in the order they sent it and byte for byte: no datagram is lost, doubled,
reordered or overwritten on the way. -/
theorem delivery_in_order (h : (system N flags framer).Reach s tr) (i : Fin N.n) :
    processedBy i tr ++ (s.readChanArray i).map (fun d => (d.Addr, s.heap.slice d)) =
      sentTo i tr :=
  (reach_delivery h).fifo i

theorem delivery_in_order_one_datagram : ∃ s,
    (system twoServers ⟨true, false, false, false⟩ chloFramer).run
      (system twoServers ⟨true, false, false, false⟩ chloFramer).init oneDatagram =
      some (s, oneDatagramTrace) ∧
    processedBy ⟨1, by decide⟩ oneDatagramTrace ++
        (s.readChanArray ⟨1, by decide⟩).map (fun d => (d.Addr, s.heap.slice d)) =
      sentTo ⟨1, by decide⟩ oneDatagramTrace := by
  obtain ⟨⟨s, tr⟩, hr, he⟩ := Option.map_eq_some_iff.mp run_oneDatagram
  obtain ⟨rfl, -⟩ := Prod.mk.inj he
  exact ⟨s, hr, delivery_in_order (Lts.Reach.of_run hr) _⟩

/-- On every run each connection ID that a dispatcher knows, by a session, a time-wait entry or
buffered packets, routes to that dispatcher. -/
theorem held_routes (h : (system N flags framer).Reach s tr) (i : Fin N.n) :
    ∀ c ∈ (s.dispatchers i).held, c % N.n = i.val :=
  reach_sharded h i

theorem held_routes_one_datagram : ∃ s,
    (system twoServers ⟨true, false, false, false⟩ chloFramer).run
      (system twoServers ⟨true, false, false, false⟩ chloFramer).init oneDatagram =
      some (s, oneDatagramTrace) ∧
    (s.dispatchers ⟨1, by decide⟩).sessionMap = [1] ∧
      ∀ c ∈ (s.dispatchers ⟨1, by decide⟩).held, c % twoServers.n = 1 := by
  obtain ⟨⟨s, tr⟩, hr, he⟩ := Option.map_eq_some_iff.mp run_oneDatagram
  obtain ⟨rfl, hrest⟩ := Prod.mk.inj he
  exact ⟨s, hr, (Prod.mk.inj hrest).1, held_routes (Lts.Reach.of_run hr) _⟩

/-- On every run each dispatcher is in a state the dispatcher alone reaches, with the server's
events for it as its trace. -/
theorem dispatcher_reach (h : (system N flags framer).Reach s tr) (i : Fin N.n) :
    (GoQuicDispatcher.system flags).Reach (s.dispatchers i) (dispatcherTrace i tr) :=
  reach_projected h i

theorem dispatcher_reach_one_datagram : ∃ s,
    (system twoServers ⟨true, false, false, false⟩ chloFramer).run
      (system twoServers ⟨true, false, false, false⟩ chloFramer).init oneDatagram =
      some (s, oneDatagramTrace) ∧
    (GoQuicDispatcher.system ⟨true, false, false, false⟩).Reach (s.dispatchers ⟨1, by decide⟩)
      (dispatcherTrace ⟨1, by decide⟩ oneDatagramTrace) := by
  obtain ⟨⟨s, tr⟩, hr, he⟩ := Option.map_eq_some_iff.mp run_oneDatagram
  obtain ⟨rfl, -⟩ := Prod.mk.inj he
  exact ⟨s, hr, dispatcher_reach (Lts.Reach.of_run hr) _⟩

end Runs

end QuicSpdyServer

end GoQuic
