import GoQuic.Server.Writer

/-!
# Closing a client connection

`dialQuic` (`client_conn.go:143–223`) starts two goroutines beside the user's. The reader reads
the socket with a half-second deadline and hands each datagram to `processEvents` over the
unbuffered `readChan` until `readQuitCh` tells it to stop; it then closes the writer's channel.
The writer writes every datagram of that channel (capacity 1000) to the socket, and once the
channel is closed and drained it closes the socket and signals `writeQuitCh`. `Close`
(`client_conn.go:36–44`) sends the connection close packet, signals `readQuitCh` (capacity 1), sets
`closed` and waits on `writeQuitCh`.

Each goroutine is a program counter and each channel its buffer. A step is one channel operation
of one goroutine, in any interleaving, and a `select` takes any ready case. On every run nothing
is sent on a closed channel (`no_send_panic`), and every datagram the client queued, the close
packet with it, is written to the socket in order before the socket closes
(`written_before_sockClosed`). From every state inside `Close`, unless the reader has panicked on
a read error, the goroutines can run `Close` to its return (`close_returns`): some step always
lowers a measure of the work left (`exists_progress`). Once `Close` is called no step raises it, so
no interleaving changes the state for ever (`run_eq_or_workLeft_lt`).
-/

namespace GoQuic

/-- `cap(quic_conn.writer.Ch)` (`client_conn.go:179`). -/
def writerChCapacity : Nat := 1000

/-- Where the user's goroutine is, up to the return of `Close`. -/
inductive UserPc
  /-- Before `Close`: the QUIC client writes, and `processEvents` reads. -/
  | running
  /-- At `c.quicClient.SendConnectionClosePacket()`. -/
  | sendClose
  /-- At `c.readQuitCh <- true`. -/
  | quitRead
  /-- At `<-c.writeQuitCh`. -/
  | waitWrite
  /-- `Close` has returned. -/
  | done
  /-- Panicked on a send to a closed channel. -/
  | panicked
  deriving DecidableEq, Repr

/-- Where the reader goroutine (`client_conn.go:189–221`) is. -/
inductive ReaderPc
  /-- At `ReadFromUDP`. -/
  | reading
  /-- In the `select` that hands `d` to `readChan` or takes `<-readQuitCh`. -/
  | offering (d : UdpData)
  /-- Out of the loop, at `close(quic_conn.writer.Ch)`. -/
  | quitting
  | done
  /-- At `panic(err)`, on a read error other than a timeout. -/
  | panicked
  deriving DecidableEq, Repr

/-- Where the writer goroutine (`client_conn.go:181–187`) is. -/
inductive WriterPc
  /-- In `for dat := range quic_conn.writer.Ch`. -/
  | draining
  /-- The socket closed, at `quic_conn.writeQuitCh <- true`. -/
  | quitting
  | done
  deriving DecidableEq, Repr

/-- A `Conn` of `client_conn.go` with its goroutines: `readQuitCh` and `writeQuitCh` by the number
of values they hold, the writer's channel by its buffer and whether it is closed, and `closed`. -/
structure Conn where
  user : UserPc
  reader : ReaderPc
  writer : WriterPc
  readQuitCh : Nat
  writerCh : List UdpData
  writerChClosed : Bool
  writeQuitCh : Nat
  closed : Bool
  deriving DecidableEq, Repr

/-- One channel operation of one goroutine. -/
inductive ConnLabel
  /-- The QUIC client writes `d`: the `Ch <- UdpData{...}` of `writeToUDP` (`writer.go:44`). -/
  | send (d : UdpData)
  /-- `processEvents` receives from `readChan` (`client_conn.go:79`). -/
  | recv
  /-- The user calls `Close`. -/
  | close
  /-- `SendConnectionClosePacket` writes the close packet `d`. -/
  | sendClose (d : UdpData)
  /-- `c.readQuitCh <- true`, then `c.closed = true`. -/
  | sendReadQuit
  /-- `<-c.writeQuitCh`, and `Close` returns. -/
  | recvWriteQuit
  /-- `ReadFromUDP` returns `d`. -/
  | readData (d : UdpData)
  /-- The read deadline passes, and the `select` with `default` looks at `readQuitCh`. -/
  | readTimeout
  /-- `ReadFromUDP` fails otherwise. -/
  | readError
  /-- The reader's `select` takes `<-quic_conn.readQuitCh`. -/
  | takeQuit
  /-- `close(quic_conn.writer.Ch)`. -/
  | closeWriterCh
  /-- `quic_conn.sock.Write(dat.Buf)` on the next datagram of the channel. -/
  | write
  /-- The range ends on the closed, drained channel: `quic_conn.sock.Close()`. -/
  | closeSock
  /-- `quic_conn.writeQuitCh <- true`. -/
  | sendWriteQuit

/-- What the goroutines do that can be seen. -/
inductive ConnEvent
  | queued (d : UdpData)
  | delivered (d : UdpData)
  | written (d : UdpData)
  | sockClosed
  | closeReturned
  | sendPanic
  | readPanic
  deriving DecidableEq, Repr

namespace Conn

/-- The connection as `dialQuic` leaves it: both goroutines started, every channel empty. -/
def new : Conn := ⟨.running, .reading, .draining, 0, [], false, 0, false⟩

/-- The user sends `d` on the writer's channel and goes on at `next`: Go panics on a closed
channel and blocks on a full one. -/
def sendWriterCh (c : Conn) (d : UdpData) (next : UserPc) : Option (Conn × List ConnEvent) :=
  if c.writerChClosed then some ({ c with user := .panicked }, [.sendPanic])
  else if c.writerCh.length < writerChCapacity then
    some ({ c with writerCh := c.writerCh ++ [d], user := next }, [.queued d])
  else none

/-- One channel operation; `none` when the goroutine is elsewhere or the operation blocks. -/
def step (c : Conn) : ConnLabel → Option (Conn × List ConnEvent)
  | .send d => if c.user = .running then c.sendWriterCh d .running else none
  | .recv =>
    match c.user, c.reader with
    | .running, .offering d => some ({ c with reader := .reading }, [.delivered d])
    | _, _ => none
  | .close =>
    match c.user with
    | .running =>
      if c.closed then some ({ c with user := .done }, [.closeReturned])
      else some ({ c with user := .sendClose }, [])
    | .done => some (c, [.closeReturned])
    | _ => none
  | .sendClose d => if c.user = .sendClose then c.sendWriterCh d .quitRead else none
  | .sendReadQuit =>
    if c.user = .quitRead ∧ c.readQuitCh < 1 then
      some ({ c with readQuitCh := c.readQuitCh + 1, closed := true, user := .waitWrite }, [])
    else none
  | .recvWriteQuit =>
    if c.user = .waitWrite ∧ 0 < c.writeQuitCh then
      some ({ c with writeQuitCh := c.writeQuitCh - 1, user := .done }, [.closeReturned])
    else none
  | .readData d =>
    if c.reader = .reading then some ({ c with reader := .offering d }, []) else none
  | .readTimeout =>
    if c.reader = .reading then
      if 0 < c.readQuitCh then
        some ({ c with readQuitCh := c.readQuitCh - 1, reader := .quitting }, [])
      else some (c, [])
    else none
  | .readError =>
    if c.reader = .reading then some ({ c with reader := .panicked }, [.readPanic]) else none
  | .takeQuit =>
    match c.reader with
    | .offering _ =>
      if 0 < c.readQuitCh then
        some ({ c with readQuitCh := c.readQuitCh - 1, reader := .quitting }, [])
      else none
    | _ => none
  | .closeWriterCh =>
    if c.reader = .quitting then some ({ c with writerChClosed := true, reader := .done }, [])
    else none
  | .write =>
    match c.writer, c.writerCh with
    | .draining, d :: rest => some ({ c with writerCh := rest }, [.written d])
    | _, _ => none
  | .closeSock =>
    if c.writer = .draining ∧ c.writerCh = [] ∧ c.writerChClosed then
      some ({ c with writer := .quitting }, [.sockClosed])
    else none
  | .sendWriteQuit =>
    if c.writer = .quitting ∧ c.writeQuitCh < 1 then
      some ({ c with writeQuitCh := c.writeQuitCh + 1, writer := .done }, [])
    else none

/-- The connection from `dialQuic` on, under any interleaving. -/
def system : Lts Conn ConnLabel ConnEvent := ⟨new, step⟩

/-! ### One step

What each operation does when it can go, with its guard. -/

section Step

variable {c c' : Conn} {evs : List ConnEvent}

/-- A send on the writer's channel panics on a closed channel and queues on an open one. -/
theorem sendWriterCh_cases {d : UdpData} {next : UserPc}
    (h : c.sendWriterCh d next = some (c', evs)) :
    (c.writerChClosed = true ∧ c' = { c with user := .panicked } ∧ evs = [.sendPanic]) ∨
      (c.writerChClosed = false ∧ c.writerCh.length < writerChCapacity ∧
        c' = { c with writerCh := c.writerCh ++ [d], user := next } ∧ evs = [.queued d]) := by
  simp only [sendWriterCh] at h
  split at h
  · next hc =>
    obtain ⟨rfl, rfl⟩ := Prod.mk.inj (Option.some.inj h)
    exact .inl ⟨hc, rfl, rfl⟩
  · next hc =>
    split at h
    · next hlen =>
      obtain ⟨rfl, rfl⟩ := Prod.mk.inj (Option.some.inj h)
      exact .inr ⟨Bool.eq_false_iff.mpr hc, hlen, rfl, rfl⟩
    · cases h

theorem step_send_cases {d : UdpData} (h : c.step (.send d) = some (c', evs)) :
    c.user = .running ∧ c.sendWriterCh d .running = some (c', evs) := by
  simp only [step] at h
  split at h
  · exact ⟨‹_›, h⟩
  · cases h

theorem step_sendClose_cases {d : UdpData} (h : c.step (.sendClose d) = some (c', evs)) :
    c.user = .sendClose ∧ c.sendWriterCh d .quitRead = some (c', evs) := by
  simp only [step] at h
  split at h
  · exact ⟨‹_›, h⟩
  · cases h

theorem step_recv_cases (h : c.step .recv = some (c', evs)) :
    ∃ d, c.user = .running ∧ c.reader = .offering d ∧ c' = { c with reader := .reading } ∧
      evs = [.delivered d] := by
  simp only [step] at h
  split at h
  · next d hu hr =>
    obtain ⟨rfl, rfl⟩ := Prod.mk.inj (Option.some.inj h)
    exact ⟨d, hu, hr, rfl, rfl⟩
  · cases h

/-- `Close` returns at once on a closed connection, and again after it has returned. -/
theorem step_close_cases (h : c.step .close = some (c', evs)) :
    (c.user = .running ∧ c.closed = true ∧ c' = { c with user := .done } ∧
        evs = [.closeReturned]) ∨
      (c.user = .running ∧ c.closed = false ∧ c' = { c with user := .sendClose } ∧ evs = []) ∨
      (c.user = .done ∧ c' = c ∧ evs = [.closeReturned]) := by
  simp only [step] at h
  split at h
  · next hu =>
    split at h
    · next hc =>
      obtain ⟨rfl, rfl⟩ := Prod.mk.inj (Option.some.inj h)
      exact .inl ⟨hu, hc, rfl, rfl⟩
    · next hc =>
      obtain ⟨rfl, rfl⟩ := Prod.mk.inj (Option.some.inj h)
      exact .inr (.inl ⟨hu, Bool.eq_false_iff.mpr hc, rfl, rfl⟩)
  · next hu =>
    obtain ⟨rfl, rfl⟩ := Prod.mk.inj (Option.some.inj h)
    exact .inr (.inr ⟨hu, rfl, rfl⟩)
  · cases h

theorem step_sendReadQuit_cases (h : c.step .sendReadQuit = some (c', evs)) :
    c.user = .quitRead ∧ c.readQuitCh < 1 ∧
      c' = { c with readQuitCh := c.readQuitCh + 1, closed := true, user := .waitWrite } ∧
      evs = [] := by
  simp only [step] at h
  split at h
  · next hg =>
    obtain ⟨rfl, rfl⟩ := Prod.mk.inj (Option.some.inj h)
    exact ⟨hg.1, hg.2, rfl, rfl⟩
  · cases h

theorem step_recvWriteQuit_cases (h : c.step .recvWriteQuit = some (c', evs)) :
    c.user = .waitWrite ∧ 0 < c.writeQuitCh ∧
      c' = { c with writeQuitCh := c.writeQuitCh - 1, user := .done } ∧
      evs = [.closeReturned] := by
  simp only [step] at h
  split at h
  · next hg =>
    obtain ⟨rfl, rfl⟩ := Prod.mk.inj (Option.some.inj h)
    exact ⟨hg.1, hg.2, rfl, rfl⟩
  · cases h

theorem step_readData_cases {d : UdpData} (h : c.step (.readData d) = some (c', evs)) :
    c.reader = .reading ∧ c' = { c with reader := .offering d } ∧ evs = [] := by
  simp only [step] at h
  split at h
  · obtain ⟨rfl, rfl⟩ := Prod.mk.inj (Option.some.inj h)
    exact ⟨‹_›, rfl, rfl⟩
  · cases h

/-- A read timeout takes the quit signal when there is one, and changes nothing otherwise. -/
theorem step_readTimeout_cases (h : c.step .readTimeout = some (c', evs)) :
    c.reader = .reading ∧
      ((0 < c.readQuitCh ∧ c' = { c with readQuitCh := c.readQuitCh - 1, reader := .quitting }) ∨
        (c.readQuitCh = 0 ∧ c' = c)) ∧
      evs = [] := by
  simp only [step] at h
  split at h
  · next hr =>
    split at h
    · next hpos =>
      obtain ⟨rfl, rfl⟩ := Prod.mk.inj (Option.some.inj h)
      exact ⟨hr, .inl ⟨hpos, rfl⟩, rfl⟩
    · next hpos =>
      obtain ⟨rfl, rfl⟩ := Prod.mk.inj (Option.some.inj h)
      exact ⟨hr, .inr ⟨Nat.eq_zero_of_not_pos hpos, rfl⟩, rfl⟩
  · cases h

theorem step_readError_cases (h : c.step .readError = some (c', evs)) :
    c.reader = .reading ∧ c' = { c with reader := .panicked } ∧ evs = [.readPanic] := by
  simp only [step] at h
  split at h
  · obtain ⟨rfl, rfl⟩ := Prod.mk.inj (Option.some.inj h)
    exact ⟨‹_›, rfl, rfl⟩
  · cases h

theorem step_takeQuit_cases (h : c.step .takeQuit = some (c', evs)) :
    (∃ d, c.reader = .offering d) ∧ 0 < c.readQuitCh ∧
      c' = { c with readQuitCh := c.readQuitCh - 1, reader := .quitting } ∧ evs = [] := by
  simp only [step] at h
  split at h
  · next d hr =>
    split at h
    · obtain ⟨rfl, rfl⟩ := Prod.mk.inj (Option.some.inj h)
      exact ⟨⟨d, hr⟩, ‹_›, rfl, rfl⟩
    · cases h
  · cases h

theorem step_closeWriterCh_cases (h : c.step .closeWriterCh = some (c', evs)) :
    c.reader = .quitting ∧ c' = { c with writerChClosed := true, reader := .done } ∧
      evs = [] := by
  simp only [step] at h
  split at h
  · obtain ⟨rfl, rfl⟩ := Prod.mk.inj (Option.some.inj h)
    exact ⟨‹_›, rfl, rfl⟩
  · cases h

theorem step_write_cases (h : c.step .write = some (c', evs)) :
    ∃ d rest, c.writer = .draining ∧ c.writerCh = d :: rest ∧ c' = { c with writerCh := rest } ∧
      evs = [.written d] := by
  simp only [step] at h
  split at h
  · next d rest hw hc =>
    obtain ⟨rfl, rfl⟩ := Prod.mk.inj (Option.some.inj h)
    exact ⟨d, rest, hw, hc, rfl, rfl⟩
  · cases h

theorem step_closeSock_cases (h : c.step .closeSock = some (c', evs)) :
    c.writer = .draining ∧ c.writerCh = [] ∧ c.writerChClosed = true ∧
      c' = { c with writer := .quitting } ∧ evs = [.sockClosed] := by
  simp only [step] at h
  split at h
  · next hg =>
    obtain ⟨rfl, rfl⟩ := Prod.mk.inj (Option.some.inj h)
    exact ⟨hg.1, hg.2.1, hg.2.2, rfl, rfl⟩
  · cases h

theorem step_sendWriteQuit_cases (h : c.step .sendWriteQuit = some (c', evs)) :
    c.writer = .quitting ∧ c.writeQuitCh < 1 ∧
      c' = { c with writeQuitCh := c.writeQuitCh + 1, writer := .done } ∧ evs = [] := by
  simp only [step] at h
  split at h
  · next hg =>
    obtain ⟨rfl, rfl⟩ := Prod.mk.inj (Option.some.inj h)
    exact ⟨hg.1, hg.2, rfl, rfl⟩
  · cases h

end Step

end Conn

/-! ### The invariant -/

/-- `1` once `Close` has signalled `readQuitCh`. -/
def UserPc.sentQuit : UserPc → Nat
  | .waitWrite | .done => 1
  | _ => 0

/-- `1` once `Close` has taken the value of `writeQuitCh`. -/
def UserPc.tookWriteQuit : UserPc → Nat
  | .done => 1
  | _ => 0

/-- The user is inside `Close`, before its return. -/
def UserPc.inClose : UserPc → Bool
  | .sendClose | .quitRead | .waitWrite => true
  | _ => false

/-- `1` once the reader has taken the value of `readQuitCh`. -/
def ReaderPc.tookQuit : ReaderPc → Nat
  | .quitting | .done => 1
  | _ => 0

/-- `1` once the writer has signalled `writeQuitCh`. -/
def WriterPc.sentQuit : WriterPc → Nat
  | .done => 1
  | _ => 0

theorem UserPc.tookWriteQuit_le (u : UserPc) : u.tookWriteQuit ≤ u.sentQuit := by
  cases u <;> decide

namespace Conn

variable {c c' : Conn} {l : ConnLabel} {evs : List ConnEvent}

/-- What holds between the goroutines: each quit signal is sent once and taken once, the writer's
channel is closed exactly when the reader has left, and the writer leaves only a closed, drained
channel. -/
structure Inv (c : Conn) : Prop where
  readQuit : c.readQuitCh + c.reader.tookQuit = c.user.sentQuit
  closed : c.closed = true ↔ c.user.sentQuit = 1
  chClosed : c.writerChClosed = true ↔ c.reader = .done
  drained : c.writer ≠ .draining → c.writerChClosed = true ∧ c.writerCh = []
  writeQuit : c.writeQuitCh + c.user.tookWriteQuit = c.writer.sentQuit
  capacity : c.writerCh.length ≤ writerChCapacity
  user_ne : c.user ≠ .panicked

theorem inv_new : new.Inv where
  readQuit := rfl
  closed := by simp [new, UserPc.sentQuit]
  chClosed := by simp [new]
  drained h := absurd rfl h
  writeQuit := rfl
  capacity := by simp [new]
  user_ne := by simp [new]

/-- Until `Close` signals `readQuitCh`, the writer's channel is open. -/
theorem Inv.writerCh_open (hi : c.Inv) (hu : c.user.sentQuit = 0) : c.writerChClosed = false := by
  cases hc : c.writerChClosed with
  | false => rfl
  | true =>
    -- a closed channel means the reader took a quit signal that was never sent
    have h := hi.readQuit
    rw [hi.chClosed.mp hc, hu] at h
    simp [ReaderPc.tookQuit] at h

/-- Until `Close` signals `readQuitCh`, a send on the writer's channel queues or blocks. -/
theorem Inv.sendWriterCh_eq (hi : c.Inv) (hu : c.user.sentQuit = 0) (d : UdpData)
    (next : UserPc) :
    c.sendWriterCh d next =
      if c.writerCh.length < writerChCapacity then
        some ({ c with writerCh := c.writerCh ++ [d], user := next }, [.queued d])
      else none := by
  rw [sendWriterCh, hi.writerCh_open hu, if_neg Bool.false_ne_true]

/-- A send queued before `Close` signals `readQuitCh` keeps the invariant. -/
theorem Inv.queue (hi : c.Inv) (hu : c.user.sentQuit = 0) {next : UserPc}
    (hn : next = .running ∨ next = .quitRead) (hlen : c.writerCh.length < writerChCapacity)
    (d : UdpData) : { c with writerCh := c.writerCh ++ [d], user := next }.Inv := by
  -- neither `running` nor `quitRead` has signalled or taken a quit
  have hn0 : next.sentQuit = 0 ∧ next.tookWriteQuit = 0 := by
    rcases hn with rfl | rfl <;> exact ⟨rfl, rfl⟩
  have ht : c.user.tookWriteQuit = 0 := by
    have := c.user.tookWriteQuit_le
    omega
  have hopen := hi.writerCh_open hu
  refine ⟨hi.readQuit.trans (hu.trans hn0.1.symm), hi.closed.trans (by rw [hu, hn0.1]),
    hi.chClosed, fun hw => ?_, ?_, by simpa using hlen, ?_⟩
  · rw [(hi.drained hw).1] at hopen
    cases hopen
  · have h := hi.writeQuit
    rw [ht] at h
    simpa [hn0.2] using h
  · rcases hn with rfl | rfl <;> simp

/-- A send made before `Close` signals `readQuitCh` queues its datagram and keeps the invariant. -/
theorem Inv.send (hi : c.Inv) (hu : c.user.sentQuit = 0) {d : UdpData} {next : UserPc}
    (hn : next = .running ∨ next = .quitRead) (h : c.sendWriterCh d next = some (c', evs)) :
    c'.Inv ∧ ConnEvent.sendPanic ∉ evs := by
  rcases sendWriterCh_cases h with ⟨hcl, -, -⟩ | ⟨-, hlen, rfl, rfl⟩
  · -- the channel is open until then
    rw [hi.writerCh_open hu] at hcl
    cases hcl
  · exact ⟨hi.queue hu hn hlen d, by simp⟩

/-- Every step keeps the invariant, and none sends on a closed channel. -/
theorem Inv.step (hi : c.Inv) (h : c.step l = some (c', evs)) :
    c'.Inv ∧ ConnEvent.sendPanic ∉ evs := by
  obtain ⟨hrq, hcl, hch, hdr, hwq, hcap, hun⟩ := hi
  cases l with
  | send d =>
    obtain ⟨hu, hs⟩ := step_send_cases h
    exact Inv.send ⟨hrq, hcl, hch, hdr, hwq, hcap, hun⟩ (by rw [hu]; rfl) (.inl rfl) hs
  | sendClose d =>
    obtain ⟨hu, hs⟩ := step_sendClose_cases h
    exact Inv.send ⟨hrq, hcl, hch, hdr, hwq, hcap, hun⟩ (by rw [hu]; rfl) (.inr rfl) hs
  | recv =>
    obtain ⟨d, -, hr, rfl, rfl⟩ := step_recv_cases h
    rw [hr] at hrq hch
    exact ⟨⟨by simpa [ReaderPc.tookQuit] using hrq, hcl, by simpa using hch, hdr, hwq, hcap,
      hun⟩, by simp⟩
  | close =>
    rcases step_close_cases h with ⟨hu, hc, -, -⟩ | ⟨hu, -, rfl, rfl⟩ | ⟨-, rfl, rfl⟩
    · -- `closed` is set only inside `Close`
      rw [hcl, hu] at hc
      cases hc
    · rw [hu] at hrq hcl hwq
      exact ⟨⟨hrq, hcl, hch, hdr, hwq, hcap, by simp⟩, by simp⟩
    · exact ⟨⟨hrq, hcl, hch, hdr, hwq, hcap, hun⟩, by simp⟩
  | sendReadQuit =>
    obtain ⟨hu, -, rfl, rfl⟩ := step_sendReadQuit_cases h
    rw [hu] at hrq hwq
    exact ⟨⟨by simp only [UserPc.sentQuit] at hrq ⊢; omega, by simp [UserPc.sentQuit], hch, hdr,
      by simpa [UserPc.tookWriteQuit] using hwq, hcap, by simp⟩, by simp⟩
  | recvWriteQuit =>
    obtain ⟨hu, hpos, rfl, rfl⟩ := step_recvWriteQuit_cases h
    rw [hu] at hrq hcl hwq
    exact ⟨⟨by simpa [UserPc.sentQuit] using hrq, by simpa [UserPc.sentQuit] using hcl, hch,
      hdr, by simp only [UserPc.tookWriteQuit] at hwq ⊢; omega, hcap, by simp⟩, by simp⟩
  | readData d =>
    obtain ⟨hr, rfl, rfl⟩ := step_readData_cases h
    rw [hr] at hrq hch
    exact ⟨⟨by simpa [ReaderPc.tookQuit] using hrq, hcl, by simpa using hch, hdr, hwq, hcap,
      hun⟩, by simp⟩
  | readTimeout =>
    obtain ⟨hr, hc', rfl⟩ := step_readTimeout_cases h
    rw [hr] at hrq hch
    rcases hc' with ⟨hpos, rfl⟩ | ⟨-, rfl⟩
    · -- the `select` takes the quit signal
      exact ⟨⟨by simp only [ReaderPc.tookQuit] at hrq ⊢; omega, hcl, by simpa using hch, hdr,
        hwq, hcap, hun⟩, by simp⟩
    · exact ⟨⟨by rwa [hr], hcl, by rwa [hr], hdr, hwq, hcap, hun⟩, by simp⟩
  | readError =>
    obtain ⟨hr, rfl, rfl⟩ := step_readError_cases h
    rw [hr] at hrq hch
    exact ⟨⟨by simpa [ReaderPc.tookQuit] using hrq, hcl, by simpa using hch, hdr, hwq, hcap,
      hun⟩, by simp⟩
  | takeQuit =>
    obtain ⟨⟨d, hr⟩, hpos, rfl, rfl⟩ := step_takeQuit_cases h
    rw [hr] at hrq hch
    exact ⟨⟨by simp only [ReaderPc.tookQuit] at hrq ⊢; omega, hcl, by simpa using hch, hdr,
      hwq, hcap, hun⟩, by simp⟩
  | closeWriterCh =>
    obtain ⟨hr, rfl, rfl⟩ := step_closeWriterCh_cases h
    rw [hr] at hrq
    exact ⟨⟨by simpa [ReaderPc.tookQuit] using hrq, hcl, by simp, fun hw => ⟨rfl,
      (hdr hw).2⟩, hwq, hcap, hun⟩, by simp⟩
  | write =>
    obtain ⟨d, rest, hw, hc, rfl, rfl⟩ := step_write_cases h
    rw [hc] at hcap
    exact ⟨⟨hrq, hcl, hch, fun hw' => absurd hw hw', hwq, by simp at hcap ⊢; omega, hun⟩,
      by simp⟩
  | closeSock =>
    obtain ⟨hw, he, hc, rfl, rfl⟩ := step_closeSock_cases h
    rw [hw] at hwq
    exact ⟨⟨hrq, hcl, hch, fun _ => ⟨hc, he⟩, by simpa [WriterPc.sentQuit] using hwq, hcap,
      hun⟩, by simp⟩
  | sendWriteQuit =>
    obtain ⟨hw, hlt, rfl, rfl⟩ := step_sendWriteQuit_cases h
    rw [hw] at hwq hdr
    exact ⟨⟨hrq, hcl, hch, fun _ => hdr (by simp), by
      simp only [WriterPc.sentQuit] at hwq ⊢; omega, hcap, hun⟩, by simp⟩

theorem inv_reach {tr : List ConnEvent} (h : system.Reach c tr) : c.Inv :=
  h.invariant inv_new fun _ _ _ _ hi hs => (hi.step hs).1

/-- On every run nothing is sent on a closed channel: the user's sends all come before `Close`
signals `readQuitCh`, and the reader closes the channel only after taking that signal. -/
theorem no_send_panic {tr : List ConnEvent} (h : system.Reach c tr) :
    ConnEvent.sendPanic ∉ tr := by
  refine h.induction_on (P := fun c tr => c.Inv ∧ ConnEvent.sendPanic ∉ tr) ⟨inv_new, by simp⟩ ?_
    |>.2
  rintro c tr l c' evs - ⟨hi, hno⟩ hs
  obtain ⟨hi', hevs⟩ := hi.step hs
  exact ⟨hi', by simp [hno, hevs]⟩

/-- A client that writes one datagram and closes: the close packet is queued behind it, both are
written before the socket closes, and nothing panics. -/
theorem no_send_panic_on_close :
    ∃ c tr, system.run system.init [.send ⟨none, [1], 1⟩, .close, .sendClose ⟨none, [2], 1⟩,
        .sendReadQuit, .readTimeout, .closeWriterCh, .write, .write, .closeSock, .sendWriteQuit,
        .recvWriteQuit] = some (c, tr) ∧
      tr = [.queued ⟨none, [1], 1⟩, .queued ⟨none, [2], 1⟩, .written ⟨none, [1], 1⟩,
        .written ⟨none, [2], 1⟩, .sockClosed, .closeReturned] ∧
      ConnEvent.sendPanic ∉ tr := by
  have hrun : (system.run system.init [.send ⟨none, [1], 1⟩, .close, .sendClose ⟨none, [2], 1⟩,
      .sendReadQuit, .readTimeout, .closeWriterCh, .write, .write, .closeSock, .sendWriteQuit,
      .recvWriteQuit]).map Prod.snd =
      some [.queued ⟨none, [1], 1⟩, .queued ⟨none, [2], 1⟩, .written ⟨none, [1], 1⟩,
        .written ⟨none, [2], 1⟩, .sockClosed, .closeReturned] := by
    decide +kernel
  obtain ⟨⟨c, tr⟩, hr, rfl⟩ := Option.map_eq_some_iff.mp hrun
  exact ⟨c, _, hr, rfl, no_send_panic (Lts.Reach.of_run hr)⟩

/-! ### The writer's channel is a queue -/

/-- The datagrams queued on the writer's channel, in order. -/
def queuedOf (tr : List ConnEvent) : List UdpData :=
  tr.filterMap fun
    | .queued d => some d
    | _ => none

/-- The datagrams written to the socket, in order. -/
def writtenOf (tr : List ConnEvent) : List UdpData :=
  tr.filterMap fun
    | .written d => some d
    | _ => none

@[simp] theorem queuedOf_append (tr evs : List ConnEvent) :
    queuedOf (tr ++ evs) = queuedOf tr ++ queuedOf evs := by
  simp [queuedOf]

@[simp] theorem writtenOf_append (tr evs : List ConnEvent) :
    writtenOf (tr ++ evs) = writtenOf tr ++ writtenOf evs := by
  simp [writtenOf]

/-- A send on the writer's channel queues its datagram at the back, or panics. -/
theorem sendWriterCh_fifo {d : UdpData} {next : UserPc}
    (h : c.sendWriterCh d next = some (c', evs)) :
    c.writerCh ++ queuedOf evs = writtenOf evs ++ c'.writerCh ∧ ConnEvent.sockClosed ∉ evs := by
  rcases sendWriterCh_cases h with ⟨-, rfl, rfl⟩ | ⟨-, -, rfl, rfl⟩
  · simp [queuedOf, writtenOf]
  · simp [queuedOf, writtenOf]

/-- One step moves the channel as a queue: a send joins the back, a write takes the front, and
the socket closes only on an empty channel. -/
theorem step_fifo (h : c.step l = some (c', evs)) :
    c.writerCh ++ queuedOf evs = writtenOf evs ++ c'.writerCh ∧
      (ConnEvent.sockClosed ∈ evs → evs = [.sockClosed] ∧ c.writerCh = []) := by
  cases l with
  | send d =>
    obtain ⟨hq, hs⟩ := sendWriterCh_fifo (step_send_cases h).2
    exact ⟨hq, fun hm => absurd hm hs⟩
  | sendClose d =>
    obtain ⟨hq, hs⟩ := sendWriterCh_fifo (step_sendClose_cases h).2
    exact ⟨hq, fun hm => absurd hm hs⟩
  | write =>
    obtain ⟨d, rest, -, hc, rfl, rfl⟩ := step_write_cases h
    simp [queuedOf, writtenOf, hc]
  | closeSock =>
    obtain ⟨-, he, -, rfl, rfl⟩ := step_closeSock_cases h
    simp [queuedOf, writtenOf, he]
  -- the other steps leave the channel alone and emit no datagram
  | recv =>
    obtain ⟨d, -, -, rfl, rfl⟩ := step_recv_cases h
    simp [queuedOf, writtenOf]
  | close =>
    rcases step_close_cases h with ⟨-, -, rfl, rfl⟩ | ⟨-, -, rfl, rfl⟩ | ⟨-, rfl, rfl⟩ <;>
      simp [queuedOf, writtenOf]
  | sendReadQuit =>
    obtain ⟨-, -, rfl, rfl⟩ := step_sendReadQuit_cases h
    simp [queuedOf, writtenOf]
  | recvWriteQuit =>
    obtain ⟨-, -, rfl, rfl⟩ := step_recvWriteQuit_cases h
    simp [queuedOf, writtenOf]
  | readData d =>
    obtain ⟨-, rfl, rfl⟩ := step_readData_cases h
    simp [queuedOf, writtenOf]
  | readTimeout =>
    obtain ⟨-, ⟨-, rfl⟩ | ⟨-, rfl⟩, rfl⟩ := step_readTimeout_cases h <;> simp [queuedOf, writtenOf]
  | readError =>
    obtain ⟨-, rfl, rfl⟩ := step_readError_cases h
    simp [queuedOf, writtenOf]
  | takeQuit =>
    obtain ⟨-, -, rfl, rfl⟩ := step_takeQuit_cases h
    simp [queuedOf, writtenOf]
  | closeWriterCh =>
    obtain ⟨-, rfl, rfl⟩ := step_closeWriterCh_cases h
    simp [queuedOf, writtenOf]
  | sendWriteQuit =>
    obtain ⟨-, -, rfl, rfl⟩ := step_sendWriteQuit_cases h
    simp [queuedOf, writtenOf]

/-- On every run the writer writes what was queued, in order, and closes the socket only once it
has written all of it: every datagram the client queued, the close packet with it, reaches the
socket before it closes. -/
theorem written_before_sockClosed {tr : List ConnEvent} (h : system.Reach c tr) :
    writtenOf tr ++ c.writerCh = queuedOf tr ∧
      Lts.Allows (fun pre e => e = .sockClosed → writtenOf pre = queuedOf pre) tr := by
  refine h.induction_on (P := fun c tr => writtenOf tr ++ c.writerCh = queuedOf tr ∧
    Lts.Allows (fun pre e => e = .sockClosed → writtenOf pre = queuedOf pre) tr)
    ⟨rfl, Lts.allows_nil _⟩ ?_
  rintro c tr l c' evs - ⟨hq, ha⟩ hs
  obtain ⟨hfifo, hclosed⟩ := step_fifo hs
  constructor
  · calc writtenOf (tr ++ evs) ++ c'.writerCh
        = writtenOf tr ++ (c.writerCh ++ queuedOf evs) := by
          rw [writtenOf_append, List.append_assoc, hfifo]
      _ = queuedOf (tr ++ evs) := by rw [← List.append_assoc, hq, queuedOf_append]
  · by_cases hm : ConnEvent.sockClosed ∈ evs
    · -- the socket closes on an empty channel: everything queued has been written
      obtain ⟨rfl, hnil⟩ := hclosed hm
      refine Lts.allows_append_singleton.mpr ⟨ha, fun _ => ?_⟩
      rw [hnil, List.append_nil] at hq
      exact hq
    · exact ha.append fun e he _ hse => absurd (hse ▸ he) hm

/-- The writer closes the socket on a channel it has drained: the datagram and the close packet
are written, in the order they were queued, before it. -/
theorem written_before_sockClosed_on_close :
    ∃ c tr, system.run system.init [.send ⟨none, [1], 1⟩, .close, .sendClose ⟨none, [2], 1⟩,
        .sendReadQuit, .readTimeout, .closeWriterCh, .write, .write, .closeSock] = some (c, tr) ∧
      tr = [.queued ⟨none, [1], 1⟩, .queued ⟨none, [2], 1⟩, .written ⟨none, [1], 1⟩,
        .written ⟨none, [2], 1⟩, .sockClosed] ∧
      writtenOf tr ++ c.writerCh = queuedOf tr ∧
      Lts.Allows (fun pre e => e = .sockClosed → writtenOf pre = queuedOf pre) tr := by
  have hrun : (system.run system.init [.send ⟨none, [1], 1⟩, .close, .sendClose ⟨none, [2], 1⟩,
      .sendReadQuit, .readTimeout, .closeWriterCh, .write, .write, .closeSock]).map Prod.snd =
      some [.queued ⟨none, [1], 1⟩, .queued ⟨none, [2], 1⟩, .written ⟨none, [1], 1⟩,
        .written ⟨none, [2], 1⟩, .sockClosed] := by
    decide +kernel
  obtain ⟨⟨c, tr⟩, hr, rfl⟩ := Option.map_eq_some_iff.mp hrun
  exact ⟨c, _, hr, rfl, written_before_sockClosed (Lts.Reach.of_run hr)⟩

end Conn

/-! ### `Close` returns -/

/-- The user's steps left until `Close` returns. -/
def UserPc.rank : UserPc → Nat
  | .running => 4
  | .sendClose => 3
  | .quitRead => 2
  | .waitWrite => 1
  | .done | .panicked => 0

/-- The reader's steps left until it closes the writer's channel. -/
def ReaderPc.rank : ReaderPc → Nat
  | .reading => 3
  | .offering _ => 2
  | .quitting => 1
  | .done | .panicked => 0

/-- The writer's steps left once the channel is drained. -/
def WriterPc.rank : WriterPc → Nat
  | .draining => 2
  | .quitting => 1
  | .done => 0

namespace Conn

variable {c c' : Conn} {l : ConnLabel} {evs : List ConnEvent}

/-- The work left: one write for each datagram of the channel, and the goroutines' steps. Sending
the close packet queues one more datagram while it moves the user on, so the user's steps count
twice. -/
def workLeft (c : Conn) : Nat :=
  c.writerCh.length + 2 * c.user.rank + c.reader.rank + c.writer.rank

/-- Inside `Close`, before it returns, with the reader alive. -/
structure Closing (c : Conn) : Prop where
  inv : c.Inv
  inClose : c.user.inClose = true
  reader_ne : c.reader ≠ .panicked

/-- Inside `Close` some step lowers the work left, and either returns from `Close` or stays inside
it with the reader alive. The writer drains the channel first; then the user sends the close
packet and signals `readQuitCh`; then the reader takes the signal and closes the channel, and the
writer closes the socket and signals `writeQuitCh`, which `Close` takes. -/
theorem Closing.exists_progress (hc : c.Closing) (d : UdpData) :
    ∃ l c' evs, c.step l = some (c', evs) ∧ c'.workLeft < c.workLeft ∧
      (c'.user = .done ∧ ConnEvent.closeReturned ∈ evs ∨
        c'.user.inClose = true ∧ c'.reader ≠ .panicked) := by
  obtain ⟨hi, hu, hr⟩ := hc
  by_cases hw : c.writer = .draining ∧ c.writerCh ≠ []
  · -- the writer writes the next datagram
    obtain ⟨hw, hne⟩ := hw
    obtain ⟨x, rest, hx⟩ := List.exists_cons_of_ne_nil hne
    refine ⟨.write, { c with writerCh := rest }, [.written x], by simp [step, hw, hx], ?_,
      .inr ⟨hu, hr⟩⟩
    simp [workLeft, hx]
  have hnil : c.writerCh = [] := by
    by_cases hd : c.writer = .draining
    · by_contra hne
      exact hw ⟨hd, hne⟩
    · exact (hi.drained hd).2
  cases hu' : c.user with
  | sendClose =>
    -- `SendConnectionClosePacket` queues the close packet on the open, empty channel
    have hs : c.user.sentQuit = 0 := by rw [hu']; rfl
    have hlen : c.writerCh.length < writerChCapacity := by rw [hnil]; decide
    refine ⟨.sendClose d, { c with writerCh := c.writerCh ++ [d], user := .quitRead },
      [.queued d], ?_, by simp [workLeft, hu', hnil, UserPc.rank], .inr ⟨rfl, hr⟩⟩
    simp only [step, hu', if_true, hi.sendWriterCh_eq hs, hlen]
  | quitRead =>
    -- nothing has been sent on `readQuitCh` yet
    have h0 : c.readQuitCh = 0 := by
      have := hi.readQuit
      rw [hu'] at this
      simp only [UserPc.sentQuit] at this
      omega
    refine ⟨.sendReadQuit,
      { c with readQuitCh := c.readQuitCh + 1, closed := true, user := .waitWrite }, [],
      by simp [step, hu', h0], by simp [workLeft, hu', UserPc.rank], .inr ⟨rfl, hr⟩⟩
  | waitWrite =>
    -- the reader takes the quit signal and closes the channel, then the writer runs out
    cases hr' : c.reader with
    | reading =>
      have h1 : c.readQuitCh = 1 := by
        have := hi.readQuit
        rw [hu', hr'] at this
        simpa [UserPc.sentQuit, ReaderPc.tookQuit] using this
      refine ⟨.readTimeout, { c with readQuitCh := c.readQuitCh - 1, reader := .quitting }, [],
        by simp [step, hr', h1], by simp [workLeft, hr', ReaderPc.rank], .inr ⟨hu, by simp⟩⟩
    | offering x =>
      have h1 : c.readQuitCh = 1 := by
        have := hi.readQuit
        rw [hu', hr'] at this
        simpa [UserPc.sentQuit, ReaderPc.tookQuit] using this
      refine ⟨.takeQuit, { c with readQuitCh := c.readQuitCh - 1, reader := .quitting }, [],
        by simp [step, hr', h1], by simp [workLeft, hr', ReaderPc.rank], .inr ⟨hu, by simp⟩⟩
    | quitting =>
      refine ⟨.closeWriterCh, { c with writerChClosed := true, reader := .done }, [],
        by simp [step, hr'], by simp [workLeft, hr', ReaderPc.rank], .inr ⟨hu, by simp⟩⟩
    | done =>
      have hcl : c.writerChClosed = true := hi.chClosed.mpr hr'
      cases hw' : c.writer with
      | draining =>
        -- the range over the closed, drained channel ends
        refine ⟨.closeSock, { c with writer := .quitting }, [.sockClosed],
          by simp [step, hw', hnil, hcl], by simp [workLeft, hw', WriterPc.rank], .inr ⟨hu, hr⟩⟩
      | quitting =>
        have h0 : c.writeQuitCh = 0 := by
          have := hi.writeQuit
          rw [hu', hw'] at this
          simpa [UserPc.tookWriteQuit, WriterPc.sentQuit] using this
        refine ⟨.sendWriteQuit, { c with writeQuitCh := c.writeQuitCh + 1, writer := .done }, [],
          by simp [step, hw', h0], by simp [workLeft, hw', WriterPc.rank], .inr ⟨hu, hr⟩⟩
      | done =>
        -- `Close` takes the writer's signal and returns
        have h1 : c.writeQuitCh = 1 := by
          have := hi.writeQuit
          rw [hu', hw'] at this
          simpa [UserPc.tookWriteQuit, WriterPc.sentQuit] using this
        refine ⟨.recvWriteQuit, { c with writeQuitCh := c.writeQuitCh - 1, user := .done },
          [.closeReturned], by simp [step, hu', h1], by simp [workLeft, hu', UserPc.rank],
          .inl ⟨rfl, by simp⟩⟩
    | panicked => exact absurd hr' hr
  | running | done | panicked => simp [hu', UserPc.inClose] at hu

/-- From every reachable state inside `Close`, unless the reader has panicked on a read error, the
goroutines can run `Close` to its return, whatever close packet `d` libquic writes. -/
theorem close_returns {tr : List ConnEvent} (h : system.Reach c tr) (hu : c.user.inClose = true)
    (hr : c.reader ≠ .panicked) (d : UdpData) :
    ∃ ls c' tr', system.run c ls = some (c', tr') ∧ c'.user = .done ∧
      ConnEvent.closeReturned ∈ tr' := by
  have hp : ∀ c : Conn, c.Closing → ∃ l c' evs, system.step c l = some (c', evs) ∧
      (c'.user = .done ∧ ConnEvent.closeReturned ∈ evs ∨
        c'.Closing ∧ c'.workLeft < c.workLeft) := by
    intro c hc
    obtain ⟨l, c', evs, hs, hlt, hdone | ⟨hu', hr'⟩⟩ := hc.exists_progress d
    · exact ⟨l, c', evs, hs, .inl hdone⟩
    · exact ⟨l, c', evs, hs, .inr ⟨⟨(hc.inv.step hs).1, hu', hr'⟩, hlt⟩⟩
  obtain ⟨ls, c', tr', evs, hrun, hdone, hret⟩ :=
    Lts.exists_run_of_progress (I := Closing)
      (G := fun c evs => c.user = .done ∧ ConnEvent.closeReturned ∈ evs) workLeft hp
      ⟨inv_reach h, hu, hr⟩
  exact ⟨ls, c', tr' ++ evs, hrun, hdone, List.mem_append_right _ hret⟩

/-- After a datagram is queued and `Close` is called, with the datagram not yet written, `Close`
can still return. -/
theorem close_returns_after_send :
    ∃ c tr, system.run system.init [.send ⟨none, [1], 1⟩, .close] = some (c, tr) ∧
      c.user.inClose = true ∧ c.reader ≠ .panicked ∧
      ∃ ls c' tr', system.run c ls = some (c', tr') ∧ c'.user = .done ∧
        ConnEvent.closeReturned ∈ tr' := by
  have hrun : (system.run system.init [.send ⟨none, [1], 1⟩, .close]).map
      (fun r => (r.1.user.inClose, decide (r.1.reader = .panicked))) = some (true, false) := by
    decide +kernel
  obtain ⟨⟨c, tr⟩, hr, he⟩ := Option.map_eq_some_iff.mp hrun
  obtain ⟨hu, hp⟩ := Prod.mk.inj he
  have hp' : c.reader ≠ .panicked := of_decide_eq_false hp
  exact ⟨c, tr, hr, hu, hp', close_returns (Lts.Reach.of_run hr) hu hp' ⟨none, [2], 1⟩⟩

/-- Once the user has left `running`, every step keeps it out and either changes nothing or
lowers the work left: only a read timeout with no quit signal, and a `Close` after `Close` has
returned, change nothing. -/
theorem step_workLeft (hu : c.user ≠ .running) (h : c.step l = some (c', evs)) :
    c'.user ≠ .running ∧ (c' = c ∨ c'.workLeft < c.workLeft) := by
  cases l with
  | send d => exact absurd (step_send_cases h).1 hu
  | recv =>
    obtain ⟨d, hu', -⟩ := step_recv_cases h
    exact absurd hu' hu
  | close =>
    rcases step_close_cases h with ⟨hu', -⟩ | ⟨hu', -⟩ | ⟨-, rfl, rfl⟩
    · exact absurd hu' hu
    · exact absurd hu' hu
    · exact ⟨hu, .inl rfl⟩
  | sendClose d =>
    obtain ⟨hu', hs⟩ := step_sendClose_cases h
    -- the close packet is queued, or the user panics on a closed channel
    rcases sendWriterCh_cases hs with ⟨-, rfl, rfl⟩ | ⟨-, -, rfl, rfl⟩
    · exact ⟨by simp, .inr (by simp [workLeft, hu', UserPc.rank])⟩
    · exact ⟨by simp, .inr (by simp [workLeft, hu', UserPc.rank])⟩
  | sendReadQuit =>
    obtain ⟨hu', -, rfl, rfl⟩ := step_sendReadQuit_cases h
    exact ⟨by simp, .inr (by simp [workLeft, hu', UserPc.rank])⟩
  | recvWriteQuit =>
    obtain ⟨hu', -, rfl, rfl⟩ := step_recvWriteQuit_cases h
    exact ⟨by simp, .inr (by simp [workLeft, hu', UserPc.rank])⟩
  | readData d =>
    obtain ⟨hr, rfl, rfl⟩ := step_readData_cases h
    exact ⟨hu, .inr (by simp [workLeft, hr, ReaderPc.rank])⟩
  | readTimeout =>
    obtain ⟨hr, ⟨-, rfl⟩ | ⟨-, rfl⟩, rfl⟩ := step_readTimeout_cases h
    · exact ⟨hu, .inr (by simp [workLeft, hr, ReaderPc.rank])⟩
    · -- the `default` case of the `select`: nothing changes
      exact ⟨hu, .inl rfl⟩
  | readError =>
    obtain ⟨hr, rfl, rfl⟩ := step_readError_cases h
    exact ⟨hu, .inr (by simp [workLeft, hr, ReaderPc.rank])⟩
  | takeQuit =>
    obtain ⟨⟨d, hr⟩, -, rfl, rfl⟩ := step_takeQuit_cases h
    exact ⟨hu, .inr (by simp [workLeft, hr, ReaderPc.rank])⟩
  | closeWriterCh =>
    obtain ⟨hr, rfl, rfl⟩ := step_closeWriterCh_cases h
    exact ⟨hu, .inr (by simp [workLeft, hr, ReaderPc.rank])⟩
  | write =>
    obtain ⟨d, rest, -, hc, rfl, rfl⟩ := step_write_cases h
    exact ⟨hu, .inr (by simp [workLeft, hc])⟩
  | closeSock =>
    obtain ⟨hw, -, -, rfl, rfl⟩ := step_closeSock_cases h
    exact ⟨hu, .inr (by simp [workLeft, hw, WriterPc.rank])⟩
  | sendWriteQuit =>
    obtain ⟨hw, -, rfl, rfl⟩ := step_sendWriteQuit_cases h
    exact ⟨hu, .inr (by simp [workLeft, hw, WriterPc.rank])⟩

/-- Once the user has called `Close`, no interleaving of the goroutines changes the state for
ever: along every run the state stays as it is or the work left falls, so a run changes the state
at most `workLeft` times. -/
theorem run_eq_or_workLeft_lt (hu : c.user ≠ .running) {ls : List ConnLabel}
    {tr : List ConnEvent} (h : system.run c ls = some (c', tr)) :
    c' = c ∨ c'.workLeft < c.workLeft :=
  Lts.run_eq_or_lt (I := fun c : Conn => c.user ≠ .running) workLeft
    (fun _ _ _ _ hu hs => step_workLeft hu hs) hu h

/-- The rest of a `Close`, from the state it leaves the user in, lowers the work left. -/
theorem run_eq_or_workLeft_lt_on_close :
    let c : Conn := ⟨.sendClose, .reading, .draining, 0, [⟨none, [1], 1⟩], false, 0, false⟩
    ∃ c' tr, system.run c [.sendClose ⟨none, [2], 1⟩, .sendReadQuit, .readTimeout, .closeWriterCh,
        .write, .write, .closeSock, .sendWriteQuit, .recvWriteQuit] = some (c', tr) ∧
      c'.user = .done ∧ (c' = c ∨ c'.workLeft < c.workLeft) := by
  intro c
  have hrun : (system.run c [.sendClose ⟨none, [2], 1⟩, .sendReadQuit, .readTimeout,
      .closeWriterCh, .write, .write, .closeSock, .sendWriteQuit, .recvWriteQuit]).map
      (fun r => r.1.user) = some .done := by
    decide +kernel
  obtain ⟨⟨c', tr⟩, hr, hu⟩ := Option.map_eq_some_iff.mp hrun
  exact ⟨c', tr, hr, hu, run_eq_or_workLeft_lt (by decide) hr⟩

end Conn

end GoQuic
