import Mathlib
import GoQuic.Trace.Reach

/-!
# The packet writers

libquic writes packets through a `QuicPacketWriter`. The server's `GoQuicServerPacketWriter`
(`go_quic_server_packet_writer.cc`) and the client's `GoQuicClientPacketWriter`
(`go_quic_client_packet_writer.cc`) share one `WritePacket`: a packet of at most `INT_MAX` bytes
goes to Go through `WriteToUDP_C` or `WriteToUDPClient_C`, a larger one is refused with
`ERR_MSG_TOO_BIG`, and only `ERR_IO_PENDING` would block the writer. On the Go side `writeToUDP`
(`writer.go:33–46`) copies the packet with `C.GoBytes(buffer_c, C.int(length_c))` and sends it on
the writer's channel, which a goroutine drains to the socket (`server.go:153–157`). Each server
connection writes through a `GoQuicPerConnectionPacketWriter`
(`go_quic_per_connection_packet_writer.cc`), which passes its `OnWriteComplete` as the callback of
`WritePacketWithCallback`.

No code path yields `ERR_IO_PENDING`, so on every run the shared server writer is never blocked
and holds no callback, every write passes both `DCHECK`s of the writer, and a write sends exactly
the whole packet with `N` its length when it fits in an `int`, and nothing otherwise
(`write_eq`). The `C.int` conversion never cuts a packet, since only lengths up to `INT_MAX`
reach it. No connection is ever told of a write error through the callback (`never_blocked`).
-/

namespace GoQuic

/-- The codes of `net/base/net_error_list.h` that the writers use, as libquic defines them. -/
structure NetErrors where
  ERR_IO_PENDING : Int
  ERR_MSG_TOO_BIG : Int
  msgTooBig_neg : ERR_MSG_TOO_BIG < 0
  msgTooBig_ne : ERR_MSG_TOO_BIG ≠ ERR_IO_PENDING

/-- `std::numeric_limits<int>::max()`. -/
def INT_MAX : Nat := 2 ^ 31 - 1

/-- `WriteStatus`. -/
inductive WriteStatus
  | ok
  | blocked
  | error
  deriving DecidableEq, Repr

/-- `WriteResult(status, rv)`: the bytes written, or the error code. -/
structure WriteResult where
  status : WriteStatus
  rv : Int
  deriving DecidableEq, Repr

/-- `IPAddress`: no bytes, or an IPv4 or IPv6 address. -/
structure IPAddress where
  bytes : List UInt8
  size_le : bytes.length ≤ 16

/-- `UdpData` (`writer.go:11–15`): the peer's IP and port for the server, `nil` for the client. -/
structure UdpData where
  addr : Option (List UInt8 × Nat)
  buf : List UInt8
  n : Int64
  deriving DecidableEq, Repr

/-- `C.GoBytes(p, n)` over a C buffer that holds `bytes`: a Go copy of the first `n`; Go panics on
a negative `n`. -/
def GoBytes (bytes : List UInt8) (n : Int32) : Option (List UInt8) :=
  if n.toInt < 0 then none else some (bytes.take n.toInt.toNat)

/-- `writeToUDP` (`writer.go:33–46`) up to the channel send: what it sends. `length_c` is the
`size_t` length of `buffer`, and `C.int` keeps its low 32 bits. -/
def writeToUDP (peerIp : IPAddress) (peerPort : UInt16) (buffer : List UInt8) (isServer : Bool) :
    Option UdpData := do
  let buf ← GoBytes buffer (Int32.ofNat buffer.length)
  if isServer then
    let ip ← GoBytes peerIp.bytes (Int32.ofNat peerIp.bytes.length)
    pure ⟨some (ip, peerPort.toNat), buf, Int64.ofNat buffer.length⟩
  else
    pure ⟨none, buf, Int64.ofNat buffer.length⟩

section Writers

variable (e : NetErrors)

/-- The `WritePacket` of both writers (`go_quic_server_packet_writer.cc:71–100`,
`go_quic_client_packet_writer.cc:21–47`), through `WriteToUDP_C` when `isServer` and
`WriteToUDPClient_C` otherwise: the new `write_blocked_`, the result, and what Go sent. A failed
`DCHECK` is `none`. -/
def writePacket (isServer writeBlocked : Bool) (buffer : List UInt8) (peerIp : IPAddress)
    (peerPort : UInt16) : Option (Bool × WriteResult × List UdpData) :=
  -- `DCHECK(!IsWriteBlocked())`
  if writeBlocked then none
  else do
    let (rv, sent) ← if buffer.length ≤ INT_MAX then
        (writeToUDP peerIp peerPort buffer isServer).map fun d => ((buffer.length : Int), [d])
      else some (e.ERR_MSG_TOO_BIG, [])
    if rv < 0 then
      if rv ≠ e.ERR_IO_PENDING then some (writeBlocked, ⟨.error, rv⟩, sent)
      else some (true, ⟨.blocked, rv⟩, sent)
    else some (writeBlocked, ⟨.ok, rv⟩, sent)

/-- `GoQuicServerPacketWriter`: `write_blocked_`, and `callback_` as the connection whose
per-connection writer it calls back. -/
structure GoQuicServerPacketWriter where
  writeBlocked : Bool
  callback : Option Nat
  deriving DecidableEq, Repr

/-- `GoQuicClientPacketWriter`: `write_blocked_`. -/
structure GoQuicClientPacketWriter where
  writeBlocked : Bool
  deriving DecidableEq, Repr

/-- What the server writer and its connections report. -/
inductive WriterEvent
  /-- `Ch <- UdpData{...}` in `writeToUDP`. -/
  | sent (d : UdpData)
  /-- `WritePacket` returns `result` to connection `conn`. -/
  | returned (conn : Nat) (result : WriteResult)
  /-- `connection_->OnWriteError(code)`. -/
  | writeError (conn : Nat) (code : Int)
  /-- `blocked_writer_->OnCanWrite()`. -/
  | canWrite
  deriving DecidableEq, Repr

/-- `GoQuicClientPacketWriter::WritePacket`. -/
def GoQuicClientPacketWriter.WritePacket (w : GoQuicClientPacketWriter) (buffer : List UInt8)
    (peerIp : IPAddress) (peerPort : UInt16) :
    Option (GoQuicClientPacketWriter × WriteResult × List UdpData) :=
  (writePacket e false w.writeBlocked buffer peerIp peerPort).map fun r => (⟨r.1⟩, r.2)

namespace GoQuicServerPacketWriter

/-- `WritePacket`. -/
def WritePacket (w : GoQuicServerPacketWriter) (buffer : List UInt8) (peerIp : IPAddress)
    (peerPort : UInt16) : Option (GoQuicServerPacketWriter × WriteResult × List UdpData) :=
  (writePacket e true w.writeBlocked buffer peerIp peerPort).map fun r =>
    ({ w with writeBlocked := r.1 }, r.2)

/-- `WritePacketWithCallback` (`go_quic_server_packet_writer.cc:31–46`): the callback is kept
only while the write is blocked. -/
def WritePacketWithCallback (w : GoQuicServerPacketWriter) (buffer : List UInt8)
    (peerIp : IPAddress) (peerPort : UInt16) (callback : Nat) :
    Option (GoQuicServerPacketWriter × WriteResult × List UdpData) :=
  -- `DCHECK(callback_.is_null())`
  if w.callback.isSome then none
  else
    ({ w with callback := some callback }.WritePacket e buffer peerIp peerPort).map
      fun (r : GoQuicServerPacketWriter × WriteResult × List UdpData) =>
        (if r.2.1.status ≠ WriteStatus.blocked then { r.1 with callback := none } else r.1, r.2)

/-- `GoQuicPerConnectionPacketWriter::OnWriteComplete` (`go_quic_per_connection_packet_writer.cc:
48–52`) of connection `conn`. -/
def perConnectionOnWriteComplete (conn : Nat) (result : WriteResult) : List WriterEvent :=
  if result.status = .error then [.writeError conn result.rv] else []

/-- `OnWriteComplete` (`go_quic_server_packet_writer.cc:48–56`), which Go may call through
`packet_writer_on_write_complete`. -/
def OnWriteComplete (w : GoQuicServerPacketWriter) (rv : Int) :
    Option (GoQuicServerPacketWriter × List WriterEvent) :=
  -- `DCHECK_NE(rv, ERR_IO_PENDING)`
  if rv = e.ERR_IO_PENDING then none
  else
    let w := { w with writeBlocked := false }
    let result : WriteResult := ⟨if rv < 0 then .error else .ok, rv⟩
    match w.callback with
    | some conn =>
      some ({ w with callback := none }, perConnectionOnWriteComplete conn result ++ [.canWrite])
    | none => some (w, [.canWrite])

/-- `SetWritable`. -/
def SetWritable (w : GoQuicServerPacketWriter) : GoQuicServerPacketWriter :=
  { w with writeBlocked := false }

end GoQuicServerPacketWriter

/-- A call on the server writer. -/
inductive WriterLabel
  /-- Connection `conn` writes through its `GoQuicPerConnectionPacketWriter`. -/
  | write (conn : Nat) (buffer : List UInt8) (peerIp : IPAddress) (peerPort : UInt16)
  /-- `SetWritable`, from `GoQuicDispatcher::OnCanWrite`. -/
  | setWritable
  /-- `packet_writer_on_write_complete` (`adaptor.cc:298–300`). -/
  | onWriteComplete (rv : Int)

open GoQuicServerPacketWriter in
/-- One call on the server writer. `GoQuicPerConnectionPacketWriter::WritePacket` passes its own
`OnWriteComplete` as the callback. -/
def writerStep (w : GoQuicServerPacketWriter) :
    WriterLabel → Option (GoQuicServerPacketWriter × List WriterEvent)
  | .write conn buffer peerIp peerPort =>
    (w.WritePacketWithCallback e buffer peerIp peerPort conn).map fun r =>
      (r.1, r.2.2.map .sent ++ [.returned conn r.2.1])
  | .setWritable => some (w.SetWritable, [])
  | .onWriteComplete rv => w.OnWriteComplete e rv

/-- The server writer from its construction, under any calls. -/
def writerSystem : Lts GoQuicServerPacketWriter WriterLabel WriterEvent :=
  ⟨⟨false, none⟩, writerStep e⟩

/-! ### One write -/

/-- `C.GoBytes` of a length through `C.int`: the low 32 bits are read as a signed `int`, so Go
panics when they reach `2^31` and copies a prefix cut to them otherwise. -/
theorem GoBytes_ofNat (bytes : List UInt8) (n : Nat) :
    GoBytes bytes (Int32.ofNat n) =
      if n % 2 ^ 32 < 2 ^ 31 then some (bytes.take (n % 2 ^ 32)) else none := by
  have hv : (Int32.ofNat n).toInt = if n % 2 ^ 32 < 2 ^ 31 then ((n % 2 ^ 32 : Nat) : Int)
      else ((n % 2 ^ 32 : Nat) : Int) - 2 ^ 32 := by
    rw [Int32.toInt_ofNat']
    simp only [Int.bmod, Int32.size]
    split_ifs <;> omega
  by_cases h : n % 2 ^ 32 < 2 ^ 31
  · rw [GoBytes, hv, if_pos h, if_pos h, if_neg (by omega), Int.toNat_natCast]
  · rw [GoBytes, hv, if_neg h, if_neg h, if_pos (by omega)]

/-- A `C.int` of a length up to `INT_MAX` is that length, so `C.GoBytes` copies the whole buffer. -/
theorem GoBytes_length {bytes : List UInt8} (h : bytes.length ≤ INT_MAX) :
    GoBytes bytes (Int32.ofNat bytes.length) = some bytes := by
  have hlt : bytes.length < 2 ^ 31 := by
    simp only [INT_MAX] at h
    omega
  rw [GoBytes_ofNat, Nat.mod_eq_of_lt (by omega), if_pos hlt, List.take_length]

/-- The datagram `writeToUDP` sends for a packet that fits: the whole packet, with its length. -/
theorem writeToUDP_eq {buffer : List UInt8} (h : buffer.length ≤ INT_MAX) (peerIp : IPAddress)
    (peerPort : UInt16) (isServer : Bool) :
    writeToUDP peerIp peerPort buffer isServer =
      some ⟨if isServer then some (peerIp.bytes, peerPort.toNat) else none, buffer,
        Int64.ofNat buffer.length⟩ := by
  have hip : peerIp.bytes.length ≤ INT_MAX := by
    have := peerIp.size_le
    simp only [INT_MAX]
    omega
  cases isServer <;> simp [writeToUDP, GoBytes_length h, GoBytes_length hip]

/-- What either writer does when not blocked: a packet that fits goes out whole and `rv` is its
length; a larger one is refused with `ERR_MSG_TOO_BIG`; the writer stays unblocked. -/
theorem writePacket_eq (isServer : Bool) (buffer : List UInt8) (peerIp : IPAddress)
    (peerPort : UInt16) :
    writePacket e isServer false buffer peerIp peerPort =
      if buffer.length ≤ INT_MAX then
        some (false, ⟨.ok, buffer.length⟩,
          [⟨if isServer then some (peerIp.bytes, peerPort.toNat) else none, buffer,
            Int64.ofNat buffer.length⟩])
      else some (false, ⟨.error, e.ERR_MSG_TOO_BIG⟩, []) := by
  unfold writePacket
  rw [if_neg Bool.false_ne_true]
  split
  · next h =>
    -- the length is no error code
    have hnn : ¬(buffer.length : Int) < 0 := by omega
    simp [writeToUDP_eq h, hnn]
  · simp [e.msgTooBig_neg, e.msgTooBig_ne]

/-! ### Every run -/

/-- A connection's write on the unblocked server writer: the datagram when the packet fits, then
the result; the writer is left as it was. -/
theorem writerStep_write (conn : Nat) (buffer : List UInt8) (peerIp : IPAddress)
    (peerPort : UInt16) :
    writerStep e ⟨false, none⟩ (.write conn buffer peerIp peerPort) =
      some (⟨false, none⟩,
        if buffer.length ≤ INT_MAX then
          [.sent ⟨some (peerIp.bytes, peerPort.toNat), buffer, Int64.ofNat buffer.length⟩,
            .returned conn ⟨.ok, buffer.length⟩]
        else [.returned conn ⟨.error, e.ERR_MSG_TOO_BIG⟩]) := by
  simp only [writerStep, GoQuicServerPacketWriter.WritePacketWithCallback,
    GoQuicServerPacketWriter.WritePacket, Option.isSome_none, Bool.false_eq_true, if_false,
    writePacket_eq]
  split <;> simp

/-- Every call keeps the server writer unblocked and without a callback, and tells no connection
of a write error. -/
theorem writerStep_unblocked {l : WriterLabel} {w : GoQuicServerPacketWriter}
    {evs : List WriterEvent} (h : writerStep e ⟨false, none⟩ l = some (w, evs)) :
    w = ⟨false, none⟩ ∧ ∀ conn code, WriterEvent.writeError conn code ∉ evs := by
  cases l with
  | write conn buffer peerIp peerPort =>
    rw [writerStep_write] at h
    obtain ⟨rfl, rfl⟩ := Prod.mk.inj (Option.some.inj h)
    refine ⟨rfl, fun conn' code hm => ?_⟩
    split at hm <;> simp at hm
  | setWritable =>
    obtain ⟨rfl, rfl⟩ := Prod.mk.inj (Option.some.inj h)
    exact ⟨rfl, by simp⟩
  | onWriteComplete rv =>
    -- with no callback held, a completion only reports that the writer can write
    simp only [writerStep, GoQuicServerPacketWriter.OnWriteComplete] at h
    split at h
    · cases h
    · obtain ⟨rfl, rfl⟩ := Prod.mk.inj (Option.some.inj h)
      exact ⟨rfl, by simp⟩

/-- On every run the server writer is unblocked and holds no callback, and no connection has been
told of a write error. -/
theorem never_blocked {w : GoQuicServerPacketWriter} {tr : List WriterEvent}
    (h : (writerSystem e).Reach w tr) :
    w = ⟨false, none⟩ ∧ ∀ conn code, WriterEvent.writeError conn code ∉ tr := by
  refine h.induction_on (P := fun w tr => w = ⟨false, none⟩ ∧
    ∀ conn code, WriterEvent.writeError conn code ∉ tr) ⟨rfl, by simp⟩ ?_
  rintro w tr l w' evs - ⟨rfl, hno⟩ hs
  obtain ⟨rfl, hevs⟩ := writerStep_unblocked e hs
  exact ⟨rfl, fun conn code hm => (List.mem_append.mp hm).elim (hno conn code) (hevs conn code)⟩

/-- On every run, every write passes the writer's `DCHECK`s and sends exactly the whole packet,
with its length, when it fits in an `int`, and nothing otherwise. -/
theorem write_eq {w : GoQuicServerPacketWriter} {tr : List WriterEvent}
    (h : (writerSystem e).Reach w tr) (conn : Nat) (buffer : List UInt8) (peerIp : IPAddress)
    (peerPort : UInt16) :
    (writerSystem e).step w (.write conn buffer peerIp peerPort) =
      some (w, if buffer.length ≤ INT_MAX then
          [.sent ⟨some (peerIp.bytes, peerPort.toNat), buffer, Int64.ofNat buffer.length⟩,
            .returned conn ⟨.ok, buffer.length⟩]
        else [.returned conn ⟨.error, e.ERR_MSG_TOO_BIG⟩]) := by
  obtain ⟨rfl, -⟩ := never_blocked e h
  exact writerStep_write e conn buffer peerIp peerPort

/-- After one connection's write, another connection's three-byte packet goes out whole. -/
theorem write_eq_after_write :
    let e : NetErrors := ⟨-1, -142, by decide, by decide⟩
    ∃ w tr, (writerSystem e).run (writerSystem e).init
        [.write 0 [1, 2] ⟨[127, 0, 0, 1], by decide⟩ 443] = some (w, tr) ∧
      (writerSystem e).step w (.write 1 [1, 2, 3] ⟨[127, 0, 0, 1], by decide⟩ 443) =
        some (w, [.sent ⟨some ([127, 0, 0, 1], 443), [1, 2, 3], 3⟩,
          .returned 1 ⟨.ok, 3⟩]) := by
  intro e
  have hrun : ((writerSystem e).run (writerSystem e).init
      [.write 0 [1, 2] ⟨[127, 0, 0, 1], by decide⟩ 443]).isSome = true := by
    decide +kernel
  obtain ⟨⟨w, tr⟩, hr⟩ := Option.isSome_iff_exists.mp hrun
  refine ⟨w, tr, hr, ?_⟩
  rw [write_eq e (Lts.Reach.of_run hr)]
  simp [INT_MAX]

end Writers

end GoQuic
