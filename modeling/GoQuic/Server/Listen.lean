import Mathlib
import GoQuic.Server.Dispatcher

/-!
# The readers of `ListenAndServe`

`ListenAndServe` (`server.go:58–166`) runs `numOfServers` readers on one socket each. A reader's
loop (`readFunc`, `server.go:110–150`) takes a buffer from `srv.bufpool` (`bufferpool.go`), reads
a datagram into it, and routes it by the connection ID it carries: with `0x8` in the public
flags the ID is the little-endian `uint64` of bytes 1 to 8 and the datagram goes to the channel
of dispatcher `connId % numOfServers`; without it the datagram goes to dispatcher 0; an empty
datagram, or one too short for its ID, is dropped.

A Go slice is a reference: the pool's channel, the readers and the dispatchers' channels pass
the same buffers around, so the buffers are ids into a `Heap` of byte slices. The router reads
no byte past the datagram (`parseConnId_take`), and the framer of libquic, which is not
vendored, is assumed to read the same eight bytes for the connection ID (`Framer`); so a packet
the framer gives a full connection ID went to that ID's dispatcher (`Framer.route_eq`).
-/

namespace GoQuic

/-! ### Byte slices and the buffer pool -/

/-- The byte slices the server allocates, by id: slice `b` holds `mem b`, and `next` is the id
`make` gives next. -/
structure Heap where
  mem : Nat → List UInt8
  next : Nat

namespace Heap

variable {h : Heap} {b b' n : Nat} {bytes : List UInt8}

def empty : Heap := ⟨fun _ => [], 0⟩

/-- `make([]byte, n)`: a new slice of `n` zero bytes. -/
def make (h : Heap) (n : Nat) : Nat × Heap :=
  (h.next, ⟨Function.update h.mem h.next (List.replicate n 0), h.next + 1⟩)

/-- Bytes written over slice `b`. -/
def write (h : Heap) (b : Nat) (bytes : List UInt8) : Heap :=
  { h with mem := Function.update h.mem b bytes }

@[simp] theorem make_fst : (h.make n).1 = h.next := rfl

@[simp] theorem make_next : (h.make n).2.next = h.next + 1 := rfl

theorem make_mem_of_ne (hb : b ≠ h.next) : (h.make n).2.mem b = h.mem b :=
  Function.update_of_ne hb _ _

@[simp] theorem make_mem_self : (h.make n).2.mem h.next = List.replicate n 0 :=
  Function.update_self _ _ _

@[simp] theorem write_next : (h.write b bytes).next = h.next := rfl

@[simp] theorem write_mem_self : (h.write b bytes).mem b = bytes := Function.update_self _ _ _

theorem write_mem_of_ne (hb : b' ≠ b) : (h.write b bytes).mem b' = h.mem b' :=
  Function.update_of_ne hb _ _

end Heap

/-- `BytesBufferPool` (`bufferpool.go:3–7`): the buffers waiting in the channel `c`, which holds
`poolsize`, and the size of a new buffer. -/
structure BytesBufferPool where
  c : List Nat
  poolsize : Nat
  bufsize : Nat
  deriving DecidableEq, Repr

namespace BytesBufferPool

/-- `NewBytesBufferPool`. -/
def NewBytesBufferPool (poolsize bufsize : Nat) : BytesBufferPool := ⟨[], poolsize, bufsize⟩

/-- `Get`: the buffer that waited longest, or a new one of `bufsize` bytes. -/
def Get (bp : BytesBufferPool) (h : Heap) : Nat × BytesBufferPool × Heap :=
  match bp.c with
  | b :: rest => (b, { bp with c := rest }, h)
  | [] => ((h.make bp.bufsize).1, bp, (h.make bp.bufsize).2)

/-- `Put`: the buffer waits, unless the pool is full and it is discarded. -/
def Put (bp : BytesBufferPool) (b : Nat) : BytesBufferPool :=
  if bp.c.length < bp.poolsize then { bp with c := bp.c ++ [b] } else bp

variable {bp bp' : BytesBufferPool} {h h' : Heap} {b : Nat}

/-- What `Get` does: it takes the first waiting buffer, or makes one. -/
theorem Get_cases (hg : bp.Get h = (b, bp', h')) :
    (∃ rest, bp.c = b :: rest ∧ bp' = { bp with c := rest } ∧ h' = h) ∨
      (bp.c = [] ∧ b = h.next ∧ bp' = bp ∧ h' = (h.make bp.bufsize).2) := by
  unfold Get at hg
  split at hg
  · next b₀ rest hc =>
    obtain ⟨rfl, rfl, rfl⟩ := hg
    exact .inl ⟨rest, hc, rfl, rfl⟩
  · next hc =>
    obtain ⟨rfl, rfl, rfl⟩ := hg
    exact .inr ⟨hc, rfl, rfl, rfl⟩

@[simp] theorem Get_poolsize : (bp.Get h).2.1.poolsize = bp.poolsize := by
  unfold Get
  split <;> rfl

@[simp] theorem Get_bufsize : (bp.Get h).2.1.bufsize = bp.bufsize := by
  unfold Get
  split <;> rfl

@[simp] theorem Put_poolsize : (bp.Put b).poolsize = bp.poolsize := by
  unfold Put
  split <;> rfl

@[simp] theorem Put_bufsize : (bp.Put b).bufsize = bp.bufsize := by
  unfold Put
  split <;> rfl

theorem Put_c : (bp.Put b).c = bp.c ++ [b] ∨ (bp.Put b).c = bp.c := by
  unfold Put
  split
  · exact .inl rfl
  · exact .inr rfl

end BytesBufferPool

/-! ### Reading and routing -/

/-- A peer's `*net.UDPAddr`. -/
structure UDPAddr where
  IP : List UInt8
  Port : Nat
  deriving DecidableEq, Repr

/-- `conn.ReadFromUDP(buf)` of the datagram `dgram`: as many bytes as fit, over the start of
`buf`, and how many. -/
def ReadFromUDP (buf dgram : List UInt8) : List UInt8 × Nat :=
  let n := min dgram.length buf.length
  (dgram.take n ++ buf.drop n, n)

theorem ReadFromUDP_length (buf dgram : List UInt8) : (ReadFromUDP buf dgram).1.length = buf.length := by
  simp only [ReadFromUDP, List.length_append, List.length_take, List.length_drop]
  omega

theorem ReadFromUDP_le (buf dgram : List UInt8) : (ReadFromUDP buf dgram).2 ≤ buf.length :=
  Nat.min_le_right _ _

/-- The bytes read are the datagram's, as many as the buffer holds. -/
theorem ReadFromUDP_take (buf dgram : List UInt8) :
    (ReadFromUDP buf dgram).1.take (ReadFromUDP buf dgram).2 = dgram.take buf.length := by
  simp only [ReadFromUDP]
  rw [List.take_append_of_le_length (by simp), List.take_take, Nat.min_self]
  rcases Nat.le_total dgram.length buf.length with hle | hle
  · rw [Nat.min_eq_left hle, List.take_of_length_le (Nat.le_refl _), List.take_of_length_le hle]
  · rw [Nat.min_eq_right hle]

/-- `binary.LittleEndian.Uint64(b)`; Go panics on fewer than eight bytes. -/
def LittleEndian.Uint64 (b : List UInt8) : Option UInt64 :=
  match b with
  | b0 :: b1 :: b2 :: b3 :: b4 :: b5 :: b6 :: b7 :: _ =>
    some (b0.toUInt64 ||| b1.toUInt64 <<< 8 ||| b2.toUInt64 <<< 16 ||| b3.toUInt64 <<< 24 |||
      b4.toUInt64 <<< 32 ||| b5.toUInt64 <<< 40 ||| b6.toUInt64 <<< 48 ||| b7.toUInt64 <<< 56)
  | _ => none

theorem LittleEndian.length_le_of_Uint64 {b : List UInt8} {v : UInt64}
    (h : LittleEndian.Uint64 b = some v) : 8 ≤ b.length := by
  unfold LittleEndian.Uint64 at h
  split at h
  · simp
  · cases h

/-- The connection ID `readFunc` reads from `buf` after a read of `n > 0` bytes
(`server.go:124–145`); `none` when it goes on to the next datagram. -/
def parseConnId (buf : List UInt8) (n : Nat) : Option UInt64 :=
  match buf with
  | [] => none
  | b0 :: rest =>
    if b0 &&& 0x8 = 0x8 then
      -- an 8-byte connection ID, when the datagram holds it: `buf[1:9]`
      if 9 ≤ n then LittleEndian.Uint64 (rest.take 8) else none
    -- the connection ID is omitted
    else some 0

/-- The router reads no byte of `buf` past the `n > 0` it read. -/
theorem parseConnId_take (buf : List UInt8) {n : Nat} (hn : 0 < n) :
    parseConnId (buf.take n) n = parseConnId buf n := by
  obtain ⟨m, rfl⟩ := Nat.exists_eq_add_one_of_ne_zero (Nat.pos_iff_ne_zero.mp hn)
  cases buf with
  | nil => rfl
  | cons b0 rest =>
    simp only [List.take_succ_cons, parseConnId]
    split
    · split
      · -- the eight bytes of the ID lie within the datagram
        next h9 => rw [List.take_take, Nat.min_eq_left (by omega : 8 ≤ m)]
      · rfl
    · rfl

/-- `srv.numOfServers` of a server that `ListenAndServe` runs: positive, or
`connArray[srv.numOfServers-1]` panics, and an `int`. -/
structure NumOfServers where
  n : Nat
  pos : 0 < n
  lt : n < 2 ^ 63

theorem NumOfServers.toNat_mod_lt (N : NumOfServers) (connId : UInt64) :
    (connId % UInt64.ofNat N.n).toNat < N.n := by
  have hN : N.n < 2 ^ 64 := by have := N.lt; omega
  rw [UInt64.toNat_mod, UInt64.toNat_ofNat', Nat.mod_eq_of_lt hN]
  exact Nat.mod_lt _ N.pos

/-- The dispatcher of a datagram with connection ID `connId`: the index
`connId % uint64(srv.numOfServers)` into `readChanArray`. -/
def route (N : NumOfServers) (connId : UInt64) : Fin N.n :=
  ⟨(connId % UInt64.ofNat N.n).toNat, N.toNat_mod_lt connId⟩

theorem route_val (N : NumOfServers) (connId : UInt64) :
    (route N connId).val = connId.toNat % N.n := by
  have hN : N.n < 2 ^ 64 := by have := N.lt; omega
  show (connId % UInt64.ofNat N.n).toNat = _
  rw [UInt64.toNat_mod, UInt64.toNat_ofNat', Nat.mod_eq_of_lt hN]

/-- `UdpData{Addr: peer_addr, Buf: buf, N: n}` as a reader sends it (`server.go:147`): `Buf` is a
buffer of the pool, by id. -/
structure ReadUdpData where
  Addr : UDPAddr
  Buf : Nat
  N : Nat
  deriving DecidableEq, Repr

/-- `Buf[:N]` of a `UdpData`. -/
def Heap.slice (h : Heap) (d : ReadUdpData) : List UInt8 := (h.mem d.Buf).take d.N

/-- One turn of `readFunc`'s loop (`server.go:111–147`) up to the channel send: the pool and
slices after it, and the `UdpData` with the dispatcher it goes to, or `none` when the loop goes
on to the next datagram. A failed read panics, so the datagram is what the socket returns. -/
def readFunc (N : NumOfServers) (bp : BytesBufferPool) (h : Heap) (peer : UDPAddr)
    (dgram : List UInt8) : BytesBufferPool × Heap × Option (ReadUdpData × Fin N.n) :=
  let (buf, bp, h) := bp.Get h
  let (bytes, n) := ReadFromUDP (h.mem buf) dgram
  let h := h.write buf bytes
  -- `if n == 0 { continue }`
  if n = 0 then (bp, h, none)
  else
    match parseConnId bytes n with
    | none => (bp, h, none)
    | some connId => (bp, h, some (⟨peer, buf, n⟩, route N connId))

/-- What a turn of `readFunc` does: it gets a buffer and reads the datagram over it, and it sends
`Buf[:n]` only if `n > 0` and a connection ID parses, to the dispatcher that ID routes to. -/
theorem readFunc_spec {N : NumOfServers} {bp bp' : BytesBufferPool} {h h' : Heap} {peer : UDPAddr}
    {dgram : List UInt8} {o : Option (ReadUdpData × Fin N.n)}
    (hr : readFunc N bp h peer dgram = (bp', h', o)) :
    ∃ b h₁, bp.Get h = (b, bp', h₁) ∧ h' = h₁.write b (ReadFromUDP (h₁.mem b) dgram).1 ∧
      ∀ d i, o = some (d, i) →
        d = ⟨peer, b, (ReadFromUDP (h₁.mem b) dgram).2⟩ ∧ 0 < d.N ∧
        ∃ connId, parseConnId (h'.mem b) d.N = some connId ∧ route N connId = i := by
  rcases hg : bp.Get h with ⟨b, bp₁, h₁⟩
  simp only [readFunc, hg] at hr
  refine ⟨b, h₁, ?_⟩
  split at hr
  · obtain ⟨rfl, rfl, rfl⟩ := hr
    exact ⟨rfl, rfl, fun d i ho => nomatch ho⟩
  · next hn =>
    split at hr
    · obtain ⟨rfl, rfl, rfl⟩ := hr
      exact ⟨rfl, rfl, fun d i ho => nomatch ho⟩
    · next connId hp =>
      obtain ⟨rfl, rfl, rfl⟩ := hr
      refine ⟨rfl, rfl, fun d i ho => ?_⟩
      obtain ⟨rfl, rfl⟩ := Prod.mk.inj (Option.some.inj ho)
      exact ⟨rfl, Nat.pos_of_ne_zero hn, connId, by rw [Heap.write_mem_self]; exact hp, rfl⟩

/-! ### The framer -/

/-- What the server assumes of libquic's `QuicFramer`: the packet it parses from the bytes of a
datagram, where a packet with an 8-byte connection ID has `0x8` in its public flags and the
little-endian value of bytes 1 to 8 for its ID, as `readFunc` reads it. A datagram whose public
header does not parse is one without a full connection ID. -/
structure Framer where
  parse : List UInt8 → Packet
  full : ∀ bytes, (parse bytes).fullConnectionId = true →
    ∃ b0 rest id, bytes = b0 :: rest ∧ b0 &&& 0x8 = 0x8 ∧
      LittleEndian.Uint64 (rest.take 8) = some id ∧ (parse bytes).connectionId = id.toNat

/-- The packet the dispatcher sees for `bytes` from `peer`: `current_client_address_.port()` is
the `uint16_t` that `CreateIPEndPoint` passes (`dispatcher.go:41–51`). -/
def Framer.packet (framer : Framer) (peer : UDPAddr) (bytes : List UInt8) : Packet :=
  { framer.parse bytes with clientPortZero := UInt16.ofNat peer.Port == 0 }

/-- A datagram the framer reads a full connection ID from went to that ID's dispatcher. -/
theorem Framer.route_eq (framer : Framer) (N : NumOfServers) {buf : List UInt8} {n : Nat}
    {connId : UInt64} (hp : parseConnId buf n = some connId) (peer : UDPAddr) {c : Nat}
    (hc : c ∈ (framer.packet peer (buf.take n)).ids) : c % N.n = (route N connId).val := by
  obtain ⟨hfull, rfl⟩ := hc
  obtain ⟨b0, rest, id, hbytes, hflag, hid, hc⟩ := framer.full _ hfull
  -- the eight bytes of the ID lie within the datagram, so the router reads them too
  have hn : 9 ≤ n := by
    have h8 := LittleEndian.length_le_of_Uint64 hid
    have hlen := congrArg List.length hbytes
    simp only [List.length_take, List.length_cons] at hlen h8
    omega
  rw [← parseConnId_take buf (by omega), hbytes] at hp
  simp only [parseConnId, hflag, if_true, hn, hid, Option.some.injEq] at hp
  rw [Framer.packet, hc, ← hp, route_val]

end GoQuic
