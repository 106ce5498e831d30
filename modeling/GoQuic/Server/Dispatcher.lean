import GoQuic.Trace.Reach
import Mathlib.Data.List.Basic
import Mathlib.Data.Set.Insert

/-!
# The dispatcher's sessions, time-wait list and buffered packets

`GoQuicDispatcher` (`go_quic_dispatcher.cc`) routes each packet by its connection ID: to the
session in `session_map_`, to the time-wait list, into `buffered_packets_` until a CHLO arrives,
or to a new session. The model keeps the three sets of connection IDs, the count of closed
sessions, and `new_sessions_allowed_per_event_loop_`. A packet is what the framer parses from it;
the outcomes of the stateless rejector and of the packet store's `EnqueuePacket` are part of the
label, so every outcome is covered. libquic's flags are a parameter.

On every run and for every setting of the flags, no session's connection ID has buffered packets
(`sessions_unbuffered`), and `CreateQuicSession` is only called for a connection ID without a
session (`createSession_fresh`). Unless `FLAGS_quic_limit_num_new_sessions_per_epoll_loop` and
`FLAGS_quic_buffer_packet_till_chlo` are both on, no session's connection ID is in time-wait
(`sessions_not_in_timeWait`). With both on, a CHLO waits in the store; a later packet of the same
connection without the version flag puts the connection in time-wait, and `ProcessBufferedChlos`
then creates a session for it, which is in time-wait and in `session_map_` at once
(`session_in_timeWait`). Nothing in goquic calls `ProcessBufferedChlos`, and without it, with both
flags on, no session is ever created (`goquic_no_sessions`); so on the calls goquic makes the
three sets stay apart for every setting of the flags (`sessions_apart`).

A step learns no connection ID but that of the packet it processes (`held_step`).
-/

namespace GoQuic

/-- The libquic flags the dispatcher reads. -/
structure Flags where
  bufferPacketTillChlo : Bool
  limitNumNewSessionsPerEpollLoop : Bool
  useCheapStatelessRejects : Bool
  enableQuicStatelessRejectSupport : Bool
  deriving DecidableEq, Repr

/-- Whether `ProcessChlo` may hold a CHLO back in the packet store until `ProcessBufferedChlos`
(`go_quic_dispatcher.cc:693–695`): both flags on. -/
def Flags.holdsChlos (flags : Flags) : Bool :=
  flags.limitNumNewSessionsPerEpollLoop && flags.bufferPacketTillChlo

/-- What the framer parses from a packet, and what `ChloExtractor::Extract` finds in it. -/
structure Packet where
  connectionId : Nat
  /-- `current_client_address_.port() == 0` -/
  clientPortZero : Bool
  /-- `connection_id_length == PACKET_8BYTE_CONNECTION_ID` -/
  fullConnectionId : Bool
  resetFlag : Bool
  versionFlag : Bool
  /-- `framer_.IsSupportedVersion(header.versions.front())` -/
  versionSupported : Bool
  /-- `header.public_header.versions.front() > QUIC_VERSION_32` -/
  versionAbove32 : Bool
  /-- The framer parses the private header, after `OnUnauthenticatedPublicHeader` returns true. -/
  headerParses : Bool
  packetNumber : Nat
  /-- `ChloExtractor::Extract` finds a CHLO. -/
  isChlo : Bool
  deriving DecidableEq, Repr

/-- `StatelessRejector::State`. -/
inductive RejectorState where
  | failed
  | unsupported
  | accepted
  | rejected
  deriving DecidableEq, Repr

/-- What the stateless rejector decides for a CHLO: the validator's `can_accept()`, and the
state `StatelessRejector::Process` ends in. -/
structure RejectorOutcome where
  canAccept : Bool
  state : RejectorState
  deriving DecidableEq, Repr

/-- `QuicPacketFate`. -/
inductive QuicPacketFate where
  | process
  | timeWait
  | buffer
  | drop
  deriving DecidableEq, Repr

/-- The packets `buffered_packets_` holds for one connection. -/
structure BufferedConnection where
  connectionId : Nat
  packets : Nat
  hasChlo : Bool
  deriving DecidableEq, Repr

/-- The dispatcher's state: the keys of `session_map_`, the time-wait list, the packet store's
connections in arrival order, the length of `closed_session_list_`, and
`new_sessions_allowed_per_event_loop_`. -/
structure GoQuicDispatcher where
  sessionMap : List Nat
  timeWait : List Nat
  bufferedPackets : List BufferedConnection
  closedSessionList : Nat
  newSessionsAllowedPerEventLoop : Int16
  deriving DecidableEq, Repr

/-- What a run shows: each call of `CreateQuicSession`, with whether the connection ID already had
a session, in which case `session_map_.insert` discards the new one. -/
inductive DispatcherEvent where
  | createQuicSession (connectionId : Nat) (active : Bool)
  deriving DecidableEq, Repr

namespace GoQuicDispatcher

variable (flags : Flags)

/-- The dispatcher as constructed. -/
def new : GoQuicDispatcher := ⟨[], [], [], 0, 0⟩

/-! ### The packet store and the time-wait list -/

/-- `QuicBufferedPacketStore::HasBufferedPackets`. -/
def HasBufferedPackets (d : GoQuicDispatcher) (c : Nat) : Bool :=
  d.bufferedPackets.any (·.connectionId == c)

/-- `QuicBufferedPacketStore::HasChloForConnection`. -/
def HasChloForConnection (d : GoQuicDispatcher) (c : Nat) : Bool :=
  d.bufferedPackets.any fun b => b.connectionId == c && b.hasChlo

/-- `QuicBufferedPacketStore::EnqueuePacket`, which stores the packet when `ok`, and fails
otherwise (too many packets or connections). -/
def EnqueuePacket (d : GoQuicDispatcher) (c : Nat) (isChlo ok : Bool) : GoQuicDispatcher :=
  if !ok then d
  else if d.HasBufferedPackets c then
    { d with bufferedPackets := d.bufferedPackets.map fun b =>
        if b.connectionId = c then
          { b with packets := b.packets + 1, hasChlo := b.hasChlo || isChlo }
        else b }
  else { d with bufferedPackets := d.bufferedPackets ++ [⟨c, 1, isChlo⟩] }

/-- `QuicBufferedPacketStore::DeliverPackets`, which removes what it returns. -/
def DeliverPackets (d : GoQuicDispatcher) (c : Nat) : GoQuicDispatcher :=
  { d with bufferedPackets := d.bufferedPackets.filter (·.connectionId ≠ c) }

/-- `QuicBufferedPacketStore::DeliverPacketsForNextConnection`: the first connection with a
CHLO, removed from the store. -/
def DeliverPacketsForNextConnection (d : GoQuicDispatcher) : Option (Nat × GoQuicDispatcher) :=
  (d.bufferedPackets.find? (·.hasChlo)).map fun b =>
    (b.connectionId, d.DeliverPackets b.connectionId)

/-- `IsConnectionIdInTimeWait`. -/
def IsConnectionIdInTimeWait (d : GoQuicDispatcher) (c : Nat) : Bool := d.timeWait.contains c

/-- `AddConnectionIdToTimeWait`: the list keeps one entry per connection ID. -/
def AddConnectionIdToTimeWait (d : GoQuicDispatcher) (c : Nat) : GoQuicDispatcher :=
  if d.IsConnectionIdInTimeWait c then d else { d with timeWait := d.timeWait ++ [c] }

/-- `CreateQuicSession` and `session_map_.insert`, which keeps the old session if the key is
there. -/
def createSession (d : GoQuicDispatcher) (c : Nat) : GoQuicDispatcher × List DispatcherEvent :=
  ({ d with sessionMap := if c ∈ d.sessionMap then d.sessionMap else d.sessionMap ++ [c] },
    [.createQuicSession c (decide (c ∈ d.sessionMap))])

/-! ### Packets -/

/-- `ProcessChlo` (`go_quic_dispatcher.cc:682–739`) for the current packet's connection `c`. -/
def ProcessChlo (d : GoQuicDispatcher) (c : Nat) (enqueueOk : Bool) :
    GoQuicDispatcher × List DispatcherEvent :=
  if flags.limitNumNewSessionsPerEpollLoop && flags.bufferPacketTillChlo &&
      d.newSessionsAllowedPerEventLoop ≤ 0 then
    -- no new session in this event loop: buffer one CHLO per connection
    if d.HasChloForConnection c then (d, [])
    else (d.EnqueuePacket c true enqueueOk, [])
  else
    let r := d.createSession c
    let d := r.1.DeliverPackets c
    let d := if flags.limitNumNewSessionsPerEpollLoop && flags.bufferPacketTillChlo then
      { d with newSessionsAllowedPerEventLoop := d.newSessionsAllowedPerEventLoop - 1 }
      else d
    (d, r.2)

/-- `ProcessUnauthenticatedHeaderFate` (`go_quic_dispatcher.cc:343–379`). -/
def ProcessUnauthenticatedHeaderFate (d : GoQuicDispatcher) (fate : QuicPacketFate) (c : Nat)
    (enqueueOk : Bool) : GoQuicDispatcher × List DispatcherEvent :=
  match fate with
  | .process => d.ProcessChlo flags c enqueueOk
  | .timeWait =>
    -- `MaybeRejectStatelessly` may have added it already
    if !flags.useCheapStatelessRejects || !d.IsConnectionIdInTimeWait c then
      (d.AddConnectionIdToTimeWait c, [])
    else (d, [])
  -- `BufferEarlyPacket`
  | .buffer => (d.EnqueuePacket c false enqueueOk, [])
  | .drop => (d, [])

/-- `ValidityChecks` (`go_quic_dispatcher.cc:381–410`), with
`kMaxReasonableInitialPacketNumber = 100` and `kInvalidPacketNumber = 0`. -/
def ValidityChecks (p : Packet) : QuicPacketFate :=
  if !p.versionFlag then .timeWait
  else if p.packetNumber = 0 ∨ p.packetNumber > 100 then .timeWait
  else .process

/-- `MaybeRejectStatelessly` (`go_quic_dispatcher.cc:797–859`) with
`OnStatelessRejectorProcessDone` (`861–906`); `StatelessRejector::Process` completes at once.
`StatelessConnectionTerminator` adds the connection to time-wait. -/
def MaybeRejectStatelessly (d : GoQuicDispatcher) (p : Packet) (rejector : RejectorOutcome)
    (enqueueOk : Bool) : GoQuicDispatcher × List DispatcherEvent :=
  let c := p.connectionId
  -- `ShouldAttemptCheapStatelessRejection()` is true
  if !flags.useCheapStatelessRejects || !flags.enableQuicStatelessRejectSupport ||
      !p.versionAbove32 then
    if flags.bufferPacketTillChlo && !p.isChlo then
      d.ProcessUnauthenticatedHeaderFate flags .buffer c enqueueOk
    else d.ProcessUnauthenticatedHeaderFate flags .process c enqueueOk
  else if !p.isChlo then d.ProcessUnauthenticatedHeaderFate flags .drop c enqueueOk
  else if !rejector.canAccept then
    (d.AddConnectionIdToTimeWait c).ProcessUnauthenticatedHeaderFate flags .timeWait c enqueueOk
  else
    match rejector.state with
    | .failed | .rejected =>
      (d.AddConnectionIdToTimeWait c).ProcessUnauthenticatedHeaderFate flags .timeWait c enqueueOk
    | .unsupported | .accepted => d.ProcessUnauthenticatedHeaderFate flags .process c enqueueOk

/-- `OnUnauthenticatedHeader` (`go_quic_dispatcher.cc:315–341`). -/
def OnUnauthenticatedHeader (d : GoQuicDispatcher) (p : Packet) (rejector : RejectorOutcome)
    (enqueueOk : Bool) : GoQuicDispatcher × List DispatcherEvent :=
  if d.IsConnectionIdInTimeWait p.connectionId then (d, [])
  else
    match ValidityChecks p with
    | .process => d.MaybeRejectStatelessly flags p rejector enqueueOk
    | fate => d.ProcessUnauthenticatedHeaderFate flags fate p.connectionId enqueueOk

/-- `OnUnauthenticatedPublicHeader` (`go_quic_dispatcher.cc:244–313`): whether the framer goes
on to the private header. A packet of an active session goes to it; a public reset goes nowhere;
a packet of an unsupported version gets a version negotiation packet. -/
def OnUnauthenticatedPublicHeader (d : GoQuicDispatcher) (p : Packet) : Bool :=
  if p.clientPortZero then false
  else if !p.fullConnectionId then false
  else if p.connectionId ∈ d.sessionMap then false
  else if p.resetFlag then false
  -- `HandlePacketForTimeWait`
  else if d.IsConnectionIdInTimeWait p.connectionId then true
  else if p.versionFlag && !p.versionSupported then false
  else true

/-- `ProcessPacket` (`go_quic_dispatcher.cc:230–242`): the framer calls
`OnUnauthenticatedPublicHeader`, and `OnUnauthenticatedHeader` if that returned true and the
header parses. -/
def ProcessPacket (d : GoQuicDispatcher) (p : Packet) (rejector : RejectorOutcome)
    (enqueueOk : Bool) : GoQuicDispatcher × List DispatcherEvent :=
  if d.OnUnauthenticatedPublicHeader p && p.headerParses then
    d.OnUnauthenticatedHeader flags p rejector enqueueOk
  else (d, [])

/-! ### Sessions closing, packets expiring, buffered CHLOs -/

/-- `OnConnectionClosed` with `CleanUpSession` (`go_quic_dispatcher.cc:412–425, 461–486`). -/
def OnConnectionClosed (d : GoQuicDispatcher) (c : Nat) : GoQuicDispatcher :=
  if c ∉ d.sessionMap then d
  else
    let d := { d with closedSessionList := d.closedSessionList + 1 }
    let d := d.AddConnectionIdToTimeWait c
    { d with sessionMap := d.sessionMap.filter (· ≠ c) }

/-- `OnExpiredPackets` (`go_quic_dispatcher.cc:610–615`), after the store dropped the packets. -/
def OnExpiredPackets (d : GoQuicDispatcher) (c : Nat) : GoQuicDispatcher :=
  d.AddConnectionIdToTimeWait c

/-- `DeleteSessions`. -/
def DeleteSessions (d : GoQuicDispatcher) : GoQuicDispatcher := { d with closedSessionList := 0 }

/-- The loop of `ProcessBufferedChlos`, with `n` sessions still allowed. -/
def processBufferedChlosLoop (d : GoQuicDispatcher) :
    Nat → GoQuicDispatcher × List DispatcherEvent
  | 0 => ({ d with newSessionsAllowedPerEventLoop := 0 }, [])
  | n + 1 =>
    match d.DeliverPacketsForNextConnection with
    | none => ({ d with newSessionsAllowedPerEventLoop := Int16.ofNat (n + 1) }, [])
    | some (c, d) =>
      let r := d.createSession c
      let rest := r.1.processBufferedChlosLoop n
      (rest.1, r.2 ++ rest.2)

/-- `ProcessBufferedChlos` (`go_quic_dispatcher.cc:617–634`): the `size_t` argument becomes the
`int16_t` counter, and the loop runs while it is positive. -/
def ProcessBufferedChlos (d : GoQuicDispatcher) (maxConnectionsToCreate : Nat) :
    GoQuicDispatcher × List DispatcherEvent :=
  let allowed := Int16.ofNat maxConnectionsToCreate
  if allowed ≤ 0 then ({ d with newSessionsAllowedPerEventLoop := allowed }, [])
  else d.processBufferedChlosLoop allowed.toInt.toNat

end GoQuicDispatcher

/-- What drives the dispatcher. -/
inductive DispatcherLabel where
  | processPacket (p : Packet) (rejector : RejectorOutcome) (enqueueOk : Bool)
  /-- A session reports that its connection closed. -/
  | onConnectionClosed (c : Nat)
  /-- The packet store's expiration alarm drops the packets of `c`. -/
  | expireBuffered (c : Nat)
  | deleteSessions
  | processBufferedChlos (maxConnectionsToCreate : Nat)
  /-- The time-wait list manager drops `c` from the list. -/
  | timeWaitExpire (c : Nat)
  deriving DecidableEq, Repr

/-- Whether a label is a call of `ProcessBufferedChlos`. -/
def DispatcherLabel.isProcessBufferedChlos : DispatcherLabel → Bool
  | .processBufferedChlos _ => true
  | _ => false

/-- The connection ID a packet brings to a dispatcher: its own, if it carries it in full. -/
def Packet.ids (p : Packet) : Set Nat := {c | p.fullConnectionId = true ∧ c = p.connectionId}

/-- The connection IDs a step on `l` may bring: those of the packet it processes. -/
def DispatcherLabel.ids : DispatcherLabel → Set Nat
  | .processPacket p _ _ => p.ids
  | _ => ∅

namespace GoQuicDispatcher

variable (flags : Flags)

/-- One step of the dispatcher. -/
def step (d : GoQuicDispatcher) :
    DispatcherLabel → Option (GoQuicDispatcher × List DispatcherEvent)
  | .processPacket p rejector enqueueOk => some (d.ProcessPacket flags p rejector enqueueOk)
  | .onConnectionClosed c => some (d.OnConnectionClosed c, [])
  | .expireBuffered c =>
    if d.HasBufferedPackets c then some ((d.DeliverPackets c).OnExpiredPackets c, []) else none
  | .deleteSessions => some (d.DeleteSessions, [])
  | .processBufferedChlos n => some (d.ProcessBufferedChlos n)
  | .timeWaitExpire c =>
    if d.IsConnectionIdInTimeWait c then
      some ({ d with timeWait := d.timeWait.filter (· ≠ c) }, [])
    else none

/-- The dispatcher as a system. -/
def system : Lts GoQuicDispatcher DispatcherLabel DispatcherEvent := ⟨new, step flags⟩

/-- The dispatcher as goquic drives it: every call but `ProcessBufferedChlos`, which nothing under
`src/` makes (it is only declared and defined, `go_quic_dispatcher.h:153`, `.cc:617`). -/
def goquicSystem : Lts GoQuicDispatcher DispatcherLabel DispatcherEvent :=
  (system flags).restrict fun l => l.isProcessBufferedChlos = false

/-! ### What each function changes -/

variable {flags} {d : GoQuicDispatcher} {c c' : Nat}

@[simp] theorem EnqueuePacket_sessionMap (isChlo ok : Bool) :
    (d.EnqueuePacket c isChlo ok).sessionMap = d.sessionMap := by
  unfold EnqueuePacket
  split
  · rfl
  · split <;> rfl

@[simp] theorem EnqueuePacket_timeWait (isChlo ok : Bool) :
    (d.EnqueuePacket c isChlo ok).timeWait = d.timeWait := by
  unfold EnqueuePacket
  split
  · rfl
  · split <;> rfl

theorem HasBufferedPackets_iff : d.HasBufferedPackets c = true ↔ ∃ b ∈ d.bufferedPackets,
    b.connectionId = c := by
  simp [HasBufferedPackets]

/-- Enqueuing buffers packets for `c` alone. -/
theorem HasBufferedPackets_EnqueuePacket (isChlo ok : Bool) (h : c' ≠ c) :
    (d.EnqueuePacket c isChlo ok).HasBufferedPackets c' = d.HasBufferedPackets c' := by
  unfold EnqueuePacket
  split
  · rfl
  · split
    · simp only [HasBufferedPackets, List.any_map]
      congr 1
      funext b
      by_cases hb : b.connectionId = c
      · simp [hb]
      · simp [hb]
    · simp [HasBufferedPackets, Ne.symm h]

/-- Enqueuing a packet that is not a CHLO adds no CHLO. -/
theorem hasChlo_EnqueuePacket {ok : Bool} (h : ∀ b ∈ d.bufferedPackets, b.hasChlo = false) :
    ∀ b ∈ (d.EnqueuePacket c false ok).bufferedPackets, b.hasChlo = false := by
  unfold EnqueuePacket
  split
  · exact h
  · split
    · simp only [List.mem_map]
      rintro _ ⟨b, hb, rfl⟩
      split <;> simp [h b hb]
    · simp only [List.mem_append, List.mem_singleton]
      rintro b (hb | rfl)
      · exact h b hb
      · rfl

@[simp] theorem DeliverPackets_sessionMap : (d.DeliverPackets c).sessionMap = d.sessionMap := rfl

@[simp] theorem DeliverPackets_timeWait : (d.DeliverPackets c).timeWait = d.timeWait := rfl

theorem HasBufferedPackets_DeliverPackets :
    (d.DeliverPackets c).HasBufferedPackets c' = true ↔
      d.HasBufferedPackets c' = true ∧ c' ≠ c := by
  simp only [HasBufferedPackets_iff, DeliverPackets, List.mem_filter, decide_eq_true_eq]
  constructor
  · rintro ⟨b, ⟨hb, hne⟩, rfl⟩
    exact ⟨⟨b, hb, rfl⟩, hne⟩
  · rintro ⟨⟨b, hb, rfl⟩, hne⟩
    exact ⟨b, ⟨hb, hne⟩, rfl⟩

theorem DeliverPacketsForNextConnection_eq_some {d' : GoQuicDispatcher}
    (h : d.DeliverPacketsForNextConnection = some (c, d')) :
    ∃ b ∈ d.bufferedPackets,
      b.connectionId = c ∧ b.hasChlo = true ∧ d' = d.DeliverPackets c := by
  obtain ⟨b, hb, he⟩ := Option.map_eq_some_iff.mp h
  obtain ⟨rfl, rfl⟩ := Prod.mk.inj he
  exact ⟨b, List.mem_of_find?_eq_some hb, rfl, List.find?_some hb, rfl⟩

theorem mem_AddConnectionIdToTimeWait :
    c' ∈ (d.AddConnectionIdToTimeWait c).timeWait ↔ c' ∈ d.timeWait ∨ c' = c := by
  unfold AddConnectionIdToTimeWait
  split
  · next h =>
    simp only [IsConnectionIdInTimeWait, List.contains_iff_mem] at h
    constructor
    · exact .inl
    · rintro (h' | rfl)
      · exact h'
      · exact h
  · simp

@[simp] theorem AddConnectionIdToTimeWait_sessionMap :
    (d.AddConnectionIdToTimeWait c).sessionMap = d.sessionMap := by
  unfold AddConnectionIdToTimeWait
  split <;> rfl

@[simp] theorem AddConnectionIdToTimeWait_bufferedPackets :
    (d.AddConnectionIdToTimeWait c).bufferedPackets = d.bufferedPackets := by
  unfold AddConnectionIdToTimeWait
  split <;> rfl

theorem AddConnectionIdToTimeWait_HasBufferedPackets :
    (d.AddConnectionIdToTimeWait c).HasBufferedPackets c' = d.HasBufferedPackets c' := by
  simp [HasBufferedPackets]

theorem mem_createSession_sessionMap :
    c' ∈ (d.createSession c).1.sessionMap ↔ c' ∈ d.sessionMap ∨ c' = c := by
  simp only [createSession]
  split
  · next h =>
    constructor
    · exact .inl
    · rintro (h' | rfl)
      · exact h'
      · exact h
  · simp

@[simp] theorem createSession_timeWait : (d.createSession c).1.timeWait = d.timeWait := rfl

@[simp] theorem createSession_bufferedPackets :
    (d.createSession c).1.bufferedPackets = d.bufferedPackets := rfl

/-- `ProcessChlo` creates the session and then delivers its packets; `ProcessBufferedChlos`
delivers first. The two orders end in the same state. -/
theorem createSession_DeliverPackets :
    (d.createSession c).1.DeliverPackets c = ((d.DeliverPackets c).createSession c).1 := rfl

theorem not_mem_sessionMap_of_OnUnauthenticatedPublicHeader {p : Packet}
    (h : d.OnUnauthenticatedPublicHeader p = true) : p.connectionId ∉ d.sessionMap := by
  intro hm
  simp [OnUnauthenticatedPublicHeader, hm] at h

/-! ### The invariant -/

/-- What every reachable dispatcher keeps. Where `ProcessChlo` holds no CHLO back (one of the two
flags off) no CHLO is ever buffered, and no session's connection ID is in time-wait. -/
structure Inv (flags : Flags) (d : GoQuicDispatcher) : Prop where
  unbuffered : ∀ c ∈ d.sessionMap, d.HasBufferedPackets c = false
  noChlo : flags.holdsChlos = false → ∀ b ∈ d.bufferedPackets, b.hasChlo = false
  apart : flags.holdsChlos = false → ∀ c ∈ d.sessionMap, c ∉ d.timeWait

/-- No call of `CreateQuicSession` among `evs` is for a connection ID that has a session. -/
def Fresh (evs : List DispatcherEvent) : Prop :=
  ∀ c active, DispatcherEvent.createQuicSession c active ∈ evs → active = false

theorem fresh_nil : Fresh [] := by
  simp [Fresh]

theorem Fresh.append {evs evs' : List DispatcherEvent} (h : Fresh evs) (h' : Fresh evs') :
    Fresh (evs ++ evs') := by
  intro c active hm
  rcases List.mem_append.mp hm with hm | hm
  · exact h c active hm
  · exact h' c active hm

theorem fresh_createSession (hc : c ∉ d.sessionMap) : Fresh (d.createSession c).2 := by
  simp [Fresh, createSession, hc]

/-- What a call leaves: a state that keeps the invariant, and only fresh sessions. -/
structure Safe (flags : Flags) (r : GoQuicDispatcher × List DispatcherEvent) : Prop where
  inv : r.1.Inv flags
  fresh : Fresh r.2

theorem Inv.safe (hi : d.Inv flags) : Safe flags (d, []) := ⟨hi, fresh_nil⟩

theorem inv_new : new.Inv flags := by
  constructor <;> simp [new]

/-- The invariant survives fewer sessions, fewer buffered packets, and connection IDs added to
time-wait that have no session. -/
theorem Inv.of_subset {d' : GoQuicDispatcher} (hi : d.Inv flags)
    (hs : ∀ c ∈ d'.sessionMap, c ∈ d.sessionMap)
    (hb : ∀ b ∈ d'.bufferedPackets, b ∈ d.bufferedPackets)
    (ht : ∀ c ∈ d'.sessionMap, c ∈ d'.timeWait → c ∈ d.timeWait) : d'.Inv flags where
  unbuffered c hc := by
    have h := hi.unbuffered c (hs c hc)
    rw [Bool.eq_false_iff] at h ⊢
    intro hb'
    obtain ⟨b, hbm, rfl⟩ := HasBufferedPackets_iff.mp hb'
    exact h (HasBufferedPackets_iff.mpr ⟨b, hb b hbm, rfl⟩)
  noChlo hl b hbm := hi.noChlo hl b (hb b hbm)
  apart hl c hc hct := hi.apart hl c (hs c hc) (ht c hc hct)

theorem Inv.DeliverPackets (hi : d.Inv flags) (c : Nat) : (d.DeliverPackets c).Inv flags :=
  hi.of_subset (fun _ h => h) (fun _ h => List.mem_of_mem_filter h) (fun _ _ h => h)

theorem Inv.withAllowed (hi : d.Inv flags) (n : Int16) :
    ({ d with newSessionsAllowedPerEventLoop := n } : GoQuicDispatcher).Inv flags :=
  hi.of_subset (fun _ h => h) (fun _ h => h) (fun _ _ h => h)

theorem Inv.AddConnectionIdToTimeWait (hi : d.Inv flags) (hc : c ∉ d.sessionMap) :
    (d.AddConnectionIdToTimeWait c).Inv flags := by
  refine hi.of_subset (by simp) (by simp) ?_
  intro c' hc' ht
  rw [AddConnectionIdToTimeWait_sessionMap] at hc'
  rcases mem_AddConnectionIdToTimeWait.mp ht with ht | rfl
  · exact ht
  · exact absurd hc' hc

/-- Buffering a packet for a connection without a session; where no CHLO is held back it is not
a CHLO. -/
theorem Inv.EnqueuePacket (hi : d.Inv flags) (hc : c ∉ d.sessionMap) {isChlo : Bool}
    (hchlo : flags.holdsChlos = false → isChlo = false) (ok : Bool) :
    (d.EnqueuePacket c isChlo ok).Inv flags where
  unbuffered c' hc' := by
    rw [EnqueuePacket_sessionMap] at hc'
    rw [HasBufferedPackets_EnqueuePacket isChlo ok (ne_of_mem_of_not_mem hc' hc)]
    exact hi.unbuffered c' hc'
  noChlo hl := by
    rw [hchlo hl]
    exact hasChlo_EnqueuePacket (hi.noChlo hl)
  apart hl := by
    simpa using hi.apart hl

/-- A session for a connection without buffered packets; where no CHLO is held back it is not in
time-wait. -/
theorem Inv.createSession (hi : d.Inv flags) (hb : d.HasBufferedPackets c = false)
    (ht : flags.holdsChlos = false → c ∉ d.timeWait) :
    (d.createSession c).1.Inv flags where
  unbuffered c' hc' := by
    rcases mem_createSession_sessionMap.mp hc' with hc' | rfl
    · exact hi.unbuffered c' hc'
    · exact hb
  noChlo hl := by
    simpa using hi.noChlo hl
  apart hl c' hc' := by
    rw [createSession_timeWait]
    rcases mem_createSession_sessionMap.mp hc' with hc' | rfl
    · exact hi.apart hl c' hc'
    · exact ht hl

/-! ### Each function keeps the invariant -/

/-- `ProcessChlo` for a connection without a session: it is buffered only with both flags on, and
otherwise it is not in time-wait. -/
theorem Inv.ProcessChlo (hi : d.Inv flags) (hc : c ∉ d.sessionMap)
    (ht : flags.holdsChlos = false → c ∉ d.timeWait) (enqueueOk : Bool) :
    Safe flags (d.ProcessChlo flags c enqueueOk) := by
  unfold GoQuicDispatcher.ProcessChlo
  split
  · next hlim =>
    have hon : flags.holdsChlos = true := by
      simp only [Bool.and_eq_true] at hlim
      simp [Flags.holdsChlos, hlim.1.1, hlim.1.2]
    split
    · exact hi.safe
    · exact (hi.EnqueuePacket hc (fun hl => absurd (hl.symm.trans hon) Bool.false_ne_true)
        enqueueOk).safe
  · have hb : (d.DeliverPackets c).HasBufferedPackets c = false := by
      rw [Bool.eq_false_iff]
      exact fun h => (HasBufferedPackets_DeliverPackets.mp h).2 rfl
    have hnew := (hi.DeliverPackets c).createSession hb ht
    rw [← createSession_DeliverPackets] at hnew
    constructor
    · dsimp only
      split
      · exact hnew.withAllowed _
      · exact hnew
    · exact fresh_createSession hc

theorem Inv.ProcessUnauthenticatedHeaderFate (hi : d.Inv flags) (hc : c ∉ d.sessionMap)
    {fate : QuicPacketFate}
    (ht : fate = .process → flags.holdsChlos = false → c ∉ d.timeWait)
    (enqueueOk : Bool) :
    Safe flags (d.ProcessUnauthenticatedHeaderFate flags fate c enqueueOk) := by
  cases fate with
  | process => exact hi.ProcessChlo hc (ht rfl) enqueueOk
  | timeWait =>
    simp only [GoQuicDispatcher.ProcessUnauthenticatedHeaderFate]
    split
    · exact (hi.AddConnectionIdToTimeWait hc).safe
    · exact hi.safe
  | buffer => exact (hi.EnqueuePacket hc (fun _ => rfl) enqueueOk).safe
  | drop => exact hi.safe

/-- `MaybeRejectStatelessly` for a connection with neither a session nor a time-wait entry. -/
theorem Inv.MaybeRejectStatelessly (hi : d.Inv flags) {p : Packet}
    (hc : p.connectionId ∉ d.sessionMap) (ht : p.connectionId ∉ d.timeWait)
    (rejector : RejectorOutcome) (enqueueOk : Bool) :
    Safe flags (d.MaybeRejectStatelessly flags p rejector enqueueOk) := by
  have hfate (fate : QuicPacketFate) :
      Safe flags (d.ProcessUnauthenticatedHeaderFate flags fate p.connectionId enqueueOk) :=
    hi.ProcessUnauthenticatedHeaderFate hc (fun _ _ => ht) enqueueOk
  -- the stateless terminator has put the connection in time-wait before the fate is applied
  have hreject : Safe flags
      ((d.AddConnectionIdToTimeWait p.connectionId).ProcessUnauthenticatedHeaderFate
        flags .timeWait p.connectionId enqueueOk) :=
    (hi.AddConnectionIdToTimeWait hc).ProcessUnauthenticatedHeaderFate (by simpa using hc)
      (fun h : QuicPacketFate.timeWait = .process => nomatch h) enqueueOk
  unfold GoQuicDispatcher.MaybeRejectStatelessly
  split
  · split
    · exact hfate _
    · exact hfate _
  · split
    · exact hfate _
    · split
      · exact hreject
      · split
        · exact hreject
        · exact hreject
        · exact hfate _
        · exact hfate _

theorem Inv.OnUnauthenticatedHeader (hi : d.Inv flags) {p : Packet}
    (hc : p.connectionId ∉ d.sessionMap) (rejector : RejectorOutcome) (enqueueOk : Bool) :
    Safe flags (d.OnUnauthenticatedHeader flags p rejector enqueueOk) := by
  unfold GoQuicDispatcher.OnUnauthenticatedHeader
  split
  · exact hi.safe
  · next htw =>
    have ht : p.connectionId ∉ d.timeWait := by
      simpa [IsConnectionIdInTimeWait] using htw
    split
    · exact hi.MaybeRejectStatelessly hc ht rejector enqueueOk
    · exact hi.ProcessUnauthenticatedHeaderFate hc (fun _ _ => ht) enqueueOk

/-- `ProcessPacket` keeps the invariant, whatever the packet and the rejector's outcome. -/
theorem Inv.ProcessPacket (hi : d.Inv flags) (p : Packet) (rejector : RejectorOutcome)
    (enqueueOk : Bool) : Safe flags (d.ProcessPacket flags p rejector enqueueOk) := by
  unfold GoQuicDispatcher.ProcessPacket
  split
  · next h =>
    have hc := not_mem_sessionMap_of_OnUnauthenticatedPublicHeader (Bool.and_eq_true_iff.mp h).1
    exact hi.OnUnauthenticatedHeader hc rejector enqueueOk
  · exact hi.safe

theorem Inv.OnConnectionClosed (hi : d.Inv flags) (c : Nat) :
    (d.OnConnectionClosed c).Inv flags := by
  unfold GoQuicDispatcher.OnConnectionClosed
  split
  · exact hi
  · apply hi.of_subset
    · intro c' hc'
      simpa using (List.mem_filter.mp hc').1
    · simp
    · intro c' hc' ht
      have hne : c' ≠ c := by simpa using (List.mem_filter.mp hc').2
      rcases mem_AddConnectionIdToTimeWait.mp ht with ht | rfl
      · exact ht
      · exact absurd rfl hne

/-- The loop of `ProcessBufferedChlos` creates sessions only for buffered CHLOs, which have no
session. Where `ProcessChlo` holds none back there is none. -/
theorem Inv.processBufferedChlosLoop (hi : d.Inv flags) (n : Nat) :
    Safe flags (d.processBufferedChlosLoop n) := by
  induction n generalizing d with
  | zero => exact (hi.withAllowed 0).safe
  | succ n ih =>
    rw [GoQuicDispatcher.processBufferedChlosLoop]
    split
    · exact (hi.withAllowed _).safe
    · next c d' hnext =>
      obtain ⟨b, hb, rfl, hchlo, rfl⟩ := DeliverPacketsForNextConnection_eq_some hnext
      have hbuf : d.HasBufferedPackets b.connectionId = true :=
        HasBufferedPackets_iff.mpr ⟨b, hb, rfl⟩
      have hc : b.connectionId ∉ d.sessionMap := fun hm => by
        rw [hi.unbuffered _ hm] at hbuf
        exact Bool.false_ne_true hbuf
      have hdel : (d.DeliverPackets b.connectionId).HasBufferedPackets b.connectionId = false := by
        rw [Bool.eq_false_iff]
        exact fun h => (HasBufferedPackets_DeliverPackets.mp h).2 rfl
      -- where no CHLO is held back the store holds none, so this branch is not taken
      have hnew := (hi.DeliverPackets b.connectionId).createSession hdel fun hl =>
        absurd ((hi.noChlo hl b hb).symm.trans hchlo) Bool.false_ne_true
      have hrest := ih hnew
      exact ⟨hrest.inv, (fresh_createSession hc).append hrest.fresh⟩

theorem Inv.ProcessBufferedChlos (hi : d.Inv flags) (n : Nat) :
    Safe flags (d.ProcessBufferedChlos n) := by
  unfold GoQuicDispatcher.ProcessBufferedChlos
  dsimp only
  split
  · exact (hi.withAllowed _).safe
  · exact hi.processBufferedChlosLoop _

/-- One step keeps the invariant and creates only fresh sessions. -/
theorem Inv.step (hi : d.Inv flags) {l : DispatcherLabel} {d' : GoQuicDispatcher}
    {evs : List DispatcherEvent} (h : step flags d l = some (d', evs)) : Safe flags (d', evs) := by
  cases l with
  | processPacket p rejector enqueueOk =>
    rw [← Option.some.inj h]
    exact hi.ProcessPacket p rejector enqueueOk
  | onConnectionClosed c =>
    rw [← Option.some.inj h]
    exact (hi.OnConnectionClosed c).safe
  | expireBuffered c =>
    simp only [GoQuicDispatcher.step] at h
    split at h
    · next hbuf =>
      rw [← Option.some.inj h]
      have hc : c ∉ d.sessionMap := fun hm => by
        rw [hi.unbuffered _ hm] at hbuf
        exact Bool.false_ne_true hbuf
      exact ((hi.DeliverPackets c).AddConnectionIdToTimeWait hc).safe
    · cases h
  | deleteSessions =>
    rw [← Option.some.inj h]
    have hd : d.DeleteSessions.Inv flags :=
      hi.of_subset (fun _ h => h) (fun _ h => h) (fun _ _ h => h)
    exact hd.safe
  | processBufferedChlos n =>
    rw [← Option.some.inj h]
    exact hi.ProcessBufferedChlos n
  | timeWaitExpire c =>
    simp only [GoQuicDispatcher.step] at h
    split at h
    · rw [← Option.some.inj h]
      have hd :
          ({ d with timeWait := d.timeWait.filter (· ≠ c) } : GoQuicDispatcher).Inv flags :=
        hi.of_subset (fun _ h => h) (fun _ h => h) (fun _ _ h => (List.mem_filter.mp h).1)
      exact hd.safe
    · cases h

/-! ### Every run -/

/-- Every reachable dispatcher keeps the invariant, and every session it created was fresh. -/
theorem reach_inv {tr : List DispatcherEvent} (h : (system flags).Reach d tr) :
    d.Inv flags ∧ Fresh tr :=
  h.induction_on (P := fun d tr => d.Inv flags ∧ Fresh tr) ⟨inv_new, fresh_nil⟩
    fun _ _ _ _ _ _ hp hs => ⟨(hp.1.step hs).inv, hp.2.append (hp.1.step hs).fresh⟩

/-- On every run, whatever the flags, no session's connection ID has buffered packets. -/
theorem sessions_unbuffered {tr : List DispatcherEvent} (h : (system flags).Reach d tr) :
    ∀ c ∈ d.sessionMap, d.HasBufferedPackets c = false :=
  (reach_inv h).1.unbuffered

/-- On every run, whatever the flags, `CreateQuicSession` is never called for a connection ID
that has a session, so `session_map_.insert` never discards one. -/
theorem createSession_fresh {tr : List DispatcherEvent} (h : (system flags).Reach d tr) (c : Nat) :
    DispatcherEvent.createQuicSession c true ∉ tr :=
  fun hm => Bool.false_ne_true ((reach_inv h).2 c true hm).symm

/-- With `FLAGS_quic_limit_num_new_sessions_per_epoll_loop` or `FLAGS_quic_buffer_packet_till_chlo`
off, no session's connection ID is in time-wait. -/
theorem sessions_not_in_timeWait (hl : flags.holdsChlos = false)
    {tr : List DispatcherEvent} (h : (system flags).Reach d tr) :
    ∀ c ∈ d.sessionMap, d.IsConnectionIdInTimeWait c = false := by
  intro c hc
  simpa [IsConnectionIdInTimeWait] using (reach_inv h).1.apart hl c hc

/-- With the limit and buffering on, a CHLO of connection 1 arrives while no new session is
allowed and is buffered; a packet of connection 1 without the version flag puts it in time-wait;
`ProcessBufferedChlos` then creates its session, and connection 1 is in both sets. -/
theorem session_in_timeWait : ∃ d tr, (system ⟨true, true, false, false⟩).Reach d tr ∧
    1 ∈ d.sessionMap ∧ 1 ∈ d.timeWait := by
  have hrun : (system ⟨true, true, false, false⟩).run new
      [.processPacket ⟨1, false, true, false, true, true, true, true, 1, true⟩
          ⟨true, .accepted⟩ true,
        .processPacket ⟨1, false, true, false, false, true, true, true, 2, false⟩
          ⟨true, .accepted⟩ true,
        .processBufferedChlos 1] =
      some (⟨[1], [1], [], 0, 0⟩, [.createQuicSession 1 false]) := by
    decide +kernel
  exact ⟨_, _, Lts.Reach.of_run hrun, by decide, by decide⟩

/-! ### What a dispatcher knows -/

/-- The connection IDs the dispatcher knows: those with a session, a time-wait entry or buffered
packets. -/
def held (d : GoQuicDispatcher) : Set Nat :=
  {c | c ∈ d.sessionMap ∨ c ∈ d.timeWait ∨ d.HasBufferedPackets c = true}

@[simp] theorem held_new : new.held = ∅ := by
  ext c
  simp [held, new, HasBufferedPackets]

theorem mem_held_of_buffered (h : d.HasBufferedPackets c = true) : c ∈ d.held := .inr (.inr h)

theorem held_EnqueuePacket (isChlo ok : Bool) :
    (d.EnqueuePacket c isChlo ok).held ⊆ insert c d.held := by
  intro c' hc'
  by_cases hne : c' = c
  · exact .inl hne
  · right
    simpa [held, HasBufferedPackets_EnqueuePacket isChlo ok hne] using hc'

theorem held_DeliverPackets : (d.DeliverPackets c).held ⊆ d.held := by
  rintro c' (hs | ht | hb)
  · exact .inl hs
  · exact .inr (.inl ht)
  · exact .inr (.inr (HasBufferedPackets_DeliverPackets.mp hb).1)

theorem held_AddConnectionIdToTimeWait :
    (d.AddConnectionIdToTimeWait c).held ⊆ insert c d.held := by
  rintro c' (hs | ht | hb)
  · rw [AddConnectionIdToTimeWait_sessionMap] at hs
    exact .inr (.inl hs)
  · rcases mem_AddConnectionIdToTimeWait.mp ht with ht | rfl
    · exact .inr (.inr (.inl ht))
    · exact .inl rfl
  · rw [AddConnectionIdToTimeWait_HasBufferedPackets] at hb
    exact .inr (.inr (.inr hb))

theorem held_createSession : (d.createSession c).1.held ⊆ insert c d.held := by
  rintro c' (hs | ht | hb)
  · rcases mem_createSession_sessionMap.mp hs with hs | rfl
    · exact .inr (.inl hs)
    · exact .inl rfl
  · exact .inr (.inr (.inl ht))
  · exact .inr (.inr (.inr hb))

theorem held_ProcessChlo (enqueueOk : Bool) :
    (d.ProcessChlo flags c enqueueOk).1.held ⊆ insert c d.held := by
  unfold ProcessChlo
  split
  · split
    · exact Set.subset_insert c d.held
    · exact held_EnqueuePacket true enqueueOk
  · -- the new session, then its buffered packets delivered
    have h : ((d.createSession c).1.DeliverPackets c).held ⊆ insert c d.held :=
      held_DeliverPackets.trans held_createSession
    dsimp only
    split
    · exact h
    · exact h

theorem held_ProcessUnauthenticatedHeaderFate (fate : QuicPacketFate) (enqueueOk : Bool) :
    (d.ProcessUnauthenticatedHeaderFate flags fate c enqueueOk).1.held ⊆ insert c d.held := by
  cases fate with
  | process => exact held_ProcessChlo enqueueOk
  | timeWait =>
    simp only [ProcessUnauthenticatedHeaderFate]
    split
    · exact held_AddConnectionIdToTimeWait
    · exact Set.subset_insert c d.held
  | buffer => exact held_EnqueuePacket false enqueueOk
  | drop => exact Set.subset_insert c d.held

theorem held_MaybeRejectStatelessly {p : Packet} (rejector : RejectorOutcome) (enqueueOk : Bool) :
    (d.MaybeRejectStatelessly flags p rejector enqueueOk).1.held ⊆ insert p.connectionId d.held := by
  have hfate (fate : QuicPacketFate) :
      (d.ProcessUnauthenticatedHeaderFate flags fate p.connectionId enqueueOk).1.held ⊆
        insert p.connectionId d.held :=
    held_ProcessUnauthenticatedHeaderFate fate enqueueOk
  -- the stateless terminator adds the connection to time-wait before the fate is applied
  have hreject : ((d.AddConnectionIdToTimeWait p.connectionId).ProcessUnauthenticatedHeaderFate
      flags .timeWait p.connectionId enqueueOk).1.held ⊆ insert p.connectionId d.held :=
    (held_ProcessUnauthenticatedHeaderFate _ enqueueOk).trans
      (Set.insert_subset_iff.mpr ⟨Set.mem_insert _ _, held_AddConnectionIdToTimeWait⟩)
  unfold MaybeRejectStatelessly
  split
  · split
    · exact hfate _
    · exact hfate _
  · split
    · exact hfate _
    · split
      · exact hreject
      · split
        · exact hreject
        · exact hreject
        · exact hfate _
        · exact hfate _

theorem held_OnUnauthenticatedHeader {p : Packet} (rejector : RejectorOutcome) (enqueueOk : Bool) :
    (d.OnUnauthenticatedHeader flags p rejector enqueueOk).1.held ⊆ insert p.connectionId d.held := by
  unfold OnUnauthenticatedHeader
  split
  · exact Set.subset_insert _ d.held
  · split
    · exact held_MaybeRejectStatelessly rejector enqueueOk
    · exact held_ProcessUnauthenticatedHeaderFate _ enqueueOk

/-- A packet without a full connection ID changes nothing: the dispatcher stops at its public
header. -/
theorem ProcessPacket_of_not_full {p : Packet} (hp : p.fullConnectionId = false)
    (rejector : RejectorOutcome) (enqueueOk : Bool) :
    d.ProcessPacket flags p rejector enqueueOk = (d, []) := by
  simp [ProcessPacket, OnUnauthenticatedPublicHeader, hp]

/-- `ProcessPacket` learns at most the packet's own full connection ID. -/
theorem held_ProcessPacket (p : Packet) (rejector : RejectorOutcome) (enqueueOk : Bool) :
    (d.ProcessPacket flags p rejector enqueueOk).1.held ⊆ d.held ∪ p.ids := by
  cases hp : p.fullConnectionId with
  | false =>
    rw [ProcessPacket_of_not_full hp]
    exact Set.subset_union_left
  | true =>
    have h : (d.ProcessPacket flags p rejector enqueueOk).1.held ⊆
        insert p.connectionId d.held := by
      unfold ProcessPacket
      split
      · exact held_OnUnauthenticatedHeader rejector enqueueOk
      · exact Set.subset_insert _ d.held
    refine h.trans ?_
    rintro c' (rfl | hc')
    · exact .inr ⟨hp, rfl⟩
    · exact .inl hc'

theorem held_OnConnectionClosed : (d.OnConnectionClosed c).held ⊆ d.held := by
  unfold OnConnectionClosed
  split
  · exact subset_rfl
  · next hc =>
    -- the closed session's ID moves to time-wait
    have hin : c ∈ d.held := .inl (not_not.mp hc)
    rintro c' (hs | ht | hb)
    · exact .inl (by simpa using (List.mem_filter.mp hs).1)
    · rcases mem_AddConnectionIdToTimeWait.mp ht with ht | rfl
      · exact .inr (.inl ht)
      · exact hin
    · exact .inr (.inr (by simpa [HasBufferedPackets] using hb))

theorem held_processBufferedChlosLoop (n : Nat) :
    (d.processBufferedChlosLoop n).1.held ⊆ d.held := by
  induction n generalizing d with
  | zero => exact subset_rfl
  | succ n ih =>
    rw [processBufferedChlosLoop]
    split
    · exact subset_rfl
    · next c d' hnext =>
      -- a buffered CHLO's connection gets its session
      obtain ⟨b, hb, rfl, -, rfl⟩ := DeliverPacketsForNextConnection_eq_some hnext
      have hin : b.connectionId ∈ d.held :=
        mem_held_of_buffered (HasBufferedPackets_iff.mpr ⟨b, hb, rfl⟩)
      calc _ ⊆ ((d.DeliverPackets b.connectionId).createSession b.connectionId).1.held := ih
        _ ⊆ insert b.connectionId (d.DeliverPackets b.connectionId).held := held_createSession
        _ ⊆ insert b.connectionId d.held := Set.insert_subset_insert held_DeliverPackets
        _ = d.held := Set.insert_eq_of_mem hin

theorem held_ProcessBufferedChlos (n : Nat) : (d.ProcessBufferedChlos n).1.held ⊆ d.held := by
  unfold ProcessBufferedChlos
  dsimp only
  split
  · exact subset_rfl
  · exact held_processBufferedChlosLoop _

/-- A step of the dispatcher learns no connection ID but that of the packet it processes. -/
theorem held_step {l : DispatcherLabel} {d' : GoQuicDispatcher} {evs : List DispatcherEvent}
    (h : step flags d l = some (d', evs)) : d'.held ⊆ d.held ∪ l.ids := by
  cases l with
  | processPacket p rejector enqueueOk =>
    rw [← (Prod.mk.inj (Option.some.inj h)).1]
    exact held_ProcessPacket p rejector enqueueOk
  | onConnectionClosed c =>
    rw [← (Prod.mk.inj (Option.some.inj h)).1]
    exact held_OnConnectionClosed.trans Set.subset_union_left
  | expireBuffered c =>
    simp only [step] at h
    split at h
    · next hbuf =>
      rw [← (Prod.mk.inj (Option.some.inj h)).1]
      -- the expired connection moves from the store to time-wait
      calc _ ⊆ insert c (d.DeliverPackets c).held := held_AddConnectionIdToTimeWait
        _ ⊆ insert c d.held := Set.insert_subset_insert held_DeliverPackets
        _ = d.held := Set.insert_eq_of_mem (mem_held_of_buffered hbuf)
        _ ⊆ _ := Set.subset_union_left
    · cases h
  | deleteSessions =>
    rw [← (Prod.mk.inj (Option.some.inj h)).1]
    exact Set.subset_union_left
  | processBufferedChlos n =>
    rw [← (Prod.mk.inj (Option.some.inj h)).1]
    exact (held_ProcessBufferedChlos n).trans Set.subset_union_left
  | timeWaitExpire c =>
    simp only [step] at h
    split at h
    · rw [← (Prod.mk.inj (Option.some.inj h)).1]
      rintro c' (hs | ht | hb)
      · exact .inl (.inl hs)
      · exact .inl (.inr (.inl (List.mem_filter.mp ht).1))
      · exact .inl (.inr (.inr hb))
    · cases h

/-! ### The sessions a call creates and closes -/

/-- The connection IDs whose sessions `session_map_.insert` keeps, in the order of the calls of
`CreateQuicSession` among `evs`. -/
def inserted (evs : List DispatcherEvent) : List Nat :=
  evs.filterMap fun | .createQuicSession c active => if active then none else some c

/-- What a call does to the sessions: `session_map_` gains the connection IDs of the sessions it
keeps, none of which it had, and `closed_session_list_` keeps its length. -/
structure Grew (d d' : GoQuicDispatcher) (evs : List DispatcherEvent) : Prop where
  sessionMap : d'.sessionMap = d.sessionMap ++ inserted evs
  nodup : d.sessionMap.Nodup → d'.sessionMap.Nodup
  closed : d'.closedSessionList = d.closedSessionList

variable {d₁ d₂ : GoQuicDispatcher} {evs evs₁ : List DispatcherEvent}

theorem inserted_append : inserted (evs ++ evs₁) = inserted evs ++ inserted evs₁ :=
  List.filterMap_append

theorem Grew.of_eq (hs : d₁.sessionMap = d.sessionMap)
    (hc : d₁.closedSessionList = d.closedSessionList) : Grew d d₁ [] :=
  ⟨by rw [hs, inserted, List.filterMap_nil, List.append_nil], fun h => hs ▸ h, hc⟩

theorem Grew.trans (h : Grew d d₁ evs) (h₁ : Grew d₁ d₂ evs₁) : Grew d d₂ (evs ++ evs₁) :=
  ⟨by rw [h₁.sessionMap, h.sessionMap, inserted_append, List.append_assoc],
    fun hn => h₁.nodup (h.nodup hn), h₁.closed.trans h.closed⟩

/-- A state with the sessions of `d₁` ends what grew from `d` as `d₁` did. -/
theorem Grew.of_eq_right (h : Grew d d₁ evs) (hs : d₂.sessionMap = d₁.sessionMap)
    (hc : d₂.closedSessionList = d₁.closedSessionList) : Grew d d₂ evs := by
  simpa using h.trans (Grew.of_eq hs hc)

/-- A state with the sessions of `d` starts what grows from it as `d` would. -/
theorem Grew.of_eq_left (hs : d₁.sessionMap = d.sessionMap)
    (hc : d₁.closedSessionList = d.closedSessionList) (h : Grew d₁ d₂ evs) : Grew d d₂ evs := by
  simpa using (Grew.of_eq hs hc).trans h

theorem grew_createSession : Grew d (d.createSession c).1 (d.createSession c).2 := by
  by_cases hc : c ∈ d.sessionMap
  · -- the insert finds the key and keeps the old session
    refine ⟨?_, fun h => ?_, rfl⟩
    · simp [createSession, inserted, hc]
    · simpa [createSession, hc] using h
  · refine ⟨?_, fun h => ?_, rfl⟩
    · simp [createSession, inserted, hc]
    · simp only [createSession, if_neg hc]
      exact List.nodup_append.mpr ⟨h, by simp, fun a ha b hb hab =>
        hc (by rw [List.mem_singleton.mp hb] at hab; exact hab ▸ ha)⟩

theorem grew_EnqueuePacket (isChlo ok : Bool) : Grew d (d.EnqueuePacket c isChlo ok) [] := by
  refine Grew.of_eq (EnqueuePacket_sessionMap isChlo ok) ?_
  unfold EnqueuePacket
  split
  · rfl
  · split <;> rfl

theorem grew_AddConnectionIdToTimeWait : Grew d (d.AddConnectionIdToTimeWait c) [] := by
  refine Grew.of_eq AddConnectionIdToTimeWait_sessionMap ?_
  unfold AddConnectionIdToTimeWait
  split <;> rfl

theorem grew_ProcessChlo (enqueueOk : Bool) :
    Grew d (d.ProcessChlo flags c enqueueOk).1 (d.ProcessChlo flags c enqueueOk).2 := by
  unfold ProcessChlo
  split
  · split
    · exact Grew.of_eq rfl rfl
    · exact grew_EnqueuePacket true enqueueOk
  · -- the new session, then its packets delivered and the allowance counted down
    refine grew_createSession.of_eq_right ?_ ?_ <;> dsimp only <;> split <;> rfl

theorem grew_ProcessUnauthenticatedHeaderFate (fate : QuicPacketFate) (enqueueOk : Bool) :
    Grew d (d.ProcessUnauthenticatedHeaderFate flags fate c enqueueOk).1
      (d.ProcessUnauthenticatedHeaderFate flags fate c enqueueOk).2 := by
  cases fate with
  | process => exact grew_ProcessChlo enqueueOk
  | timeWait =>
    simp only [ProcessUnauthenticatedHeaderFate]
    split
    · exact grew_AddConnectionIdToTimeWait
    · exact Grew.of_eq rfl rfl
  | buffer => exact grew_EnqueuePacket false enqueueOk
  | drop => exact Grew.of_eq rfl rfl

theorem grew_MaybeRejectStatelessly {p : Packet} (rejector : RejectorOutcome) (enqueueOk : Bool) :
    Grew d (d.MaybeRejectStatelessly flags p rejector enqueueOk).1
      (d.MaybeRejectStatelessly flags p rejector enqueueOk).2 := by
  -- the stateless terminator adds the connection to time-wait before the fate is applied
  have hreject : Grew d
      ((d.AddConnectionIdToTimeWait p.connectionId).ProcessUnauthenticatedHeaderFate flags
        .timeWait p.connectionId enqueueOk).1
      ((d.AddConnectionIdToTimeWait p.connectionId).ProcessUnauthenticatedHeaderFate flags
        .timeWait p.connectionId enqueueOk).2 :=
    Grew.of_eq_left AddConnectionIdToTimeWait_sessionMap grew_AddConnectionIdToTimeWait.closed
      (grew_ProcessUnauthenticatedHeaderFate _ enqueueOk)
  unfold MaybeRejectStatelessly
  split
  · split <;> exact grew_ProcessUnauthenticatedHeaderFate _ enqueueOk
  · split
    · exact grew_ProcessUnauthenticatedHeaderFate _ enqueueOk
    · split
      · exact hreject
      · split
        · exact hreject
        · exact hreject
        · exact grew_ProcessUnauthenticatedHeaderFate _ enqueueOk
        · exact grew_ProcessUnauthenticatedHeaderFate _ enqueueOk

theorem grew_ProcessPacket (p : Packet) (rejector : RejectorOutcome) (enqueueOk : Bool) :
    Grew d (d.ProcessPacket flags p rejector enqueueOk).1
      (d.ProcessPacket flags p rejector enqueueOk).2 := by
  unfold ProcessPacket OnUnauthenticatedHeader
  split
  · split
    · exact Grew.of_eq rfl rfl
    · split
      · exact grew_MaybeRejectStatelessly rejector enqueueOk
      · exact grew_ProcessUnauthenticatedHeaderFate _ enqueueOk
  · exact Grew.of_eq rfl rfl

theorem grew_processBufferedChlosLoop (n : Nat) :
    Grew d (d.processBufferedChlosLoop n).1 (d.processBufferedChlosLoop n).2 := by
  induction n generalizing d with
  | zero => exact Grew.of_eq rfl rfl
  | succ n ih =>
    rw [processBufferedChlosLoop]
    split
    · exact Grew.of_eq rfl rfl
    · next c d' hnext =>
      -- the packets delivered first, then the session created
      obtain ⟨b, -, rfl, -, rfl⟩ := DeliverPacketsForNextConnection_eq_some hnext
      exact Grew.of_eq_left DeliverPackets_sessionMap rfl (grew_createSession.trans ih)

theorem grew_ProcessBufferedChlos (n : Nat) :
    Grew d (d.ProcessBufferedChlos n).1 (d.ProcessBufferedChlos n).2 := by
  unfold ProcessBufferedChlos
  dsimp only
  split
  · exact Grew.of_eq rfl rfl
  · exact grew_processBufferedChlosLoop _

/-- A step of the dispatcher on a packet, an expiry or the buffered CHLOs grows its sessions;
only a session that closes and the deletion of the closed ones take any away. -/
theorem grew_step {l : DispatcherLabel} (h : step flags d l = some (d', evs))
    (hc : ∀ c, l ≠ .onConnectionClosed c) (hd : l ≠ .deleteSessions) : Grew d d' evs := by
  cases l with
  | processPacket p rejector enqueueOk =>
    obtain ⟨rfl, rfl⟩ := Prod.mk.inj (Option.some.inj h).symm
    exact grew_ProcessPacket p rejector enqueueOk
  | onConnectionClosed c => exact absurd rfl (hc c)
  | expireBuffered c =>
    simp only [step] at h
    split at h
    · obtain ⟨rfl, rfl⟩ := Prod.mk.inj (Option.some.inj h).symm
      exact Grew.of_eq_left DeliverPackets_sessionMap rfl grew_AddConnectionIdToTimeWait
    · cases h
  | deleteSessions => exact absurd rfl hd
  | processBufferedChlos n =>
    obtain ⟨rfl, rfl⟩ := Prod.mk.inj (Option.some.inj h).symm
    exact grew_ProcessBufferedChlos n
  | timeWaitExpire c =>
    simp only [step] at h
    split at h
    · obtain ⟨rfl, rfl⟩ := Prod.mk.inj (Option.some.inj h).symm
      exact Grew.of_eq rfl rfl
    · cases h

/-- A session that closes leaves `session_map_`, and `closed_session_list_` gains an entry. -/
theorem OnConnectionClosed_of_mem (h : c ∈ d.sessionMap) :
    (d.OnConnectionClosed c).sessionMap = d.sessionMap.filter (· ≠ c) ∧
      (d.OnConnectionClosed c).closedSessionList = d.closedSessionList + 1 := by
  refine ⟨by simp [OnConnectionClosed, h], ?_⟩
  simp only [OnConnectionClosed, h, not_true_eq_false, if_false]
  exact grew_AddConnectionIdToTimeWait.closed

theorem OnConnectionClosed_of_not_mem (h : c ∉ d.sessionMap) : d.OnConnectionClosed c = d :=
  if_pos h

/-! ### The dispatcher as goquic drives it -/

/-- What a call that creates no session leaves: `session_map_` and
`new_sessions_allowed_per_event_loop_` as they were, and no event. -/
structure NoSession (d : GoQuicDispatcher) (r : GoQuicDispatcher × List DispatcherEvent) :
    Prop where
  sessionMap : r.1.sessionMap = d.sessionMap
  allowed : r.1.newSessionsAllowedPerEventLoop = d.newSessionsAllowedPerEventLoop
  events : r.2 = []

theorem noSession_self : NoSession d (d, []) := ⟨rfl, rfl, rfl⟩

theorem NoSession.trans {r : GoQuicDispatcher × List DispatcherEvent} (h : NoSession d (d₁, []))
    (h₁ : NoSession d₁ r) : NoSession d r :=
  ⟨h₁.sessionMap.trans h.sessionMap, h₁.allowed.trans h.allowed, h₁.events⟩

theorem noSession_EnqueuePacket (isChlo ok : Bool) :
    NoSession d (d.EnqueuePacket c isChlo ok, []) := by
  refine ⟨EnqueuePacket_sessionMap isChlo ok, ?_, rfl⟩
  unfold EnqueuePacket
  split
  · rfl
  · split <;> rfl

theorem noSession_AddConnectionIdToTimeWait : NoSession d (d.AddConnectionIdToTimeWait c, []) := by
  refine ⟨AddConnectionIdToTimeWait_sessionMap, ?_, rfl⟩
  unfold AddConnectionIdToTimeWait
  split <;> rfl

section Held

variable (hh : flags.holdsChlos = true) (ha : d.newSessionsAllowedPerEventLoop ≤ 0)
include hh ha

/-- With both flags on and no new session allowed, `ProcessChlo` buffers the CHLO. -/
theorem noSession_ProcessChlo (enqueueOk : Bool) :
    NoSession d (d.ProcessChlo flags c enqueueOk) := by
  have hon : flags.limitNumNewSessionsPerEpollLoop = true ∧ flags.bufferPacketTillChlo = true := by
    simpa [Flags.holdsChlos] using hh
  unfold ProcessChlo
  split
  · split
    · exact noSession_self
    · exact noSession_EnqueuePacket true enqueueOk
  · next hn =>
    simp only [hon.1, hon.2, Bool.true_and, decide_eq_true_eq] at hn
    exact absurd ha hn

theorem noSession_ProcessUnauthenticatedHeaderFate (fate : QuicPacketFate) (enqueueOk : Bool) :
    NoSession d (d.ProcessUnauthenticatedHeaderFate flags fate c enqueueOk) := by
  cases fate with
  | process => exact noSession_ProcessChlo hh ha enqueueOk
  | timeWait =>
    simp only [ProcessUnauthenticatedHeaderFate]
    split
    · exact noSession_AddConnectionIdToTimeWait
    · exact noSession_self
  | buffer => exact noSession_EnqueuePacket false enqueueOk
  | drop => exact noSession_self

theorem noSession_MaybeRejectStatelessly {p : Packet} (rejector : RejectorOutcome)
    (enqueueOk : Bool) : NoSession d (d.MaybeRejectStatelessly flags p rejector enqueueOk) := by
  -- the stateless terminator adds the connection to time-wait before the fate is applied
  have hadd : NoSession d (d.AddConnectionIdToTimeWait p.connectionId, []) :=
    noSession_AddConnectionIdToTimeWait
  have ha' : (d.AddConnectionIdToTimeWait p.connectionId).newSessionsAllowedPerEventLoop ≤ 0 := by
    rw [hadd.allowed]
    exact ha
  have hreject : NoSession d
      ((d.AddConnectionIdToTimeWait p.connectionId).ProcessUnauthenticatedHeaderFate flags
        .timeWait p.connectionId enqueueOk) :=
    hadd.trans (noSession_ProcessUnauthenticatedHeaderFate hh ha' _ enqueueOk)
  unfold MaybeRejectStatelessly
  split
  · split <;> exact noSession_ProcessUnauthenticatedHeaderFate hh ha _ enqueueOk
  · split
    · exact noSession_ProcessUnauthenticatedHeaderFate hh ha _ enqueueOk
    · split
      · exact hreject
      · split
        · exact hreject
        · exact hreject
        · exact noSession_ProcessUnauthenticatedHeaderFate hh ha _ enqueueOk
        · exact noSession_ProcessUnauthenticatedHeaderFate hh ha _ enqueueOk

theorem noSession_ProcessPacket (p : Packet) (rejector : RejectorOutcome) (enqueueOk : Bool) :
    NoSession d (d.ProcessPacket flags p rejector enqueueOk) := by
  unfold ProcessPacket OnUnauthenticatedHeader
  split
  · split
    · exact noSession_self
    · split
      · exact noSession_MaybeRejectStatelessly hh ha rejector enqueueOk
      · exact noSession_ProcessUnauthenticatedHeaderFate hh ha _ enqueueOk
  · exact noSession_self

/-- With both flags on and no new session allowed, a step other than `ProcessBufferedChlos` on a
dispatcher without sessions creates none: only `ProcessBufferedChlos` raises the allowance. -/
theorem noSession_step (hs : d.sessionMap = []) {l : DispatcherLabel}
    (hl : l.isProcessBufferedChlos = false) (h : step flags d l = some (d', evs)) :
    NoSession d (d', evs) := by
  cases l with
  | processPacket p rejector enqueueOk =>
    rw [← Option.some.inj h]
    exact noSession_ProcessPacket hh ha p rejector enqueueOk
  | onConnectionClosed c =>
    rw [← Option.some.inj h, OnConnectionClosed_of_not_mem (by simp [hs])]
    exact noSession_self
  | expireBuffered c =>
    simp only [step] at h
    split at h
    · rw [← Option.some.inj h]
      -- the store drops the packets, then the connection goes to time-wait
      exact (⟨rfl, rfl, rfl⟩ : NoSession d (d.DeliverPackets c, [])).trans
        noSession_AddConnectionIdToTimeWait
    · cases h
  | deleteSessions =>
    rw [← Option.some.inj h]
    exact ⟨rfl, rfl, rfl⟩
  | processBufferedChlos n => simp [DispatcherLabel.isProcessBufferedChlos] at hl
  | timeWaitExpire c =>
    simp only [step] at h
    split at h
    · rw [← Option.some.inj h]
      exact ⟨rfl, rfl, rfl⟩
    · cases h

end Held

/-- With `FLAGS_quic_limit_num_new_sessions_per_epoll_loop` and `FLAGS_quic_buffer_packet_till_chlo`
on, the dispatcher as goquic drives it never calls `CreateQuicSession`:
`new_sessions_allowed_per_event_loop_` starts at 0 and nothing but `ProcessBufferedChlos` raises
it, so `ProcessChlo` buffers every CHLO. -/
theorem goquic_no_sessions (hh : flags.holdsChlos = true) {tr : List DispatcherEvent}
    (h : (goquicSystem flags).Reach d tr) :
    d.sessionMap = [] ∧ d.newSessionsAllowedPerEventLoop ≤ 0 ∧ tr = [] := by
  refine h.induction_on
    (P := fun d tr => d.sessionMap = [] ∧ d.newSessionsAllowedPerEventLoop ≤ 0 ∧ tr = [])
    ⟨rfl, show new.newSessionsAllowedPerEventLoop ≤ 0 by decide, rfl⟩ ?_
  rintro d tr l d' evs - ⟨hs, ha, rfl⟩ hstep
  obtain ⟨hl, hstep⟩ := Lts.restrict_step_eq_some hstep
  have hq := noSession_step hh ha hs hl hstep
  exact ⟨hq.sessionMap.trans hs, hq.allowed ▸ ha, by simpa using hq.events⟩

/-- On every run of the dispatcher as goquic drives it, for every setting of the flags: no
session's connection ID is in time-wait, none has buffered packets, and `CreateQuicSession` is
never called for a connection ID that has a session, so `session_map_.insert` discards none. -/
theorem sessions_apart {tr : List DispatcherEvent} (h : (goquicSystem flags).Reach d tr) :
    (∀ c ∈ d.sessionMap, d.IsConnectionIdInTimeWait c = false) ∧
      (∀ c ∈ d.sessionMap, d.HasBufferedPackets c = false) ∧
      ∀ c, DispatcherEvent.createQuicSession c true ∉ tr := by
  have hr : (system flags).Reach d tr := h.of_restrict
  refine ⟨?_, sessions_unbuffered hr, createSession_fresh hr⟩
  cases hh : flags.holdsChlos
  · exact sessions_not_in_timeWait hh hr
  · -- with both flags on there is no session at all
    rw [(goquic_no_sessions hh h).1]
    exact fun c hc => absurd hc List.not_mem_nil

/-- One CHLO with every flag off: the dispatcher creates its session at once, outside time-wait and
with nothing buffered. -/
theorem sessions_apart_one_chlo : ∃ d tr, (goquicSystem ⟨false, false, false, false⟩).Reach d tr ∧
    d.sessionMap = [1] ∧
    (∀ c ∈ d.sessionMap, d.IsConnectionIdInTimeWait c = false) ∧
      (∀ c ∈ d.sessionMap, d.HasBufferedPackets c = false) ∧
      ∀ c, DispatcherEvent.createQuicSession c true ∉ tr := by
  have hrun : (goquicSystem ⟨false, false, false, false⟩).run new
      [.processPacket ⟨1, false, true, false, true, true, true, true, 1, true⟩
          ⟨true, .accepted⟩ true] =
      some (⟨[1], [], [], 0, 0⟩, [.createQuicSession 1 false]) := by
    decide +kernel
  have hr := Lts.Reach.of_run hrun
  exact ⟨_, _, hr, rfl, sessions_apart hr⟩

end GoQuicDispatcher

end GoQuic
