import Mathlib.Data.Nat.Log
import Mathlib.Order.Interval.Finset.Nat
import GoQuic.Container.LinkedHashMap
import GoQuic.Trace.Reach

/-!
# The time-wait list

`GoQuicTimeWaitListManager` (`go_quic_time_wait_list_manager.cc`) keeps the connection IDs in
time-wait in a `linked_hash_map`, each with the number of packets received for it, its version,
the time it was added and the packets to answer it with. `AddConnectionIdToTimeWait` (`94–123`)
erases a re-added ID and appends it with the current time, once `TrimTimeWaitListIfNeeded`
(`310–318`) has made room. `CleanUpOldConnectionIds` (`300–308`) retires the oldest entries while
they are older than `time_wait_period_`, and `SetConnectionIdCleanUpAlarm` (`262–282`) sets the
alarm for the oldest entry left. Times are `QuicTime` microseconds; every read of
`clock_->ApproximateNow()` is an argument, and the clock never goes back.

On every run the entries are in the order of the time they were added (`timeAdded_sorted`), and a
cleanup at `now` removes exactly the entries added at `now - time_wait_period_` or earlier and
leaves the others as they were (`cleanUp_removes_expired`). As long as a cleanup reads the clock
once, the alarm is no later than the expiry of every entry (`alarm_bound`). But
`SetConnectionIdCleanUpAlarm` reads the clock again to set the deadline, so a clock that moves
between the reads sets the alarm later than that (`alarm_after_expiry`).

With a limit of 1 or more, adding retires only the oldest entries and leaves at most the limit
(`AddConnectionIdToTimeWait_bounded`). The guard of `TrimTimeWaitListIfNeeded` lets a limit of 0
through, and then the trim never ends, since `MaybeExpireOldestConnection` retires nothing from
an empty map (`trim_diverges_at_zero`). A re-added ID carries its packet count over, every other
step keeps the count of an ID it leaves in time-wait (`numPacketsOf_step`), and so the `k`-th packet
since the ID entered is answered exactly when `k` is a power of 2 (`response_iff_isPowerOfTwo`).
-/

namespace GoQuic

open scoped List

/-- `ConnectionIdData` (`go_quic_time_wait_list_manager.h:151–169`); versions and packets are
opaque. -/
structure ConnectionIdData where
  numPackets : Nat
  version : Nat
  timeAdded : Int
  terminationPackets : List Nat
  connectionRejectedStatelessly : Bool
  deriving DecidableEq, Repr

/-- `ConnectionIdMap`: connection IDs in the order they were added. -/
abbrev ConnectionIdMap := LinkedHashMap Nat ConnectionIdData

/-- What the manager sends back for a packet in time-wait. -/
inductive TimeWaitResponse where
  | terminationPacket (packet : Nat)
  | publicReset (connectionId packetNumber : Nat)
  deriving DecidableEq, Repr

/-- The manager's state: the map, the deadline of `connection_id_clean_up_alarm_`, and the
latest reading of the clock. -/
structure GoQuicTimeWaitListManager where
  connectionIdMap : ConnectionIdMap
  alarm : Int
  clock : Int

namespace GoQuicTimeWaitListManager

/-- `MaybeExpireOldestConnection` (`284–298`): whether the oldest entry was retired, and the map
after. `none` is `QuicTime::Infinite()`, after every time. -/
def MaybeExpireOldestConnection (m : ConnectionIdMap) (expirationTime : Option Int) :
    Bool × ConnectionIdMap :=
  match m.front? with
  | none => (false, m)
  | some (_, data) =>
    -- too recent, don't retire
    if expirationTime.any (data.timeAdded > ·) then (false, m) else (true, m.popFront)

/-- When `MaybeExpireOldestConnection` retires an entry, it is the oldest, and it is not too
recent. -/
theorem MaybeExpireOldestConnection_of_fst {m : ConnectionIdMap} {e : Option Int}
    (h : (MaybeExpireOldestConnection m e).1 = true) :
    ∃ k data, m.front? = some (k, data) ∧ e.any (data.timeAdded > ·) = false ∧
      (MaybeExpireOldestConnection m e).2 = m.popFront := by
  unfold MaybeExpireOldestConnection at h ⊢
  cases hf : m.front? with
  | none => simp [hf] at h
  | some entry =>
    obtain ⟨k, data⟩ := entry
    simp only [hf] at h ⊢
    by_cases ht : e.any (data.timeAdded > ·) = true
    · simp [ht] at h
    · simp only [ht]
      exact ⟨k, data, rfl, by simpa using ht, rfl⟩

theorem size_lt_of_MaybeExpireOldestConnection {m : ConnectionIdMap} {e : Option Int}
    (h : (MaybeExpireOldestConnection m e).1 = true) :
    (MaybeExpireOldestConnection m e).2.size < m.size := by
  obtain ⟨k, data, hf, -, he⟩ := MaybeExpireOldestConnection_of_fst h
  rw [he]
  apply LinkedHashMap.size_popFront_lt
  intro hnil
  simp [LinkedHashMap.front?, hnil] at hf

/-- The loop of `CleanUpOldConnectionIds`: `while (MaybeExpireOldestConnection(expiration)) {}`. -/
def cleanUpLoop (expiration : Int) (m : ConnectionIdMap) : ConnectionIdMap :=
  if _ : (MaybeExpireOldestConnection m (some expiration)).1 then
    cleanUpLoop expiration (MaybeExpireOldestConnection m (some expiration)).2
  else m
termination_by m.size
decreasing_by exact size_lt_of_MaybeExpireOldestConnection ‹_›

/-- The loop of `TrimTimeWaitListIfNeeded` for a limit that is not negative: retire the oldest
entry while there are at least `maxConnections`. `none` when the loop never ends: with a limit of
0, once the map is empty. -/
def trimLoop (maxConnections : Nat) (m : ConnectionIdMap) : Option ConnectionIdMap :=
  if m.size ≥ maxConnections then
    if _ : (MaybeExpireOldestConnection m none).1 then
      trimLoop maxConnections (MaybeExpireOldestConnection m none).2
    else none
  else some m
termination_by m.size
decreasing_by exact size_lt_of_MaybeExpireOldestConnection ‹_›

/-- `TrimTimeWaitListIfNeeded` (`310–318`) with `FLAGS_quic_time_wait_list_max_connections`. -/
def TrimTimeWaitListIfNeeded (maxConnections : Int) (m : ConnectionIdMap) :
    Option ConnectionIdMap :=
  if maxConnections < 0 then some m else trimLoop maxConnections.toNat m

/-- `ShouldSendResponse` (`199–201`): whether the count is a power of 2. -/
def ShouldSendResponse (receivedPacketCount : Nat) : Bool :=
  receivedPacketCount &&& (receivedPacketCount - 1) = 0

/-- `IsConnectionIdInTimeWait` (`124–127`). -/
def IsConnectionIdInTimeWait (s : GoQuicTimeWaitListManager) (connectionId : Nat) : Bool :=
  (s.connectionIdMap.find? connectionId).isSome

/-- The packet count of a connection ID, 0 when it is absent: the `num_packets` that
`AddConnectionIdToTimeWait` reads before it erases the ID. -/
def numPacketsOf (s : GoQuicTimeWaitListManager) (connectionId : Nat) : Nat :=
  ((s.connectionIdMap.find? connectionId).map (·.numPackets)).getD 0

section Manager

variable (timeWaitPeriod maxConnections : Int)

/-- `AddConnectionIdToTimeWait` (`94–123`) at clock reading `now`; `none` when trimming never
ends. A re-added ID keeps its packet count and moves to the end. -/
def AddConnectionIdToTimeWait (s : GoQuicTimeWaitListManager) (connectionId version : Nat)
    (connectionRejectedStatelessly : Bool) (terminationPackets : Option (List Nat)) (now : Int) :
    Option GoQuicTimeWaitListManager :=
  let r : Nat × ConnectionIdMap := match s.connectionIdMap.find? connectionId with
    | none => (0, s.connectionIdMap)
    | some data => (data.numPackets, s.connectionIdMap.erase connectionId)
  (TrimTimeWaitListIfNeeded maxConnections r.2).map fun m =>
    { s with
      connectionIdMap := m.emplace connectionId
        ⟨r.1, version, now, terminationPackets.getD [], connectionRejectedStatelessly⟩
      clock := now }

/-- `ProcessPacket` (`148–183`) for a connection ID in time-wait: count the packet, and at every
power of 2 answer with the termination packets, or with a public reset if there are none. The
writer's queue is not modelled: what is sent or queued is the response. -/
def ProcessPacket (s : GoQuicTimeWaitListManager) (connectionId packetNumber : Nat) :
    Option (GoQuicTimeWaitListManager × List TimeWaitResponse) :=
  match s.connectionIdMap.find? connectionId with
  -- `DCHECK(it != connection_id_map_.end())`
  | none => none
  | some data =>
    let numPackets := data.numPackets + 1
    let s := { s with
      connectionIdMap := s.connectionIdMap.modify connectionId fun d =>
        { d with numPackets := numPackets } }
    if !ShouldSendResponse numPackets then some (s, [])
    else if !data.terminationPackets.isEmpty then
      some (s, data.terminationPackets.map .terminationPacket)
    else some (s, [.publicReset connectionId packetNumber])

/-- `SetConnectionIdCleanUpAlarm` (`262–282`), reading the clock at `nowA` for the interval and
again at `nowB` for the deadline. -/
def SetConnectionIdCleanUpAlarm (s : GoQuicTimeWaitListManager) (nowA nowB : Int) :
    GoQuicTimeWaitListManager :=
  let nextAlarmInterval := match s.connectionIdMap.front? with
    | none => timeWaitPeriod
    | some (_, data) =>
      if nowA - data.timeAdded < timeWaitPeriod then data.timeAdded + timeWaitPeriod - nowA
      -- lingered for longer than `time_wait_period_`
      else 0
  { s with alarm := nowB + nextAlarmInterval, clock := nowB }

/-- `CleanUpOldConnectionIds` (`300–308`), reading the clock at `now`, then at `nowA` and `nowB`
when it sets the alarm. -/
def CleanUpOldConnectionIds (s : GoQuicTimeWaitListManager) (now nowA nowB : Int) :
    GoQuicTimeWaitListManager :=
  let expiration := now - timeWaitPeriod
  SetConnectionIdCleanUpAlarm timeWaitPeriod
    { s with connectionIdMap := cleanUpLoop expiration s.connectionIdMap, clock := now } nowA nowB

/-- The constructor (`74–88`) at clock reading `now`: an empty map, and the alarm set. The alarm
field before `SetConnectionIdCleanUpAlarm` is never read. -/
def new (now : Int) : GoQuicTimeWaitListManager :=
  SetConnectionIdCleanUpAlarm timeWaitPeriod ⟨LinkedHashMap.empty, now, now⟩ now now

end Manager

end GoQuicTimeWaitListManager

/-- What drives the manager. -/
inductive TimeWaitLabel where
  | addConnectionIdToTimeWait (connectionId version : Nat) (connectionRejectedStatelessly : Bool)
      (terminationPackets : Option (List Nat)) (now : Int)
  | processPacket (connectionId packetNumber : Nat)
  | trimTimeWaitListIfNeeded
  /-- The cleanup alarm fires, or the cleanup is called directly. -/
  | cleanUpOldConnectionIds (now nowA nowB : Int)
  deriving DecidableEq, Repr

/-- The cleanups that read the same time at each of their reads of the clock. -/
def TimeWaitLabel.readsClockOnce : TimeWaitLabel → Bool
  | .cleanUpOldConnectionIds now nowA nowB => nowA == now && nowB == now
  | _ => true

/-- The packets for connection ID `c`. -/
def TimeWaitLabel.isPacketOf (c : Nat) : TimeWaitLabel → Bool
  | .processPacket connectionId _ => connectionId == c
  | _ => false

namespace GoQuicTimeWaitListManager

variable (timeWaitPeriod maxConnections : Int)

/-- One step of the manager; the clock readings never go back. -/
def step (s : GoQuicTimeWaitListManager) :
    TimeWaitLabel → Option (GoQuicTimeWaitListManager × List TimeWaitResponse)
  | .addConnectionIdToTimeWait c version rejected packets now =>
    if s.clock ≤ now then
      (s.AddConnectionIdToTimeWait maxConnections c version rejected packets now).map (·, [])
    else none
  | .processPacket c packetNumber => s.ProcessPacket c packetNumber
  | .trimTimeWaitListIfNeeded =>
    (TrimTimeWaitListIfNeeded maxConnections s.connectionIdMap).map fun m =>
      ({ s with connectionIdMap := m }, [])
  | .cleanUpOldConnectionIds now nowA nowB =>
    if s.clock ≤ now ∧ now ≤ nowA ∧ nowA ≤ nowB then
      some (s.CleanUpOldConnectionIds timeWaitPeriod now nowA nowB, [])
    else none

/-- The manager as a system, constructed at clock reading `start`. -/
def system (start : Int) : Lts GoQuicTimeWaitListManager TimeWaitLabel TimeWaitResponse :=
  ⟨new timeWaitPeriod start, step timeWaitPeriod maxConnections⟩

/-! ### The loops -/

variable {m m' : ConnectionIdMap}

/-- When `MaybeExpireOldestConnection` retires nothing, the oldest entry, if any, is too recent. -/
theorem MaybeExpireOldestConnection_of_not_fst {e : Option Int}
    (h : ¬(MaybeExpireOldestConnection m e).1 = true) :
    (MaybeExpireOldestConnection m e).2 = m ∧ ∀ x ∈ m.front?, e.any (x.2.timeAdded > ·) = true := by
  unfold MaybeExpireOldestConnection at h ⊢
  cases hf : m.front? with
  | none => simp
  | some entry =>
    obtain ⟨k, data⟩ := entry
    simp only [hf] at h ⊢
    by_cases ht : e.any (data.timeAdded > ·) = true
    · simp [ht]
    · simp [ht] at h

theorem eq_cons_of_front? {x : Nat × ConnectionIdData} (h : m.front? = some x) :
    m.entries = x :: m.popFront.entries :=
  List.eq_cons_of_mem_head? h

/-- The cleanup loop erases the oldest entries while they were added at `expiration` or
earlier. -/
theorem cleanUpLoop_entries (expiration : Int) (m : ConnectionIdMap) :
    (cleanUpLoop expiration m).entries =
      m.entries.dropWhile fun x => decide (x.2.timeAdded ≤ expiration) := by
  induction m using cleanUpLoop.induct expiration with
  | case1 m h ih =>
    obtain ⟨k, data, hf, hlate, he⟩ := MaybeExpireOldestConnection_of_fst h
    -- the oldest entry was added at `expiration` or earlier
    rw [cleanUpLoop, dif_pos h, ih, he, eq_cons_of_front? hf, List.dropWhile_cons_of_pos]
    simpa using hlate
  | case2 m h =>
    obtain ⟨-, hearly⟩ := MaybeExpireOldestConnection_of_not_fst h
    rw [cleanUpLoop, dif_neg h]
    cases hm : m.entries with
    | nil => rfl
    | cons x rest =>
      have hx : x ∈ m.front? := by simp [LinkedHashMap.front?, hm]
      rw [List.dropWhile_cons_of_neg]
      simpa using hearly x hx

/-- The trim loop with limit 0 never ends. -/
theorem trimLoop_zero (m : ConnectionIdMap) : trimLoop 0 m = none := by
  induction m using trimLoop.induct 0 with
  | case1 m hge h ih =>
    rw [trimLoop, if_pos hge, dif_pos h, ih]
  | case2 m hge h =>
    rw [trimLoop, if_pos hge, dif_neg h]
  | case3 m hlt =>
    exact absurd (Nat.zero_le _) hlt

theorem MaybeExpireOldestConnection_none_fst (h : m.entries ≠ []) :
    (MaybeExpireOldestConnection m none).1 = true := by
  obtain ⟨x, rest, hm⟩ := List.exists_cons_of_ne_nil h
  simp [MaybeExpireOldestConnection, LinkedHashMap.front?, hm]

/-- With a positive limit the trim loop ends. -/
theorem trimLoop_isSome {n : Nat} (hn : 0 < n) (m : ConnectionIdMap) : (trimLoop n m).isSome := by
  induction m using trimLoop.induct n with
  | case1 m hge h ih =>
    rw [trimLoop, if_pos hge, dif_pos h]
    exact ih
  | case2 m hge h =>
    -- at least `n` entries, so there is an oldest one to retire
    have hne : m.entries ≠ [] := fun hnil => by
      simp only [LinkedHashMap.size, hnil, List.length_nil] at hge
      omega
    exact absurd (MaybeExpireOldestConnection_none_fst hne) h
  | case3 m hlt =>
    rw [trimLoop, if_neg hlt]
    rfl

/-- What the trim loop leaves is a suffix of the entries, with fewer than `n` of them. -/
theorem trimLoop_suffix {n : Nat} (h : trimLoop n m = some m') :
    m'.entries <:+ m.entries ∧ m'.size < n := by
  induction m using trimLoop.induct n with
  | case1 m hge hfst ih =>
    rw [trimLoop, if_pos hge, dif_pos hfst] at h
    obtain ⟨hsuf, hsize⟩ := ih h
    obtain ⟨-, -, -, -, he⟩ := MaybeExpireOldestConnection_of_fst hfst
    rw [he] at hsuf
    exact ⟨hsuf.trans (List.tail_suffix _), hsize⟩
  | case2 m hge hfst =>
    rw [trimLoop, if_pos hge, dif_neg hfst] at h
    cases h
  | case3 m hlt =>
    rw [trimLoop, if_neg hlt, Option.some.injEq] at h
    subst h
    exact ⟨List.suffix_refl _, Nat.lt_of_not_ge hlt⟩

/-- `TrimTimeWaitListIfNeeded` returns exactly when the limit is not 0. -/
theorem TrimTimeWaitListIfNeeded_eq_none_iff (maxConnections : Int) (m : ConnectionIdMap) :
    TrimTimeWaitListIfNeeded maxConnections m = none ↔ maxConnections = 0 := by
  unfold TrimTimeWaitListIfNeeded
  split
  · next hneg =>
    simp only [reduceCtorEq, false_iff]
    omega
  · next hnn =>
    by_cases h0 : maxConnections = 0
    · simp only [h0, Int.toNat_zero, trimLoop_zero]
    · have hpos : 0 < maxConnections.toNat := by omega
      simp only [h0, iff_false, ← Option.isSome_iff_ne_none]
      exact trimLoop_isSome hpos m

/-- When it returns, `TrimTimeWaitListIfNeeded` leaves a suffix of the entries, with room for one
more under a limit that is not negative (the `DCHECK_LT` after it). -/
theorem TrimTimeWaitListIfNeeded_suffix {maxConnections : Int}
    (h : TrimTimeWaitListIfNeeded maxConnections m = some m') :
    m'.entries <:+ m.entries ∧ (0 ≤ maxConnections → m'.size < maxConnections) := by
  unfold TrimTimeWaitListIfNeeded at h
  split at h
  · next hneg =>
    rw [Option.some.injEq] at h
    subst h
    exact ⟨List.suffix_refl _, fun hnn => absurd hnn (by omega)⟩
  · obtain ⟨hsuf, hsize⟩ := trimLoop_suffix h
    exact ⟨hsuf, fun _ => by omega⟩

/-! ### Adding at every limit -/

/-- `AddConnectionIdToTimeWait` trims the map without the ID, then appends the ID with the packet
count it had. -/
theorem AddConnectionIdToTimeWait_eq (s : GoQuicTimeWaitListManager) (c version : Nat)
    (rejected : Bool) (packets : Option (List Nat)) (now : Int) :
    s.AddConnectionIdToTimeWait maxConnections c version rejected packets now =
      (TrimTimeWaitListIfNeeded maxConnections (s.connectionIdMap.erase c)).map fun m =>
        { s with
          connectionIdMap := m.emplace c ⟨s.numPacketsOf c, version, now, packets.getD [], rejected⟩
          clock := now } := by
  unfold AddConnectionIdToTimeWait numPacketsOf
  cases hf : s.connectionIdMap.find? c with
  | none =>
    -- a new ID: erasing it changes nothing
    rw [LinkedHashMap.erase_of_find?_eq_none hf]
    rfl
  | some data => rfl

/-- With `FLAGS_quic_time_wait_list_max_connections` at 0, which the guard lets through, the trim
never ends on any map: once the map is empty, `MaybeExpireOldestConnection` retires nothing and
`num_connections() >= 0` still holds. So no `AddConnectionIdToTimeWait` returns. -/
theorem trim_diverges_at_zero (m : ConnectionIdMap) (s : GoQuicTimeWaitListManager)
    (c version : Nat) (rejected : Bool) (packets : Option (List Nat)) (now : Int) :
    TrimTimeWaitListIfNeeded 0 m = none ∧
      s.AddConnectionIdToTimeWait 0 c version rejected packets now = none := by
  have htrim : ∀ m, TrimTimeWaitListIfNeeded 0 m = none := fun m =>
    (TrimTimeWaitListIfNeeded_eq_none_iff 0 m).mpr rfl
  refine ⟨htrim m, ?_⟩
  rw [AddConnectionIdToTimeWait_eq, htrim]
  rfl

/-- An ID is in no suffix of the entries left once it is erased. -/
theorem not_mem_of_suffix_erase {c : Nat} (h : m'.entries <:+ (m.erase c).entries) :
    c ∉ m'.entries.map Prod.fst := fun hc =>
  LinkedHashMap.find?_eq_none_iff.mp LinkedHashMap.find?_erase_self
    ((h.sublist.map Prod.fst).subset hc)

/-- With a limit of 1 or more, adding returns. It retires only the oldest entries, and the map
holds at most the limit after, the new entry last. -/
theorem AddConnectionIdToTimeWait_bounded (hmc : 1 ≤ maxConnections) (s : GoQuicTimeWaitListManager)
    (c version : Nat) (rejected : Bool) (packets : Option (List Nat)) (now : Int) :
    ∃ m, TrimTimeWaitListIfNeeded maxConnections (s.connectionIdMap.erase c) = some m ∧
      m.entries <:+ (s.connectionIdMap.erase c).entries ∧
      ∃ s', s.AddConnectionIdToTimeWait maxConnections c version rejected packets now = some s' ∧
        s'.connectionIdMap.entries =
          m.entries ++ [(c, ⟨s.numPacketsOf c, version, now, packets.getD [], rejected⟩)] ∧
        s'.connectionIdMap.size ≤ maxConnections := by
  have hsome : TrimTimeWaitListIfNeeded maxConnections (s.connectionIdMap.erase c) ≠ none := by
    rw [ne_eq, TrimTimeWaitListIfNeeded_eq_none_iff]
    omega
  obtain ⟨m, hm⟩ := Option.ne_none_iff_exists'.mp hsome
  obtain ⟨hsuf, hsize⟩ := TrimTimeWaitListIfNeeded_suffix hm
  -- the ID is not among the entries kept, so `emplace` appends it
  have hentries := LinkedHashMap.entries_emplace_of_not_mem
    (v := ⟨s.numPacketsOf c, version, now, packets.getD [], rejected⟩)
    (not_mem_of_suffix_erase hsuf)
  refine ⟨m, hm, hsuf, _, by rw [AddConnectionIdToTimeWait_eq, hm]; rfl, hentries, ?_⟩
  have hlt := hsize (by omega)
  simp only [LinkedHashMap.size] at hlt ⊢
  rw [hentries, List.length_append, List.length_singleton]
  omega

/-- With a limit of 1, adding a second ID retires the first. -/
theorem AddConnectionIdToTimeWait_bounded_at_one :
    ∃ s, (new 200000000 0).AddConnectionIdToTimeWait 1 1 0 false none 1 = some s ∧
      (1 : Int) ≤ 1 ∧
      ∃ m, TrimTimeWaitListIfNeeded 1 (s.connectionIdMap.erase 2) = some m ∧
        m.entries <:+ (s.connectionIdMap.erase 2).entries ∧
        ∃ s', s.AddConnectionIdToTimeWait 1 2 0 false none 5 = some s' ∧
          s'.connectionIdMap.entries = m.entries ++ [(2, ⟨s.numPacketsOf 2, 0, 5, [], false⟩)] ∧
          (s'.connectionIdMap.size : Int) ≤ 1 := by
  have hadd : ((new 200000000 0).AddConnectionIdToTimeWait 1 1 0 false none 1).isSome = true := by
    decide +kernel
  obtain ⟨s, hs⟩ := Option.isSome_iff_exists.mp hadd
  exact ⟨s, hs, le_refl 1,
    AddConnectionIdToTimeWait_bounded 1 (le_refl 1) s 2 0 false none 5⟩

/-! ### The times of the entries -/

/-- The times the entries were added, oldest entry first. -/
def times (m : ConnectionIdMap) : List Int := m.entries.map (·.2.timeAdded)

theorem times_sublist (h : m'.entries <+ m.entries) : times m' <+ times m :=
  h.map _

theorem times_emplace_sublist (k : Nat) (data : ConnectionIdData) :
    times (m.emplace k data) <+ times m ++ [data.timeAdded] := by
  unfold LinkedHashMap.emplace
  split
  · exact List.sublist_append_left _ _
  · simp [times]

theorem times_modify {k : Nat} {f : ConnectionIdData → ConnectionIdData}
    (hf : ∀ d, (f d).timeAdded = d.timeAdded) : times (m.modify k f) = times m := by
  simp only [times, LinkedHashMap.entries_modify, List.map_map]
  apply List.map_congr_left
  intro e _
  by_cases h : e.1 = k <;> simp [h, hf]

variable {s s' : GoQuicTimeWaitListManager} {evs : List TimeWaitResponse}

/-- Adding keeps the alarm, reads the clock at `now`, and leaves the old times, some of them
trimmed, then `now`. -/
theorem AddConnectionIdToTimeWait_eq_some {c version : Nat} {rejected : Bool}
    {packets : Option (List Nat)} {now : Int}
    (h : s.AddConnectionIdToTimeWait maxConnections c version rejected packets now = some s') :
    times s'.connectionIdMap <+ times s.connectionIdMap ++ [now] ∧ s'.alarm = s.alarm ∧
      s'.clock = now := by
  unfold AddConnectionIdToTimeWait at h
  obtain ⟨m', hm', rfl⟩ := Option.map_eq_some_iff.mp h
  -- a re-added ID was erased first
  have hsub : m'.entries <+ s.connectionIdMap.entries := by
    split at hm'
    · exact (TrimTimeWaitListIfNeeded_suffix hm').1.sublist
    · exact (TrimTimeWaitListIfNeeded_suffix hm').1.sublist.trans List.filter_sublist
  exact ⟨(times_emplace_sublist _ _).trans ((times_sublist hsub).append_right _), rfl, rfl⟩

/-- `ProcessPacket` changes only the packet count of the entry. -/
theorem ProcessPacket_eq_some {c packetNumber : Nat}
    (h : s.ProcessPacket c packetNumber = some (s', evs)) :
    times s'.connectionIdMap = times s.connectionIdMap ∧ s'.alarm = s.alarm ∧
      s'.clock = s.clock := by
  unfold ProcessPacket at h
  split at h
  · cases h
  · next data _ =>
    have hs : s' = { s with connectionIdMap := s.connectionIdMap.modify c fun d =>
        { d with numPackets := data.numPackets + 1 } } := by
      dsimp only at h
      split_ifs at h <;> exact (Prod.mk.inj (Option.some.inj h)).1.symm
    subst hs
    exact ⟨times_modify fun _ => rfl, rfl, rfl⟩

/-- An addition goes when the clock reading is not earlier than the last one, and answers
nothing. -/
theorem step_add_cases {c version : Nat} {rejected : Bool} {packets : Option (List Nat)}
    {now : Int} (h : step timeWaitPeriod maxConnections s
      (.addConnectionIdToTimeWait c version rejected packets now) = some (s', evs)) :
    s.clock ≤ now ∧
      s.AddConnectionIdToTimeWait maxConnections c version rejected packets now = some s' ∧
      evs = [] := by
  simp only [GoQuicTimeWaitListManager.step] at h
  split at h
  · next hnow =>
    obtain ⟨s'', hadd, he⟩ := Option.map_eq_some_iff.mp h
    cases he
    exact ⟨hnow, hadd, rfl⟩
  · cases h

/-- Every step but a cleanup keeps the alarm, and leaves the old times, some of them dropped,
then possibly the time of the clock reading it takes. -/
theorem step_frame {l : TimeWaitLabel}
    (hl : ¬∃ now nowA nowB, l = .cleanUpOldConnectionIds now nowA nowB)
    (h : step timeWaitPeriod maxConnections s l = some (s', evs)) :
    ∃ now, times s'.connectionIdMap <+ times s.connectionIdMap ++ [now] ∧ s.clock ≤ now ∧
      s'.clock = now ∧ s'.alarm = s.alarm := by
  cases l with
  | addConnectionIdToTimeWait c version rejected packets now =>
    obtain ⟨hnow, hadd, -⟩ := step_add_cases timeWaitPeriod maxConnections h
    obtain ⟨htimes, halarm, hclock⟩ := AddConnectionIdToTimeWait_eq_some maxConnections hadd
    exact ⟨now, htimes, hnow, hclock, halarm⟩
  | processPacket c packetNumber =>
    obtain ⟨htimes, halarm, hclock⟩ := ProcessPacket_eq_some h
    refine ⟨s.clock, ?_, Int.le_refl _, hclock, halarm⟩
    rw [htimes]
    exact List.sublist_append_left _ _
  | trimTimeWaitListIfNeeded =>
    obtain ⟨m', hm', he⟩ := Option.map_eq_some_iff.mp h
    cases he
    refine ⟨s.clock, ?_, Int.le_refl _, rfl, rfl⟩
    exact (times_sublist (TrimTimeWaitListIfNeeded_suffix hm').1.sublist).trans
      (List.sublist_append_left _ _)
  | cleanUpOldConnectionIds now nowA nowB => exact absurd ⟨now, nowA, nowB, rfl⟩ hl

theorem step_cleanUp {now nowA nowB : Int}
    (h : step timeWaitPeriod maxConnections s (.cleanUpOldConnectionIds now nowA nowB) =
      some (s', evs)) :
    s.clock ≤ now ∧ now ≤ nowA ∧ nowA ≤ nowB ∧
      s' = s.CleanUpOldConnectionIds timeWaitPeriod now nowA nowB := by
  simp only [GoQuicTimeWaitListManager.step] at h
  split at h
  · next hclock =>
    obtain ⟨h1, h2, h3⟩ := hclock
    exact ⟨h1, h2, h3, (Prod.mk.inj (Option.some.inj h)).1.symm⟩
  · cases h

theorem entries_CleanUpOldConnectionIds_sublist (now nowA nowB : Int) :
    (s.CleanUpOldConnectionIds timeWaitPeriod now nowA nowB).connectionIdMap.entries <+
      s.connectionIdMap.entries := by
  show (cleanUpLoop _ _).entries <+ _
  rw [cleanUpLoop_entries]
  exact (List.dropWhile_suffix _).sublist

theorem times_CleanUpOldConnectionIds_sublist (now nowA nowB : Int) :
    times (s.CleanUpOldConnectionIds timeWaitPeriod now nowA nowB).connectionIdMap <+
      times s.connectionIdMap :=
  times_sublist (entries_CleanUpOldConnectionIds_sublist timeWaitPeriod now nowA nowB)

/-! ### Every run -/

/-- The entries are in the order of the times they were added, and none was added after the
latest clock reading. -/
structure Ordered (s : GoQuicTimeWaitListManager) : Prop where
  sorted : (times s.connectionIdMap).Pairwise (· ≤ ·)
  past : ∀ t ∈ times s.connectionIdMap, t ≤ s.clock

theorem Ordered.of_sublist_append (h : s.Ordered) {now : Int}
    (hsub : times s'.connectionIdMap <+ times s.connectionIdMap ++ [now]) (hnow : s.clock ≤ now)
    (hclock : s'.clock = now) : s'.Ordered where
  sorted := by
    apply List.Pairwise.sublist hsub
    rw [List.pairwise_append]
    refine ⟨h.sorted, List.pairwise_singleton _ _, ?_⟩
    intro a ha b hb
    rw [List.mem_singleton.mp hb]
    exact Int.le_trans (h.past a ha) hnow
  past t ht := by
    rw [hclock]
    rcases List.mem_append.mp (hsub.subset ht) with ht | ht
    · exact Int.le_trans (h.past t ht) hnow
    · have := List.mem_singleton.mp ht
      omega

theorem ordered_new (start : Int) : (new timeWaitPeriod start).Ordered := by
  constructor <;> simp [new, SetConnectionIdCleanUpAlarm, times, LinkedHashMap.empty]

theorem Ordered.of_step (h : s.Ordered) {l : TimeWaitLabel}
    (hs : step timeWaitPeriod maxConnections s l = some (s', evs)) : s'.Ordered := by
  by_cases hl : ∃ now nowA nowB, l = .cleanUpOldConnectionIds now nowA nowB
  · obtain ⟨now, nowA, nowB, rfl⟩ := hl
    obtain ⟨h1, h2, h3, rfl⟩ := step_cleanUp timeWaitPeriod maxConnections hs
    -- the cleanup reads the clock last at `nowB`
    have hclock : (s.CleanUpOldConnectionIds timeWaitPeriod now nowA nowB).clock = nowB := rfl
    exact h.of_sublist_append ((times_CleanUpOldConnectionIds_sublist timeWaitPeriod _ _ _).trans
      (List.sublist_append_left _ _)) (by omega) hclock
  · obtain ⟨now, hsub, hnow, hclock, -⟩ := step_frame timeWaitPeriod maxConnections hl hs
    exact h.of_sublist_append hsub hnow hclock

theorem ordered_reach {start : Int} {tr : List TimeWaitResponse}
    (h : (system timeWaitPeriod maxConnections start).Reach s tr) : s.Ordered :=
  h.invariant (ordered_new timeWaitPeriod start) fun _ _ _ _ hi hs =>
    hi.of_step timeWaitPeriod maxConnections hs

/-- On every run, the map iterates in the order of the times the entries were added. -/
theorem timeAdded_sorted {start : Int} {tr : List TimeWaitResponse}
    (h : (system timeWaitPeriod maxConnections start).Reach s tr) :
    (times s.connectionIdMap).Pairwise (· ≤ ·) :=
  (ordered_reach timeWaitPeriod maxConnections h).sorted

/-- On every run, a cleanup at `now` removes exactly the entries added at
`now - time_wait_period_` or earlier, and keeps the others, in their order and as they were. -/
theorem cleanUp_removes_expired {start : Int} {tr : List TimeWaitResponse}
    (h : (system timeWaitPeriod maxConnections start).Reach s tr) (now nowA nowB : Int) :
    (s.CleanUpOldConnectionIds timeWaitPeriod now nowA nowB).connectionIdMap.entries =
      s.connectionIdMap.entries.filter fun e => !decide (e.2.timeAdded ≤ now - timeWaitPeriod) := by
  have hsorted : s.connectionIdMap.entries.Pairwise fun a b => a.2.timeAdded ≤ b.2.timeAdded :=
    List.pairwise_map.mp (timeAdded_sorted timeWaitPeriod maxConnections h)
  show (cleanUpLoop _ _).entries = _
  rw [cleanUpLoop_entries]
  -- the entries added by `now - time_wait_period_` are a prefix, since the times are sorted
  exact LinkedHashMap.entries_popWhile (R := fun a b => a.2.timeAdded ≤ b.2.timeAdded) hsorted
    fun a b hab hb => by
      simp only [decide_eq_true_eq] at hab hb ⊢
      exact Int.le_trans hab hb

/-- With entries added at 1 µs and at 100 s, a cleanup at 200 s and 1 µs retires the first
alone. -/
theorem cleanUp_removes_expired_first :
    ∃ s tr, (system 200000000 600000 0).run (system 200000000 600000 0).init
        [.addConnectionIdToTimeWait 1 0 false none 1,
          .addConnectionIdToTimeWait 2 0 false none 100000000] = some (s, tr) ∧
      (s.CleanUpOldConnectionIds 200000000 200000001 200000001 200000001).connectionIdMap.entries =
        s.connectionIdMap.entries.filter
          (fun e => !decide (e.2.timeAdded ≤ 200000001 - 200000000)) ∧
      (s.CleanUpOldConnectionIds 200000000 200000001 200000001
        200000001).connectionIdMap.entries.map Prod.fst = [2] := by
  have hrun : ((system 200000000 600000 0).run (system 200000000 600000 0).init
      [.addConnectionIdToTimeWait 1 0 false none 1,
        .addConnectionIdToTimeWait 2 0 false none 100000000]).map
      (fun r => (r.1.CleanUpOldConnectionIds 200000000 200000001 200000001
        200000001).connectionIdMap.entries.map Prod.fst) = some [2] := by
    decide +kernel
  obtain ⟨⟨s, tr⟩, hr, hk⟩ := Option.map_eq_some_iff.mp hrun
  exact ⟨s, tr, hr, cleanUp_removes_expired 200000000 600000 (Lts.Reach.of_run hr) _ _ _, hk⟩

/-! ### The cleanup alarm -/

/-- What the cleanup loop leaves starts with an entry added after `expiration`. -/
theorem lt_of_front?_cleanUpLoop {e : Int} {x : Nat × ConnectionIdData}
    (h : (cleanUpLoop e m).front? = some x) : e < x.2.timeAdded := by
  have hnot := List.head?_dropWhile_not
    (fun x : Nat × ConnectionIdData => decide (x.2.timeAdded ≤ e)) m.entries
  rw [← cleanUpLoop_entries] at hnot
  simp only [LinkedHashMap.front?] at h
  rw [h] at hnot
  simpa using hnot

/-- The alarm is no later than the expiry of any entry, nor than the expiry of an entry added at
the latest clock reading. -/
structure AlarmBound (s : GoQuicTimeWaitListManager) : Prop where
  ordered : s.Ordered
  clock : s.alarm ≤ s.clock + timeWaitPeriod
  expiry : ∀ t ∈ times s.connectionIdMap, s.alarm ≤ t + timeWaitPeriod

theorem alarmBound_new (start : Int) : (new timeWaitPeriod start).AlarmBound timeWaitPeriod where
  ordered := ordered_new timeWaitPeriod start
  clock := by simp [new, SetConnectionIdCleanUpAlarm, LinkedHashMap.front?, LinkedHashMap.empty]
  expiry := by simp [new, SetConnectionIdCleanUpAlarm, times, LinkedHashMap.empty]

theorem AlarmBound.of_sublist_append (h : s.AlarmBound timeWaitPeriod) {now : Int}
    (hsub : times s'.connectionIdMap <+ times s.connectionIdMap ++ [now]) (hnow : s.clock ≤ now)
    (hclock : s'.clock = now) (halarm : s'.alarm = s.alarm) : s'.AlarmBound timeWaitPeriod where
  ordered := h.ordered.of_sublist_append hsub hnow hclock
  clock := by
    have := h.clock
    rw [halarm, hclock]
    omega
  expiry t ht := by
    rw [halarm]
    rcases List.mem_append.mp (hsub.subset ht) with ht | ht
    · exact h.expiry t ht
    · -- an entry added now expires no earlier than one added at the last reading
      have := h.clock
      rw [List.mem_singleton.mp ht]
      omega

theorem CleanUpOldConnectionIds_connectionIdMap (now nowA nowB : Int) :
    (s.CleanUpOldConnectionIds timeWaitPeriod now nowA nowB).connectionIdMap =
      cleanUpLoop (now - timeWaitPeriod) s.connectionIdMap := rfl

theorem alarm_CleanUpOldConnectionIds_of_front?_none {now : Int}
    (hf : (cleanUpLoop (now - timeWaitPeriod) s.connectionIdMap).front? = none) :
    (s.CleanUpOldConnectionIds timeWaitPeriod now now now).alarm = now + timeWaitPeriod := by
  simp [CleanUpOldConnectionIds, SetConnectionIdCleanUpAlarm, hf]

/-- A cleanup that reads the clock once sets the alarm at the expiry of the oldest entry left. -/
theorem alarm_CleanUpOldConnectionIds_of_front? {now : Int} {x : Nat × ConnectionIdData}
    (hf : (cleanUpLoop (now - timeWaitPeriod) s.connectionIdMap).front? = some x) :
    (s.CleanUpOldConnectionIds timeWaitPeriod now now now).alarm =
      x.2.timeAdded + timeWaitPeriod := by
  have hlt : now - x.2.timeAdded < timeWaitPeriod := by
    have := lt_of_front?_cleanUpLoop hf
    omega
  obtain ⟨k, data⟩ := x
  simp only [CleanUpOldConnectionIds, SetConnectionIdCleanUpAlarm, hf, hlt, if_true]
  omega

/-- A cleanup that reads the clock once, at `now`, keeps the alarm bound. -/
theorem AlarmBound.cleanUp (h : s.AlarmBound timeWaitPeriod) {now : Int} (hnow : s.clock ≤ now) :
    (s.CleanUpOldConnectionIds timeWaitPeriod now now now).AlarmBound timeWaitPeriod := by
  have hclock : (s.CleanUpOldConnectionIds timeWaitPeriod now now now).clock = now := rfl
  have hsub := times_CleanUpOldConnectionIds_sublist timeWaitPeriod now now now (s := s)
  have hord : (s.CleanUpOldConnectionIds timeWaitPeriod now now now).Ordered :=
    h.ordered.of_sublist_append (hsub.trans (List.sublist_append_left _ _)) hnow hclock
  have hsorted := hord.sorted
  rw [CleanUpOldConnectionIds_connectionIdMap] at hsub hsorted
  cases hf : (cleanUpLoop (now - timeWaitPeriod) s.connectionIdMap).front? with
  | none =>
    -- nothing is left, and the alarm is one period after `now`
    have halarm := alarm_CleanUpOldConnectionIds_of_front?_none timeWaitPeriod hf
    have hnil : times (cleanUpLoop (now - timeWaitPeriod) s.connectionIdMap) = [] := by
      simp [times, List.head?_eq_none_iff.mp hf]
    refine ⟨hord, ?_, ?_⟩
    · omega
    · rw [CleanUpOldConnectionIds_connectionIdMap, hnil]
      simp
  | some x =>
    have halarm := alarm_CleanUpOldConnectionIds_of_front? timeWaitPeriod hf
    -- the oldest entry left was there before, so it was added by the latest reading
    have hpast : x.2.timeAdded ≤ s.clock :=
      h.ordered.past _ (hsub.subset (List.mem_map_of_mem (List.mem_of_mem_head? hf)))
    refine ⟨hord, ?_, ?_⟩
    · rw [halarm, hclock]
      omega
    · intro t ht
      rw [halarm]
      rw [CleanUpOldConnectionIds_connectionIdMap, times, eq_cons_of_front? hf, List.map_cons] at ht
      rw [times, eq_cons_of_front? hf, List.map_cons] at hsorted
      rcases List.mem_cons.mp ht with rfl | ht
      · exact Int.le_refl _
      · have := List.rel_of_pairwise_cons hsorted ht
        omega

theorem AlarmBound.of_step (h : s.AlarmBound timeWaitPeriod) {l : TimeWaitLabel}
    (hl : l.readsClockOnce = true)
    (hs : step timeWaitPeriod maxConnections s l = some (s', evs)) :
    s'.AlarmBound timeWaitPeriod := by
  by_cases hc : ∃ now nowA nowB, l = .cleanUpOldConnectionIds now nowA nowB
  · obtain ⟨now, nowA, nowB, rfl⟩ := hc
    obtain ⟨hnow, -, -, rfl⟩ := step_cleanUp timeWaitPeriod maxConnections hs
    simp only [TimeWaitLabel.readsClockOnce, Bool.and_eq_true, beq_iff_eq] at hl
    obtain ⟨rfl, rfl⟩ := hl
    exact h.cleanUp timeWaitPeriod hnow
  · obtain ⟨now, hsub, hnow, hclock, halarm⟩ := step_frame timeWaitPeriod maxConnections hc hs
    exact h.of_sublist_append timeWaitPeriod hsub hnow hclock halarm

/-- While every cleanup reads the clock once, the alarm is never later than the expiry of the
oldest entry. -/
theorem alarm_bound {start : Int} {tr : List TimeWaitResponse}
    (h : ((system timeWaitPeriod maxConnections start).restrict
      fun l => l.readsClockOnce = true).Reach s tr) :
    ∀ x ∈ s.connectionIdMap.front?, s.alarm ≤ x.2.timeAdded + timeWaitPeriod := by
  have hb : s.AlarmBound timeWaitPeriod :=
    h.invariant (alarmBound_new timeWaitPeriod start) fun _ _ _ _ hi hs =>
      hi.of_step timeWaitPeriod maxConnections (Lts.restrict_step_eq_some hs).1
        (Lts.restrict_step_eq_some hs).2
  intro x hx
  exact hb.expiry _ (List.mem_map_of_mem (List.mem_of_mem_head? hx))

/-- Cleanups that read the clock once: after the entry of 1 µs is retired at 200 s and 1 µs, the
alarm is set for the expiry of the entry of 100 s, at 300 s. -/
theorem alarm_bound_after_cleanUp :
    let S := (system 200000000 600000 0).restrict fun l => l.readsClockOnce = true
    ∃ s tr, S.run S.init
        [.addConnectionIdToTimeWait 1 0 false none 1,
          .addConnectionIdToTimeWait 2 0 false none 100000000,
          .cleanUpOldConnectionIds 200000001 200000001 200000001] = some (s, tr) ∧
      s.alarm = 300000000 ∧
      ∀ x ∈ s.connectionIdMap.front?, s.alarm ≤ x.2.timeAdded + 200000000 := by
  intro S
  have hrun : (S.run S.init
      [.addConnectionIdToTimeWait 1 0 false none 1,
        .addConnectionIdToTimeWait 2 0 false none 100000000,
        .cleanUpOldConnectionIds 200000001 200000001 200000001]).map (fun r => r.1.alarm) =
      some 300000000 := by
    decide +kernel
  obtain ⟨⟨s, tr⟩, hr, ha⟩ := Option.map_eq_some_iff.mp hrun
  exact ⟨s, tr, hr, ha, alarm_bound 200000000 600000 (Lts.Reach.of_run hr)⟩

/-- `SetConnectionIdCleanUpAlarm` reads the clock twice. With a period of 200 s, an entry added at
1 µs, and a cleanup whose reads return 2, 3 and 4 µs, the interval is computed at 3 µs and added
to 4 µs: the alarm is set 1 µs after the entry expires. -/
theorem alarm_after_expiry : ∃ s tr, (system 200000000 600000 0).Reach s tr ∧
    ∃ x ∈ s.connectionIdMap.front?, x.2.timeAdded + 200000000 < s.alarm := by
  have hrun : ((system 200000000 600000 0).run (system 200000000 600000 0).init
      [.addConnectionIdToTimeWait 1 0 false none 1, .cleanUpOldConnectionIds 2 3 4]).map
        (fun r => (r.1.connectionIdMap.front?, r.1.alarm)) =
      some (some (1, ⟨0, 0, 1, [], false⟩), 200000002) := by
    decide +kernel
  obtain ⟨⟨s, tr⟩, hr, he⟩ := Option.map_eq_some_iff.mp hrun
  obtain ⟨hf, ha⟩ := Prod.mk.inj he
  refine ⟨s, tr, Lts.Reach.of_run hr, _, hf, ?_⟩
  rw [ha]
  decide

/-! ### The back-off of responses -/

/-- For a count that is not 0, `ShouldSendResponse` is the test for a power of 2. -/
theorem ShouldSendResponse_iff {k : Nat} (hk : 0 < k) :
    ShouldSendResponse k = true ↔ k.isPowerOfTwo := by
  rw [ShouldSendResponse, decide_eq_true_iff]
  exact Nat.and_sub_one_eq_zero_iff_isPowerOfTwo (Nat.pos_iff_ne_zero.mp hk)

/-- Among the counts `1, …, n`, those answered are `2 ^ 0, …, 2 ^ (log₂ n)`. -/
theorem filter_ShouldSendResponse {n : Nat} (hn : 0 < n) :
    (Finset.Icc 1 n).filter (fun k => ShouldSendResponse k = true) =
      (Finset.range (Nat.log 2 n + 1)).image (2 ^ ·) := by
  ext k
  simp only [Finset.mem_filter, Finset.mem_Icc, Finset.mem_image, Finset.mem_range]
  constructor
  · rintro ⟨⟨hk, hkn⟩, hs⟩
    obtain ⟨j, rfl⟩ := (ShouldSendResponse_iff hk).mp hs
    have hj : j ≤ Nat.log 2 n := Nat.le_log_of_pow_le Nat.one_lt_two hkn
    exact ⟨j, Nat.lt_succ_of_le hj, rfl⟩
  · rintro ⟨j, hj, rfl⟩
    have hpos : 0 < 2 ^ j := Nat.two_pow_pos j
    have hjn : 2 ^ j ≤ n := Nat.pow_le_of_le_log (by omega) (by omega)
    exact ⟨⟨hpos, hjn⟩, (ShouldSendResponse_iff hpos).mpr ⟨j, rfl⟩⟩

theorem card_filter_ShouldSendResponse {n : Nat} (hn : 0 < n) :
    ((Finset.Icc 1 n).filter fun k => ShouldSendResponse k = true).card = Nat.log 2 n + 1 := by
  rw [filter_ShouldSendResponse hn,
    Finset.card_image_of_injective _ (Nat.pow_right_injective le_rfl), Finset.card_range]

variable {c : Nat}

theorem numPacketsOf_eq_zero (h : s.IsConnectionIdInTimeWait c = false) : s.numPacketsOf c = 0 := by
  rw [IsConnectionIdInTimeWait, Option.isSome_eq_false_iff, Option.isNone_iff_eq_none] at h
  rw [numPacketsOf, h]
  rfl

/-- A map whose entries are among those of another has the same count for every ID it holds. -/
theorem numPacketsOf_of_sublist (h : s'.connectionIdMap.entries <+ s.connectionIdMap.entries)
    (hin : s'.IsConnectionIdInTimeWait c = true) : s'.numPacketsOf c = s.numPacketsOf c := by
  rw [numPacketsOf, numPacketsOf, LinkedHashMap.find?_eq_of_sublist h hin]

/-- Adding any ID keeps the count of every ID left: a re-added ID carries its count over. -/
theorem numPacketsOf_AddConnectionIdToTimeWait {d version : Nat} {rejected : Bool}
    {packets : Option (List Nat)} {now : Int}
    (h : s.AddConnectionIdToTimeWait maxConnections d version rejected packets now = some s')
    (hin : s'.IsConnectionIdInTimeWait c = true) : s'.numPacketsOf c = s.numPacketsOf c := by
  rw [AddConnectionIdToTimeWait_eq] at h
  obtain ⟨m, hm, rfl⟩ := Option.map_eq_some_iff.mp h
  have hsuf := (TrimTimeWaitListIfNeeded_suffix hm).1
  by_cases hd : d = c
  · -- the ID itself, appended with the count it had
    subst hd
    simp only [numPacketsOf, LinkedHashMap.find?_emplace_self (not_mem_of_suffix_erase hsuf)]
    rfl
  · -- another ID, whose entry the trim kept
    have hne : c ≠ d := Ne.symm hd
    have hin' : (m.find? c).isSome := by
      simpa only [IsConnectionIdInTimeWait, LinkedHashMap.find?_emplace_of_ne hne] using hin
    simp only [numPacketsOf, LinkedHashMap.find?_emplace_of_ne hne]
    rw [LinkedHashMap.find?_eq_of_sublist (hsuf.sublist.trans LinkedHashMap.entries_erase_sublist)
      hin']

/-- `ProcessPacket` for an ID in time-wait: the count goes up by one, and the new count decides
whether the termination packets, or else a public reset, are sent. -/
theorem ProcessPacket_of_find? {pn : Nat} {data : ConnectionIdData}
    (h : s.connectionIdMap.find? c = some data) :
    s.ProcessPacket c pn = some ({ s with
      connectionIdMap := s.connectionIdMap.modify c fun d =>
        { d with numPackets := data.numPackets + 1 } },
      if ShouldSendResponse (data.numPackets + 1) then
        if data.terminationPackets.isEmpty then [.publicReset c pn]
        else data.terminationPackets.map .terminationPacket
      else []) := by
  simp only [ProcessPacket, h]
  split_ifs <;> simp_all

theorem numPacketsOf_ProcessPacket {d pn : Nat} (h : s.ProcessPacket d pn = some (s', evs)) :
    s'.numPacketsOf c = s.numPacketsOf c + if d = c then 1 else 0 := by
  cases hf : s.connectionIdMap.find? d with
  | none => simp [ProcessPacket, hf] at h
  | some data =>
    rw [ProcessPacket_of_find? hf] at h
    obtain ⟨rfl, -⟩ := Prod.mk.inj (Option.some.inj h)
    by_cases hd : d = c
    · subst hd
      simp [numPacketsOf, LinkedHashMap.find?_modify_self, hf]
    · simp [numPacketsOf, LinkedHashMap.find?_modify_of_ne _ (Ne.symm hd), hd]

/-- Each step keeps the count of an ID it leaves in time-wait, but a packet for the ID, which
raises it by one. -/
theorem numPacketsOf_step {l : TimeWaitLabel}
    (h : step timeWaitPeriod maxConnections s l = some (s', evs))
    (hin : s'.IsConnectionIdInTimeWait c = true) :
    s'.numPacketsOf c = s.numPacketsOf c + if l.isPacketOf c then 1 else 0 := by
  cases l with
  | addConnectionIdToTimeWait d version rejected packets now =>
    obtain ⟨-, hadd, -⟩ := step_add_cases timeWaitPeriod maxConnections h
    rw [numPacketsOf_AddConnectionIdToTimeWait maxConnections hadd hin]
    rfl
  | processPacket d pn =>
    rw [numPacketsOf_ProcessPacket h]
    simp [TimeWaitLabel.isPacketOf]
  | trimTimeWaitListIfNeeded =>
    obtain ⟨m', hm', he⟩ := Option.map_eq_some_iff.mp h
    cases he
    rw [numPacketsOf_of_sublist (TrimTimeWaitListIfNeeded_suffix hm').1.sublist hin]
    rfl
  | cleanUpOldConnectionIds now nowA nowB =>
    obtain ⟨-, -, -, rfl⟩ := step_cleanUp timeWaitPeriod maxConnections h
    rw [numPacketsOf_of_sublist (entries_CleanUpOldConnectionIds_sublist timeWaitPeriod _ _ _) hin]
    rfl

/-- Take a connection ID that enters the time-wait list, and any run after that along which it
stays there, whatever else the run does: packets for it or for others, re-additions of it or of
others, trims and cleanups. The next packet for it is the `k`-th since it entered, `k - 1` being
the packets for it on the run. It is answered exactly when `k` is a power of 2, with the
termination packets stored for it, or else with one public reset. So among the first `n` packets,
`log₂ n + 1` are answered. -/
theorem response_iff_isPowerOfTwo {start : Int} {s₀ s s' s'' : GoQuicTimeWaitListManager}
    {version pn : Nat} {rejected : Bool} {packets : Option (List Nat)} {now : Int}
    {ls : List TimeWaitLabel} {evs₀ tr evs : List TimeWaitResponse}
    (h₀ : s₀.IsConnectionIdInTimeWait c = false)
    (hadd : step timeWaitPeriod maxConnections s₀
      (.addConnectionIdToTimeWait c version rejected packets now) = some (s, evs₀))
    (hstay : (system timeWaitPeriod maxConnections start).Within
      (IsConnectionIdInTimeWait · c) s ls = true)
    (hrun : (system timeWaitPeriod maxConnections start).run s ls = some (s', tr))
    (hpkt : step timeWaitPeriod maxConnections s' (.processPacket c pn) = some (s'', evs)) :
    (evs ≠ [] ↔ (ls.countP (TimeWaitLabel.isPacketOf c) + 1).isPowerOfTwo) ∧
      ((ls.countP (TimeWaitLabel.isPacketOf c) + 1).isPowerOfTwo →
        ∃ data, s'.connectionIdMap.find? c = some data ∧
          evs = if data.terminationPackets.isEmpty then [.publicReset c pn]
            else data.terminationPackets.map .terminationPacket) ∧
      ∀ n, 0 < n →
        ((Finset.Icc 1 n).filter fun k => ShouldSendResponse k = true).card = Nat.log 2 n + 1 := by
  -- the count is 0 when the ID enters
  have hs : s.numPacketsOf c = 0 := by
    have hin : s.IsConnectionIdInTimeWait c = true :=
      Lts.Within.head (p := (IsConnectionIdInTimeWait · c)) hstay
    rw [numPacketsOf_step timeWaitPeriod maxConnections hadd hin, numPacketsOf_eq_zero h₀]
    rfl
  -- each packet for it on the run raises it by one
  have hs' : s'.numPacketsOf c = ls.countP (TimeWaitLabel.isPacketOf c) := by
    have hrise := Lts.run_countP (numPacketsOf · c) (TimeWaitLabel.isPacketOf c)
      (fun _ _ _ _ _ hin hst => numPacketsOf_step timeWaitPeriod maxConnections hst hin) hstay hrun
    simpa [hs] using hrise
  obtain ⟨data, hdata⟩ : ∃ data, s'.connectionIdMap.find? c = some data := by
    cases hf : s'.connectionIdMap.find? c with
    | none => simp [GoQuicTimeWaitListManager.step, ProcessPacket, hf] at hpkt
    | some data => exact ⟨data, rfl⟩
  have hcount : data.numPackets = ls.countP (TimeWaitLabel.isPacketOf c) := by
    rw [← hs', numPacketsOf, hdata]
    rfl
  rw [GoQuicTimeWaitListManager.step, ProcessPacket_of_find? hdata, hcount] at hpkt
  obtain ⟨-, rfl⟩ := Prod.mk.inj (Option.some.inj hpkt)
  have hiff := ShouldSendResponse_iff (Nat.succ_pos (ls.countP (TimeWaitLabel.isPacketOf c)))
  refine ⟨?_, fun hpow => ⟨data, hdata, by rw [if_pos (hiff.mpr hpow)]⟩,
    fun n hn => card_filter_ShouldSendResponse hn⟩
  rw [← hiff]
  by_cases hsend : ShouldSendResponse (ls.countP (TimeWaitLabel.isPacketOf c) + 1) = true
  · -- answered: the stored packets, or one public reset
    by_cases hempty : data.terminationPackets.isEmpty = true
    · simp [hsend, hempty]
    · have hne : data.terminationPackets ≠ [] := by simpa using hempty
      simp [hsend, hempty, hne]
  · simp [hsend]

/-- An ID added at 1 µs to the manager constructed at 0, then two packets for it: the third packet
for it is not answered, 3 not being a power of 2. -/
theorem third_packet_unanswered :
    ∃ (s s' s'' : GoQuicTimeWaitListManager) (evs₀ tr evs : List TimeWaitResponse),
      (new 200000000 0).IsConnectionIdInTimeWait 1 = false ∧
      step 200000000 600000 (new 200000000 0) (.addConnectionIdToTimeWait 1 0 false none 1) =
        some (s, evs₀) ∧
      (system 200000000 600000 0).Within (IsConnectionIdInTimeWait · 1) s
        [.processPacket 1 0, .processPacket 1 1] = true ∧
      (system 200000000 600000 0).run s [.processPacket 1 0, .processPacket 1 1] = some (s', tr) ∧
      step 200000000 600000 s' (.processPacket 1 2) = some (s'', evs) ∧
      evs = [] ∧ ¬Nat.isPowerOfTwo 3 := by
  -- the whole run, computed once
  have hcomp : ((step 200000000 600000 (new 200000000 0)
      (.addConnectionIdToTimeWait 1 0 false none 1)).bind fun r =>
        if (system 200000000 600000 0).Within (IsConnectionIdInTimeWait · 1) r.1
            [.processPacket 1 0, .processPacket 1 1] then
          ((system 200000000 600000 0).run r.1 [.processPacket 1 0, .processPacket 1 1]).bind
            fun r' => (step 200000000 600000 r'.1 (.processPacket 1 2)).map Prod.snd
        else none) = some [] := by
    decide +kernel
  obtain ⟨⟨s, evs₀⟩, hadd, hr⟩ := Option.bind_eq_some_iff.mp hcomp
  split at hr
  · next hw =>
    obtain ⟨⟨s', tr⟩, hrun, hr'⟩ := Option.bind_eq_some_iff.mp hr
    obtain ⟨⟨s'', evs⟩, hpkt, rfl⟩ := Option.map_eq_some_iff.mp hr'
    have h₀ : (new 200000000 0).IsConnectionIdInTimeWait 1 = false := rfl
    have hresp := response_iff_isPowerOfTwo 200000000 600000 h₀ hadd hw hrun hpkt
    exact ⟨s, s', s'', evs₀, tr, [], h₀, hadd, hw, hrun, hpkt, rfl,
      fun hpow => hresp.1.mpr hpow rfl⟩
  · cases hr

end GoQuicTimeWaitListManager

end GoQuic
