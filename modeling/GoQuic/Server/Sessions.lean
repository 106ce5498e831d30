import Mathlib
import GoQuic.Server.ListenAndServe
import GoQuic.Registry.Ptr
import GoQuic.Trace.Custody

/-!
# The Go side of the dispatchers' sessions

Each session a dispatcher creates has a Go object beside the C++ one.
`GoQuicSimpleDispatcher::CreateQuicSession` (`go_quic_simple_dispatcher.cc:29–46`) calls
`CreateGoSession` (`dispatcher.go:63–77`), which keeps a new `QuicServerSession` in the
dispatcher's `quicServerSessions`, so that the garbage collector leaves it alone, and stores it in
`quicServerSessionPtr`, which every dispatcher shares; the C++ session keeps the key as
`go_session_`. `OnConnectionClosed` moves the session from `session_map_` to
`closed_session_list_`, and `DeleteSessions` deletes the closed sessions, whose destructor
(`go_quic_simple_server_session.cc:34–37`) calls `DeleteGoSession` (`dispatcher.go:79–85`) with
the key: it finds the Go session in the pool, deletes it from `quicServerSessions`, and deletes
the key.

The model keeps, beside the server of `ListenAndServe`, the objects that `GoQuicDispatcher`
counts by connection ID: the values of `session_map_`, the entries of `closed_session_list_`,
each dispatcher's `quicServerSessions`, and the shared pool (`ServerSessions`). The C++ session
names the dispatcher by its key in `quicDispatcherPtr`, which holds each dispatcher for the life
of its `Serve` loop; here it is the dispatcher's index.

On every run of the server with its sessions:
* the sessions of `session_map_` are keyed by the connection IDs of the dispatcher model's
  `sessionMap`, and `closed_session_list_` has `closedSessionList` entries (`sessions_refine`);
* each dispatcher's `quicServerSessions` holds a Go session for exactly the sessions of its
  `session_map_` and `closed_session_list_`: none leaked, none lost before its destructor runs
  (`quicServerSessions_mirror`);
* the keys of `quicServerSessionPtr` are the `go_session_` keys of these sessions, each finding
  its own session's Go session, and no two of them, of any dispatchers, share a key, so
  `DeleteGoSession` deletes the Go session of the session being destroyed and nothing else
  (`go_session_keys`);
* while fewer than `math.MaxInt64` sessions have been created, `quicServerSessionPtr.Set` always
  finds a free key, so the runs of the server with its sessions are the runs of the server
  (`sessions_follow`).

A Go session is named by the C++ session it wraps: `CreateGoSession` makes one for each.
-/

namespace GoQuic

/-- A `GoQuicSimpleServerSession` as its dispatcher holds it: the object, and `go_session_`, the
key of its Go session in `quicServerSessionPtr`. -/
structure SimpleServerSession where
  session : Nat
  go_session_ : Int64
  deriving DecidableEq, Repr

/-- One dispatcher's session objects: the values of `session_map_` by connection ID, the entries
of `closed_session_list_`, and the Go `QuicDispatcher.quicServerSessions`, a set of Go sessions,
each named by the C++ session it wraps. -/
structure DispatcherSessions where
  session_map_ : List (Nat × SimpleServerSession)
  closed_session_list_ : List SimpleServerSession
  quicServerSessions : Finset Nat

/-- The session objects of the server's dispatchers, the pool `quicServerSessionPtr` they share,
and the address the next session object gets. -/
structure ServerSessions (N : NumOfServers) where
  dispatchers : Fin N.n → DispatcherSessions
  quicServerSessionPtr : Ptr Nat
  next : Nat

namespace ServerSessions

variable {N : NumOfServers}

/-- No session yet. -/
def new : ServerSessions N := ⟨fun _ => ⟨[], [], ∅⟩, Ptr.new, 0⟩

/-- Dispatcher `i`'s objects changed by `f`. -/
def modify (g : ServerSessions N) (i : Fin N.n) (f : DispatcherSessions → DispatcherSessions) :
    ServerSessions N :=
  { g with dispatchers := Function.update g.dispatchers i (f (g.dispatchers i)) }

/-- `CreateGoSession` (`dispatcher.go:63–77`) for the C++ session `session_c` of dispatcher `i`:
the Go session kept in `quicServerSessions`, and the key `quicServerSessionPtr.Set` returns;
`none` when `Set` never returns. -/
def CreateGoSession (g : ServerSessions N) (i : Fin N.n) (session_c : Nat) :
    Option (ServerSessions N × Int64) :=
  (g.quicServerSessionPtr.Set session_c).map fun r =>
    ({ g.modify i (fun ds => { ds with quicServerSessions := insert session_c ds.quicServerSessions })
      with quicServerSessionPtr := r.1 }, r.2)

/-- `GoQuicSimpleDispatcher::CreateQuicSession` (`go_quic_simple_dispatcher.cc:29–46`) for
connection `c` of dispatcher `i`: a new session object, its Go session, and the
`session_map_.insert` of the caller, which the dispatcher's event says is discarded (`active`). -/
def CreateQuicSession (g : ServerSessions N) (i : Fin N.n) (c : Nat) (active : Bool) :
    Option (ServerSessions N) :=
  (({ g with next := g.next + 1 } : ServerSessions N).CreateGoSession i g.next).map fun r =>
    if active then r.1
    else r.1.modify i fun ds =>
      { ds with session_map_ := ds.session_map_ ++ [(c, ⟨g.next, r.2⟩)] }

/-- `DeleteGoSession` (`dispatcher.go:79–85`) of dispatcher `i`: the Go session the key finds is
deleted from `quicServerSessions` (a `nil` one deletes nothing), and the key from the pool. -/
def DeleteGoSession (g : ServerSessions N) (i : Fin N.n) (go_session_key : Int64) :
    ServerSessions N :=
  let g' := match g.quicServerSessionPtr.Get go_session_key with
    | some go_session =>
      g.modify i fun ds => { ds with quicServerSessions := ds.quicServerSessions.erase go_session }
    | none => g
  { g' with quicServerSessionPtr := g.quicServerSessionPtr.Del go_session_key }

/-- `OnConnectionClosed` (`go_quic_dispatcher.cc:461–486`) on dispatcher `i`'s objects: the
session `session_map_.find` gives moves to the end of `closed_session_list_`, and
`CleanUpSession` erases its entry. -/
def OnConnectionClosed (g : ServerSessions N) (i : Fin N.n) (c : Nat) : ServerSessions N :=
  match (g.dispatchers i).session_map_.lookup c with
  | none => g
  | some session => g.modify i fun ds =>
    { ds with
      session_map_ := ds.session_map_.filter (·.1 ≠ c)
      closed_session_list_ := ds.closed_session_list_ ++ [session] }

/-- `DeleteSessions` (`go_quic_dispatcher.cc:427–429`) on dispatcher `i`'s objects:
`STLDeleteElements` deletes each closed session, whose destructor calls `DeleteGoSession` with its
`go_session_`, and clears the list. -/
def DeleteSessions (g : ServerSessions N) (i : Fin N.n) : ServerSessions N :=
  ((g.dispatchers i).closed_session_list_.foldl
      (fun g session => g.DeleteGoSession i session.go_session_) g).modify i
    fun ds => { ds with closed_session_list_ := [] }

/-- The sessions created in a step: each `CreateQuicSession` among its events, in order. -/
def onEvents (g : ServerSessions N) : List (ServerEvent N) → Option (ServerSessions N)
  | [] => some g
  | .dispatcher i (.createQuicSession c active) :: evs =>
    (g.CreateQuicSession i c active).bind (·.onEvents evs)
  | _ :: evs => g.onEvents evs

/-- What a step's label does to the sessions: a session closes, or the closed ones are
deleted. -/
def onLabel (g : ServerSessions N) : ServerLabel N → ServerSessions N
  | .task i (.onConnectionClosed c) => g.OnConnectionClosed i c
  | .task i .deleteSessions => g.DeleteSessions i
  | _ => g

/-- A step of the server on the session objects. -/
def update (g : ServerSessions N) (l : ServerLabel N) (evs : List (ServerEvent N)) :
    Option (ServerSessions N) :=
  (g.onEvents evs).map (·.onLabel l)

variable (N) in
/-- The server of `ListenAndServe` with its session objects beside it. -/
def system (flags : Flags) (framer : Framer) :
    Lts (QuicSpdyServer N × ServerSessions N) (ServerLabel N) (ServerEvent N) :=
  (QuicSpdyServer.system N flags framer).beside new update

end ServerSessions

/-! ### Sessions by connection ID -/

section Lookup

variable {β : Type} {l : List (Nat × β)} {c : Nat} {b : β}

theorem lookup_cons_of_ne {a : Nat} (h : c ≠ a) (l : List (Nat × β)) :
    ((a, b) :: l).lookup c = l.lookup c := by
  simp [List.lookup, beq_eq_false_iff_ne.mpr h]

theorem lookup_eq_none_iff : l.lookup c = none ↔ c ∉ l.map Prod.fst := by
  induction l with
  | nil => simp
  | cons p l ih =>
    obtain ⟨a, b'⟩ := p
    by_cases hc : c = a
    · subst hc
      simp
    · simp [lookup_cons_of_ne hc, hc, ih]

/-- The entry `lookup` finds under a key that no other entry has is the one the filter on the
key takes out. -/
theorem perm_filter_of_lookup (hn : (l.map Prod.fst).Nodup) (h : l.lookup c = some b) :
    l.Perm ((c, b) :: l.filter (·.1 ≠ c)) := by
  induction l with
  | nil => cases h
  | cons p l ih =>
    obtain ⟨a, b'⟩ := p
    have hn' : (l.map Prod.fst).Nodup := (List.nodup_cons.mp hn).2
    by_cases hc : c = a
    · -- the head is the entry, and no later entry has its key
      subst hc
      have hb : b' = b := by simpa using h
      have hout : c ∉ l.map Prod.fst := (List.nodup_cons.mp hn).1
      have hf : l.filter (·.1 ≠ c) = l := List.filter_eq_self.mpr fun p hp => by
        have : p.1 ≠ c := fun he => hout (he ▸ List.mem_map_of_mem hp)
        simpa using this
      rw [List.filter_cons_of_neg (by simp), hf, hb]
    · rw [lookup_cons_of_ne hc] at h
      have hf : ((a, b') :: l).filter (·.1 ≠ c) = (a, b') :: l.filter (·.1 ≠ c) := by
        simp [Ne.symm hc]
      rw [hf]
      exact ((ih hn' h).cons _).trans (List.Perm.swap _ _ _)

end Lookup

namespace ServerSessions

variable {N : NumOfServers} {g g' : ServerSessions N} {i j : Fin N.n}

@[simp] theorem modify_dispatchers_self (f : DispatcherSessions → DispatcherSessions) :
    (g.modify i f).dispatchers i = f (g.dispatchers i) := by
  simp [modify]

@[simp] theorem modify_dispatchers_of_ne (f : DispatcherSessions → DispatcherSessions)
    (h : j ≠ i) : (g.modify i f).dispatchers j = g.dispatchers j := by
  simp [modify, h]

@[simp] theorem modify_quicServerSessionPtr (f : DispatcherSessions → DispatcherSessions) :
    (g.modify i f).quicServerSessionPtr = g.quicServerSessionPtr := rfl

@[simp] theorem modify_next (f : DispatcherSessions → DispatcherSessions) :
    (g.modify i f).next = g.next := rfl

end ServerSessions

/-- The sessions a dispatcher holds: those of `session_map_`, then those closed and not yet
deleted. -/
def DispatcherSessions.sessions (ds : DispatcherSessions) : List SimpleServerSession :=
  ds.session_map_.map Prod.snd ++ ds.closed_session_list_

namespace ServerSessions

variable {N : NumOfServers}

/-- What the Go side keeps of the sessions `held` the dispatchers hold: each dispatcher's
`quicServerSessions` is the set of its sessions, no session object is held twice and each is
below `next`, and the keys of the held sessions are the keys of `quicServerSessionPtr`, each
finding its own session, no two alike. -/
structure Registered (g : ServerSessions N) (held : Fin N.n → Multiset SimpleServerSession) :
    Prop where
  go : ∀ i, (g.dispatchers i).quicServerSessions = ((held i).map (·.session)).toFinset
  fresh : Custody.Fresh (∑ i, (held i).map (·.session)) g.next
  keys : (∑ i, (held i).map (·.go_session_)).Nodup
  lookup : ∀ i, ∀ s ∈ held i, g.quicServerSessionPtr.Get s.go_session_ = some s.session
  live : ∀ key obj, g.quicServerSessionPtr.Get key = some obj →
    key ∈ ∑ i, (held i).map (·.go_session_)

/-- The session objects of a dispatcher are where the dispatcher model counts them: the keys of
`session_map_` are `sessionMap`, none twice, and `closed_session_list_` has `closedSessionList`
entries. -/
structure Mirrors (d : GoQuicDispatcher) (ds : DispatcherSessions) : Prop where
  keys : ds.session_map_.map Prod.fst = d.sessionMap
  nodup : d.sessionMap.Nodup
  closed : ds.closed_session_list_.length = d.closedSessionList

/-- The sessions each dispatcher holds. -/
def held (g : ServerSessions N) (i : Fin N.n) : Multiset SimpleServerSession :=
  (g.dispatchers i).sessions

/-- What every run keeps: each dispatcher's objects mirror the dispatcher, and the Go side has
registered the sessions they hold. -/
structure Inv (s : QuicSpdyServer N) (g : ServerSessions N) : Prop where
  mirrors : ∀ i, Mirrors (s.dispatchers i) (g.dispatchers i)
  registered : Registered g g.held

variable {s s' : QuicSpdyServer N} {g g' : ServerSessions N} {i j : Fin N.n} {c : Nat}
  {h : Fin N.n → Multiset SimpleServerSession}

/-- The Go side depends on the pool, the counter and the Go sets alone. -/
theorem Registered.of_eq (hr : Registered g h) (hp : g'.quicServerSessionPtr = g.quicServerSessionPtr)
    (hn : g'.next = g.next)
    (hq : ∀ i, (g'.dispatchers i).quicServerSessions = (g.dispatchers i).quicServerSessions) :
    Registered g' h :=
  ⟨fun i => (hq i).trans (hr.go i), hn ▸ hr.fresh, hr.keys, fun i s hs => hp ▸ hr.lookup i s hs,
    fun key obj hk => hr.live key obj (hp ▸ hk)⟩

/-- A change to a dispatcher's entries that keeps its Go set keeps what the Go side registered. -/
theorem Registered.modify (hr : Registered g h) {f : DispatcherSessions → DispatcherSessions}
    (hf : ∀ ds, (f ds).quicServerSessions = ds.quicServerSessions) : Registered (g.modify i f) h :=
  hr.of_eq rfl rfl fun j => by
    by_cases hj : j = i
    · subst hj
      simp [hf]
    · simp [hj]

theorem Registered.ne_of_mem (hr : Registered g h) {s : SimpleServerSession} (hs : s ∈ h i)
    {key : Int64} (hk : g.quicServerSessionPtr.Get key = none) : s.go_session_ ≠ key := by
  rintro rfl
  rw [hr.lookup i s hs] at hk
  cases hk

/-- A key the pool does not hold is no held session's. -/
theorem Registered.not_mem_keys (hr : Registered g h) {key : Int64}
    (hk : g.quicServerSessionPtr.Get key = none) : key ∉ ∑ j, (h j).map (·.go_session_) := by
  rw [Multiset.mem_sum]
  rintro ⟨j, -, hj⟩
  obtain ⟨s, hs, he⟩ := Multiset.mem_map.mp hj
  exact hr.ne_of_mem hs hk he

/-- A session added on top of dispatcher `i`'s goes on top of the sums over the dispatchers. -/
theorem sum_map_update_cons {α : Type} (f : SimpleServerSession → α) (s : SimpleServerSession) :
    ∑ j, (Function.update h i (s ::ₘ h i) j).map f = f s ::ₘ ∑ j, (h j).map f :=
  Custody.sum_update_cons h (fun m => m.map f) i (Multiset.map_cons _ _ _)

/-- A session taken off dispatcher `i`'s comes off the sums over the dispatchers. -/
theorem sum_map_update_of_cons {α : Type} (f : SimpleServerSession → α) {s : SimpleServerSession}
    {t : Multiset SimpleServerSession} (hh : h i = s ::ₘ t) :
    f s ::ₘ ∑ j, (Function.update h i t j).map f = ∑ j, (h j).map f :=
  Custody.sum_update_of_cons h (fun m => m.map f) i (by rw [hh, Multiset.map_cons])

theorem Mirrors.of_eq {d : GoQuicDispatcher} {ds ds' : DispatcherSessions} (hm : Mirrors d ds)
    (hk : ds'.session_map_ = ds.session_map_)
    (hc : ds'.closed_session_list_ = ds.closed_session_list_) : Mirrors d ds' :=
  ⟨hk ▸ hm.keys, hm.nodup, hc ▸ hm.closed⟩

/-- The invariant reads the dispatchers of the server alone. -/
theorem Inv.of_dispatchers (hi : Inv s g) (h : s'.dispatchers = s.dispatchers) : Inv s' g :=
  ⟨h ▸ hi.mirrors, hi.registered⟩

theorem inv_new : Inv (QuicSpdyServer.new N) (new : ServerSessions N) where
  mirrors _ := ⟨rfl, List.nodup_nil, rfl⟩
  registered :=
    { go := fun _ => rfl
      fresh := ⟨by simp [new, held, DispatcherSessions.sessions],
        by simp [new, held, DispatcherSessions.sessions]⟩
      keys := by simp [new, held, DispatcherSessions.sessions]
      lookup := fun _ s hs => by simp [new, held, DispatcherSessions.sessions] at hs
      live := fun key obj hk => by simp [new, Ptr.new, Ptr.Get] at hk }

/-! ### Creating a session -/

theorem CreateQuicSession_eq_some (hc : g.CreateQuicSession i c false = some g') :
    ∃ key, g.quicServerSessionPtr.Get key = none ∧
      g'.quicServerSessionPtr = ⟨g.quicServerSessionPtr.pool.insert key g.next, key + 1⟩ ∧
      g'.next = g.next + 1 ∧
      g'.dispatchers = Function.update g.dispatchers i
        ⟨(g.dispatchers i).session_map_ ++ [(c, ⟨g.next, key⟩)],
          (g.dispatchers i).closed_session_list_,
          insert g.next (g.dispatchers i).quicServerSessions⟩ := by
  obtain ⟨⟨g₁, key₁⟩, hg, rfl⟩ := Option.map_eq_some_iff.mp hc
  obtain ⟨⟨p, key⟩, hset, he⟩ := Option.map_eq_some_iff.mp hg
  obtain ⟨rfl, rfl⟩ := Prod.mk.inj he
  obtain ⟨hfree, rfl⟩ := Ptr.Set_eq_some hset
  refine ⟨key, hfree, rfl, rfl, ?_⟩
  simp [modify, Function.update_idem]

/-- A new session is registered: its object is the counter's, and `Set` hands out a key no held
session has. -/
theorem Registered.createQuicSession (hr : Registered g g.held)
    (hc : g.CreateQuicSession i c false = some g') : Registered g' g'.held := by
  obtain ⟨key, hfree, hp, hn, hd⟩ := CreateQuicSession_eq_some hc
  set s : SimpleServerSession := ⟨g.next, key⟩
  have hheld : g'.held = Function.update g.held i (s ::ₘ g.held i) := by
    funext j
    by_cases hj : j = i
    · subst hj
      simp [held, hd, DispatcherSessions.sessions, List.perm_middle]
    · simp [held, hd, hj]
  have hmem : ∀ j, ∀ s' ∈ g'.held j, s' = s ∨ s' ∈ g.held j := by
    intro j s' hs'
    rw [hheld] at hs'
    by_cases hj : j = i
    · subst hj
      simpa using hs'
    · exact .inr (by simpa [hj] using hs')
  -- the new session's object and key go on top of the sums of the held ones
  have hsess : ∑ j, (g'.held j).map (·.session) = g.next ::ₘ ∑ j, (g.held j).map (·.session) := by
    rw [hheld]
    exact sum_map_update_cons _ s
  have hkeys : ∑ j, (g'.held j).map (·.go_session_) =
      key ::ₘ ∑ j, (g.held j).map (·.go_session_) := by
    rw [hheld]
    exact sum_map_update_cons _ s
  refine ⟨fun j => ?_, ?_, ?_, fun j s' hs' => ?_, fun key' obj hk => ?_⟩
  · rw [hheld, hd]
    by_cases hj : j = i
    · subst hj
      simp [hr.go j, s]
    · simp [hj, hr.go j]
  · rw [hsess, hn]
    exact hr.fresh.alloc le_rfl
  · rw [hkeys]
    exact Multiset.nodup_cons.mpr ⟨hr.not_mem_keys hfree, hr.keys⟩
  · rw [hp]
    rcases hmem j s' hs' with rfl | hs'
    · exact AList.lookup_insert _
    · rw [Ptr.Get, AList.lookup_insert_ne (hr.ne_of_mem hs' hfree)]
      exact hr.lookup _ s' hs'
  · rw [hkeys]
    rw [hp] at hk
    by_cases hk' : key' = key
    · exact hk' ▸ Multiset.mem_cons_self _ _
    · rw [Ptr.Get, AList.lookup_insert_ne hk'] at hk
      exact Multiset.mem_cons_of_mem (hr.live key' obj hk)

/-- What creating the sessions of the connection IDs `cs` on dispatcher `i` does to the objects:
`session_map_` gains an entry for each, in order, no other entry changes, and the Go side
registers the new sessions. -/
structure Created (g g' : ServerSessions N) (i : Fin N.n) (cs : List Nat) : Prop where
  keys : (g'.dispatchers i).session_map_.map Prod.fst =
    (g.dispatchers i).session_map_.map Prod.fst ++ cs
  others : ∀ j ≠ i, (g'.dispatchers j).session_map_ = (g.dispatchers j).session_map_
  closed : ∀ j, (g'.dispatchers j).closed_session_list_ = (g.dispatchers j).closed_session_list_
  registered : Registered g g.held → Registered g' g'.held

theorem Created.refl (g : ServerSessions N) (i : Fin N.n) : Created g g i [] :=
  ⟨(List.append_nil _).symm, fun _ _ => rfl, fun _ => rfl, id⟩

theorem Created.trans {g₁ g₂ : ServerSessions N} {cs cs' : List Nat} (h : Created g g₁ i cs)
    (h₁ : Created g₁ g₂ i cs') : Created g g₂ i (cs ++ cs') :=
  ⟨by rw [h₁.keys, h.keys, List.append_assoc], fun j hj => (h₁.others j hj).trans (h.others j hj),
    fun j => (h₁.closed j).trans (h.closed j), fun hr => h₁.registered (h.registered hr)⟩

theorem created_CreateQuicSession (hc : g.CreateQuicSession i c false = some g') :
    Created g g' i [c] := by
  obtain ⟨key, -, -, -, hd⟩ := CreateQuicSession_eq_some hc
  refine ⟨by simp [hd], fun j hj => by simp [hd, hj], fun j => ?_, fun hr => hr.createQuicSession hc⟩
  by_cases hj : j = i
  · subst hj
    simp [hd]
  · simp [hd, hj]

/-- The calls of `CreateQuicSession` of dispatcher `i`, none for a connection ID with a session,
create a session for each connection ID `session_map_.insert` keeps. -/
theorem created_onEvents {devs : List DispatcherEvent} (hf : GoQuicDispatcher.Fresh devs)
    (he : g.onEvents (devs.map (.dispatcher i)) = some g') :
    Created g g' i (GoQuicDispatcher.inserted devs) := by
  induction devs generalizing g with
  | nil =>
    cases Option.some.inj he
    exact Created.refl _ i
  | cons ev devs ih =>
    obtain ⟨c, active⟩ := ev
    obtain rfl : active = false := hf c active List.mem_cons_self
    simp only [List.map_cons, onEvents] at he
    obtain ⟨g₁, h₁, h₂⟩ := Option.bind_eq_some_iff.mp he
    have hrest := ih (fun c' a hm => hf c' a (List.mem_cons_of_mem _ hm)) h₂
    exact (created_CreateQuicSession h₁).trans hrest

theorem Mirrors.grew {d d' : GoQuicDispatcher} {ds ds' : DispatcherSessions}
    {devs : List DispatcherEvent} (hm : Mirrors d ds) (hg : GoQuicDispatcher.Grew d d' devs)
    (hk : ds'.session_map_.map Prod.fst =
      ds.session_map_.map Prod.fst ++ GoQuicDispatcher.inserted devs)
    (hc : ds'.closed_session_list_ = ds.closed_session_list_) : Mirrors d' ds' :=
  ⟨by rw [hk, hm.keys, hg.sessionMap], hg.nodup hm.nodup, by rw [hc, hm.closed, hg.closed]⟩

/-- A call of dispatcher `i` that only creates sessions, none for a connection ID with one, keeps
the invariant. -/
theorem Inv.dispatch (hi : Inv s g) {d : GoQuicDispatcher} {devs : List DispatcherEvent}
    (hg : GoQuicDispatcher.Grew (s.dispatchers i) d devs) (hf : GoQuicDispatcher.Fresh devs)
    (he : g.onEvents (devs.map (.dispatcher i)) = some g') :
    Inv { s with dispatchers := Function.update s.dispatchers i d } g' := by
  have hc := created_onEvents hf he
  refine ⟨fun j => ?_, hc.registered hi.registered⟩
  by_cases hj : j = i
  · subst hj
    simpa using (hi.mirrors j).grew hg hc.keys (hc.closed j)
  · simpa [hj] using (hi.mirrors j).of_eq (hc.others j hj) (hc.closed j)

/-! ### Closing a session -/

theorem OnConnectionClosed_of_lookup_none (h : (g.dispatchers i).session_map_.lookup c = none) :
    g.OnConnectionClosed i c = g := by
  simp [OnConnectionClosed, h]

/-- Moving a session to the closed list keeps the sessions the dispatcher holds. -/
theorem held_OnConnectionClosed (hn : ((g.dispatchers i).session_map_.map Prod.fst).Nodup) :
    (g.OnConnectionClosed i c).held = g.held := by
  cases hl : (g.dispatchers i).session_map_.lookup c with
  | none => rw [OnConnectionClosed_of_lookup_none hl]
  | some session =>
    have hp := (perm_filter_of_lookup hn hl).map Prod.snd
    funext j
    by_cases hj : j = i
    · subst hj
      simp only [OnConnectionClosed, hl, held, modify_dispatchers_self, DispatcherSessions.sessions]
      refine Multiset.coe_eq_coe.mpr ?_
      -- the closed session goes from the end of the closed list to its place in `session_map_`
      rw [← List.append_assoc]
      exact (List.perm_append_singleton _ _).trans (hp.symm.append_right _)
    · simp [OnConnectionClosed, hl, held, hj]

/-- A session that closes moves on both sides: out of `session_map_` and `sessionMap`, onto the
closed list and its count; a connection ID with no session changes neither. -/
theorem Inv.onConnectionClosed (hi : Inv s g) :
    Inv { s with dispatchers := Function.update s.dispatchers i ((s.dispatchers i).OnConnectionClosed c) }
      (g.OnConnectionClosed i c) := by
  have hm := hi.mirrors i
  cases hl : (g.dispatchers i).session_map_.lookup c with
  | none =>
    have hc : c ∉ (s.dispatchers i).sessionMap := hm.keys ▸ lookup_eq_none_iff.mp hl
    rw [OnConnectionClosed_of_lookup_none hl, GoQuicDispatcher.OnConnectionClosed_of_not_mem hc,
      Function.update_eq_self]
    exact hi
  | some session =>
    have hc : c ∈ (s.dispatchers i).sessionMap := by
      rw [← hm.keys]
      by_contra hc
      rw [lookup_eq_none_iff.mpr hc] at hl
      cases hl
    obtain ⟨hsm, hcl⟩ := GoQuicDispatcher.OnConnectionClosed_of_mem hc
    have hg : g.OnConnectionClosed i c = g.modify i fun ds =>
        { ds with
          session_map_ := ds.session_map_.filter (·.1 ≠ c)
          closed_session_list_ := ds.closed_session_list_ ++ [session] } := by
      simp [OnConnectionClosed, hl]
    refine ⟨fun j => ?_, ?_⟩
    · by_cases hj : j = i
      · subst hj
        refine ⟨?_, by simpa [hsm] using hm.nodup.filter (fun x => decide (x ≠ c)), ?_⟩
        · simp only [hg, modify_dispatchers_self, Function.update_self, hsm, ← hm.keys,
            List.filter_map]
          rfl
        · simp [hg, hcl, hm.closed]
      · simpa [hg, hj] using hi.mirrors j
    · rw [held_OnConnectionClosed (hm.keys ▸ hm.nodup), hg]
      exact hi.registered.modify fun _ => rfl

/-! ### Deleting the closed sessions -/

@[simp] theorem DeleteGoSession_quicServerSessionPtr (key : Int64) :
    (g.DeleteGoSession i key).quicServerSessionPtr = g.quicServerSessionPtr.Del key := by
  unfold DeleteGoSession
  split <;> rfl

@[simp] theorem DeleteGoSession_next (key : Int64) : (g.DeleteGoSession i key).next = g.next := by
  unfold DeleteGoSession
  split <;> rfl

theorem DeleteGoSession_of_Get {key : Int64} {obj : Nat}
    (h : g.quicServerSessionPtr.Get key = some obj) :
    (g.DeleteGoSession i key).dispatchers = (g.modify i fun ds =>
      { ds with quicServerSessions := ds.quicServerSessions.erase obj }).dispatchers := by
  simp [DeleteGoSession, h]

/-- `DeleteGoSession` touches the Go side alone. -/
theorem DeleteGoSession_entries (key : Int64) (j : Fin N.n) :
    ((g.DeleteGoSession i key).dispatchers j).session_map_ = (g.dispatchers j).session_map_ ∧
      ((g.DeleteGoSession i key).dispatchers j).closed_session_list_ =
        (g.dispatchers j).closed_session_list_ := by
  unfold DeleteGoSession
  split
  · by_cases hj : j = i
    · subst hj
      simp
    · simp [hj]
  · exact ⟨rfl, rfl⟩

/-- What every destructor keeps, the destructors that `DeleteSessions` runs keep. -/
theorem foldl_DeleteGoSession_induction {P : ServerSessions N → Prop} (l : List SimpleServerSession)
    (h0 : P g) (hs : ∀ g key, P g → P (g.DeleteGoSession i key)) :
    P (l.foldl (fun g s => g.DeleteGoSession i s.go_session_) g) := by
  induction l generalizing g with
  | nil => exact h0
  | cons s l ih => exact ih (hs g s.go_session_ h0)

/-- The destructors that `DeleteSessions` runs touch the Go side alone. -/
theorem foldl_DeleteGoSession_entries (l : List SimpleServerSession) (j : Fin N.n) :
    ((l.foldl (fun g s => g.DeleteGoSession i s.go_session_) g).dispatchers j).session_map_ =
        (g.dispatchers j).session_map_ ∧
      ((l.foldl (fun g s => g.DeleteGoSession i s.go_session_) g).dispatchers j).closed_session_list_ =
        (g.dispatchers j).closed_session_list_ :=
  foldl_DeleteGoSession_induction (P := fun g' =>
      (g'.dispatchers j).session_map_ = (g.dispatchers j).session_map_ ∧
        (g'.dispatchers j).closed_session_list_ = (g.dispatchers j).closed_session_list_) l
    ⟨rfl, rfl⟩ fun _ key ⟨h₁, h₂⟩ =>
      ⟨(DeleteGoSession_entries key j).1.trans h₁, (DeleteGoSession_entries key j).2.trans h₂⟩

theorem DeleteSessions_next : (g.DeleteSessions i).next = g.next :=
  foldl_DeleteGoSession_induction (P := fun g' => g'.next = g.next) _ rfl
    fun _ key h => (DeleteGoSession_next key).trans h

/-- The destructor of a held session deletes its Go session and its key, and nothing the other
held sessions need. -/
theorem Registered.deleteGoSession (hr : Registered g h) {s : SimpleServerSession}
    {t : Multiset SimpleServerSession} (hh : h i = s ::ₘ t) :
    Registered (g.DeleteGoSession i s.go_session_) (Function.update h i t) := by
  have hget := hr.lookup i s (hh ▸ Multiset.mem_cons_self s t)
  -- the session's key and object leave the sums
  have hkeys := sum_map_update_of_cons (·.go_session_) hh
  have hsess := sum_map_update_of_cons (·.session) hh
  have hnodup := hkeys ▸ hr.keys
  have hkey_out := (Multiset.nodup_cons.mp hnodup).1
  have hsess_out := (Multiset.nodup_cons.mp (hsess ▸ hr.fresh.nodup)).1
  have hle : ∀ j, Function.update h i t j ≤ h j := by
    intro j
    by_cases hj : j = i
    · subst hj
      simpa [hh] using Multiset.le_cons_self t s
    · simp [hj]
  refine ⟨fun j => ?_, ?_, (Multiset.nodup_cons.mp hnodup).2, fun j s' hs' => ?_,
    fun key obj hk => ?_⟩
  · rw [DeleteGoSession_of_Get hget]
    by_cases hj : j = i
    · subst hj
      have hout : s.session ∉ (t.map (·.session)).toFinset := fun hm =>
        hsess_out (Multiset.mem_sum.mpr ⟨j, Finset.mem_univ _, by simpa using hm⟩)
      simp only [modify_dispatchers_self, hr.go j, hh, Function.update_self, Multiset.map_cons,
        Multiset.toFinset_cons]
      exact Finset.erase_insert hout
    · simp [hj, hr.go j]
  · rw [DeleteGoSession_next]
    exact hr.fresh.of_le (hsess ▸ Multiset.le_cons_self _ _) le_rfl
  · have hne : s'.go_session_ ≠ s.go_session_ := fun he =>
      hkey_out (Multiset.mem_sum.mpr ⟨j, Finset.mem_univ _, Multiset.mem_map.mpr ⟨s', hs', he⟩⟩)
    rw [DeleteGoSession_quicServerSessionPtr, Ptr.Get, Ptr.Del, AList.lookup_erase_ne hne]
    exact hr.lookup j s' (Multiset.mem_of_le (hle j) hs')
  · rw [DeleteGoSession_quicServerSessionPtr] at hk
    have hne : key ≠ s.go_session_ := by
      rintro rfl
      simp [Ptr.Get, Ptr.Del] at hk
    rw [Ptr.Get, Ptr.Del, AList.lookup_erase_ne hne] at hk
    have hmem := hr.live key obj hk
    rw [← hkeys] at hmem
    exact (Multiset.mem_cons.mp hmem).resolve_left hne

/-- The destructors of the closed sessions, in order, leave the sessions before them
registered. -/
theorem Registered.deleteGoSessions (base : Multiset SimpleServerSession)
    (l : List SimpleServerSession) (hr : Registered g (Function.update h i (base + ↑l))) :
    Registered (l.foldl (fun g s => g.DeleteGoSession i s.go_session_) g)
      (Function.update h i base) := by
  induction l generalizing g with
  | nil => simpa using hr
  | cons s l ih =>
    have hh : Function.update h i (base + ↑(s :: l)) i = s ::ₘ (base + ↑l) := by
      rw [Function.update_self, ← Multiset.cons_coe, Multiset.add_cons]
    have hd := hr.deleteGoSession hh
    rw [Function.update_idem] at hd
    exact ih hd

theorem held_DeleteSessions :
    (g.DeleteSessions i).held =
      Function.update g.held i ↑((g.dispatchers i).session_map_.map Prod.snd) := by
  funext j
  obtain ⟨h₁, h₂⟩ := foldl_DeleteGoSession_entries (g := g) (i := i)
    (g.dispatchers i).closed_session_list_ j
  by_cases hj : j = i
  · subst hj
    simp [DeleteSessions, held, DispatcherSessions.sessions, h₁]
  · simp [DeleteSessions, held, DispatcherSessions.sessions, hj, h₁, h₂]

/-- `DeleteSessions` leaves the sessions of `session_map_` registered. -/
theorem Registered.deleteSessions (hr : Registered g g.held) :
    Registered (g.DeleteSessions i) (g.DeleteSessions i).held := by
  -- the sessions held are those of `session_map_`, then the closed ones the destructors delete
  have hsplit : g.held i = ↑((g.dispatchers i).session_map_.map Prod.snd) +
      ↑(g.dispatchers i).closed_session_list_ := (Multiset.coe_add _ _).symm
  have hr' : Registered g (Function.update g.held i
      (↑((g.dispatchers i).session_map_.map Prod.snd) + ↑(g.dispatchers i).closed_session_list_)) := by
    rwa [← hsplit, Function.update_eq_self]
  rw [held_DeleteSessions]
  exact (Registered.deleteGoSessions _ _ hr').modify fun _ => rfl

theorem Inv.deleteSessions (hi : Inv s g) :
    Inv { s with dispatchers := Function.update s.dispatchers i (s.dispatchers i).DeleteSessions }
      (g.DeleteSessions i) := by
  refine ⟨fun j => ?_, hi.registered.deleteSessions⟩
  obtain ⟨h₁, h₂⟩ := foldl_DeleteGoSession_entries (g := g) (i := i)
    (g.dispatchers i).closed_session_list_ j
  by_cases hj : j = i
  · subst hj
    have hm := hi.mirrors j
    refine ⟨?_, by simpa [GoQuicDispatcher.DeleteSessions] using hm.nodup, ?_⟩
    · simpa [DeleteSessions, GoQuicDispatcher.DeleteSessions, h₁] using hm.keys
    · simp [DeleteSessions, GoQuicDispatcher.DeleteSessions]
  · simpa [DeleteSessions, hj] using (hi.mirrors j).of_eq h₁ h₂

/-! ### Runs -/

section Runs

variable {flags : Flags} {framer : Framer} {l : ServerLabel N} {evs tr : List (ServerEvent N)}

/-- A step of the server with its sessions keeps the invariant. The server before it is
reachable, so the dispatcher that steps creates sessions only for connection IDs without one. -/
theorem Inv.step (hi : Inv s g) (hs : (QuicSpdyServer.system N flags framer).Reach s tr)
    (h : (system N flags framer).step (s, g) l = some ((s', g'), evs)) : Inv s' g' := by
  obtain ⟨hstep, hupd⟩ := Lts.beside_step_eq_some h
  replace hstep : QuicSpdyServer.step flags framer s l = some (s', evs) := hstep
  obtain ⟨g₁, he, rfl⟩ := Option.map_eq_some_iff.mp hupd
  cases l with
  | read r peer dgram =>
    obtain ⟨-, rfl, rfl⟩ := QuicSpdyServer.step_read_cases hstep
    cases Option.some.inj he
    exact hi.of_dispatchers rfl
  | send r =>
    obtain ⟨_, _, -, -, rfl, rfl⟩ := QuicSpdyServer.step_send_cases hstep
    cases Option.some.inj he
    exact hi.of_dispatchers rfl
  | put i =>
    obtain ⟨_, -, rfl, rfl⟩ := QuicSpdyServer.step_put_cases hstep
    cases Option.some.inj he
    exact hi.of_dispatchers rfl
  | receive i rejector enqueueOk =>
    obtain ⟨_, _, -, -, rfl, rfl⟩ := QuicSpdyServer.step_receive_cases hstep
    have hd := (GoQuicDispatcher.reach_inv (QuicSpdyServer.reach_projected hs i)).1
    -- the packet's event is no dispatcher's; the rest are dispatcher `i`'s
    exact (hi.dispatch (GoQuicDispatcher.grew_ProcessPacket _ _ _)
      (hd.ProcessPacket _ _ _).fresh he).of_dispatchers rfl
  | task i l =>
    obtain ⟨-, -, d, devs, hds, rfl, rfl⟩ := QuicSpdyServer.step_task_cases hstep
    have hd := (GoQuicDispatcher.reach_inv (QuicSpdyServer.reach_projected hs i)).1
    cases l with
    | onConnectionClosed c =>
      obtain ⟨rfl, rfl⟩ := Prod.mk.inj (Option.some.inj hds).symm
      cases Option.some.inj he
      exact hi.onConnectionClosed
    | deleteSessions =>
      obtain ⟨rfl, rfl⟩ := Prod.mk.inj (Option.some.inj hds).symm
      cases Option.some.inj he
      exact hi.deleteSessions
    | _ =>
      exact hi.dispatch (GoQuicDispatcher.grew_step hds (fun _ => by simp) (by simp))
        (hd.step hds).fresh he

/-- The invariant holds on every run. -/
theorem reach_inv {q : QuicSpdyServer N × ServerSessions N}
    (h : (system N flags framer).Reach q tr) : Inv q.1 q.2 :=
  h.induction_on (P := fun q _ => Inv q.1 q.2) inv_new
    fun ⟨_, _⟩ _ _ ⟨_, _⟩ _ hr hi hs => hi.step (Lts.Reach.fst hr) hs

open QuicSpdyServer in
/-- The datagram of `oneDatagram` creates a session on dispatcher 1, and the session closes. -/
def closedSession : List (ServerLabel twoServers) :=
  oneDatagram ++ [.task ⟨1, Nat.one_lt_two⟩ (.onConnectionClosed 1)]

open QuicSpdyServer in
/-- The run: dispatcher 1's session is the first object, with the first key, and it is closed
and not yet deleted. -/
theorem run_closedSession :
    ((system twoServers ⟨true, false, false, false⟩ chloFramer).run
        (system twoServers ⟨true, false, false, false⟩ chloFramer).init closedSession).map
      (fun r => ((r.1.2.dispatchers ⟨1, by decide⟩).session_map_,
        (r.1.2.dispatchers ⟨1, by decide⟩).closed_session_list_,
        (r.1.2.dispatchers ⟨1, by decide⟩).quicServerSessions,
        r.1.2.quicServerSessionPtr.Get 0)) =
    some ([], [⟨0, 0⟩], {0}, some 0) := by
  decide +kernel

/-- On every run the session objects refine the dispatcher model: the connection IDs of each
dispatcher's `session_map_` are its `sessionMap`, and its `closed_session_list_` has
`closedSessionList` entries. -/
theorem sessions_refine {q : QuicSpdyServer N × ServerSessions N}
    (h : (system N flags framer).Reach q tr) (i : Fin N.n) :
    (q.2.dispatchers i).session_map_.map Prod.fst = (q.1.dispatchers i).sessionMap ∧
      (q.2.dispatchers i).closed_session_list_.length = (q.1.dispatchers i).closedSessionList :=
  ⟨((reach_inv h).mirrors i).keys, ((reach_inv h).mirrors i).closed⟩

open QuicSpdyServer in
theorem sessions_refine_closed_session : ∃ q tr,
    (system twoServers ⟨true, false, false, false⟩ chloFramer).run
      (system twoServers ⟨true, false, false, false⟩ chloFramer).init closedSession = some (q, tr) ∧
    (q.2.dispatchers ⟨1, by decide⟩).session_map_.map Prod.fst =
      (q.1.dispatchers ⟨1, by decide⟩).sessionMap ∧
    (q.2.dispatchers ⟨1, by decide⟩).closed_session_list_.length =
      (q.1.dispatchers ⟨1, by decide⟩).closedSessionList := by
  obtain ⟨⟨q, tr⟩, hr, -⟩ := Option.map_eq_some_iff.mp run_closedSession
  exact ⟨q, tr, hr, sessions_refine (Lts.Reach.of_run hr) _⟩

/-- On every run each dispatcher's `quicServerSessions` holds the Go sessions of exactly the
sessions of its `session_map_` and `closed_session_list_`, and no session object is held twice,
by one dispatcher or by two. -/
theorem quicServerSessions_mirror {q : QuicSpdyServer N × ServerSessions N}
    (h : (system N flags framer).Reach q tr) :
    (∀ i, (q.2.dispatchers i).quicServerSessions =
      ((q.2.dispatchers i).sessions.map (·.session)).toFinset) ∧
    (∑ i, ((q.2.dispatchers i).sessions.map (·.session) : Multiset Nat)).Nodup :=
  ⟨(reach_inv h).registered.go, (reach_inv h).registered.fresh.nodup⟩

open QuicSpdyServer in
theorem quicServerSessions_mirror_closed_session : ∃ q tr,
    (system twoServers ⟨true, false, false, false⟩ chloFramer).run
      (system twoServers ⟨true, false, false, false⟩ chloFramer).init closedSession = some (q, tr) ∧
    (∀ i, (q.2.dispatchers i).quicServerSessions =
      ((q.2.dispatchers i).sessions.map (·.session)).toFinset) ∧
    (∑ i, ((q.2.dispatchers i).sessions.map (·.session) : Multiset Nat)).Nodup := by
  obtain ⟨⟨q, tr⟩, hr, -⟩ := Option.map_eq_some_iff.mp run_closedSession
  exact ⟨q, tr, hr, quicServerSessions_mirror (Lts.Reach.of_run hr)⟩

/-- On every run the keys of `quicServerSessionPtr` are the `go_session_` keys of the sessions the
dispatchers hold, each finding its own session's Go session, and no two held sessions, of one
dispatcher or of two, share a key. -/
theorem go_session_keys {q : QuicSpdyServer N × ServerSessions N}
    (h : (system N flags framer).Reach q tr) :
    (∀ key obj, q.2.quicServerSessionPtr.Get key = some obj ↔
      ∃ i, ∃ s ∈ (q.2.dispatchers i).sessions, s.go_session_ = key ∧ s.session = obj) ∧
    (∑ i, ((q.2.dispatchers i).sessions.map (·.go_session_) : Multiset Int64)).Nodup := by
  have hr := (reach_inv h).registered
  refine ⟨fun key obj => ⟨fun hk => ?_, ?_⟩, hr.keys⟩
  · -- a live key is a held session's, whose own lookup then names the object
    obtain ⟨i, -, hi⟩ := Multiset.mem_sum.mp (hr.live key obj hk)
    obtain ⟨s, hs, rfl⟩ := Multiset.mem_map.mp hi
    have hobj := (hr.lookup i s hs).symm.trans hk
    exact ⟨i, s, hs, rfl, Option.some.inj hobj⟩
  · rintro ⟨i, s, hs, rfl, rfl⟩
    exact hr.lookup i s hs

open QuicSpdyServer in
theorem go_session_keys_closed_session : ∃ q tr,
    (system twoServers ⟨true, false, false, false⟩ chloFramer).run
      (system twoServers ⟨true, false, false, false⟩ chloFramer).init closedSession = some (q, tr) ∧
    (∀ key obj, q.2.quicServerSessionPtr.Get key = some obj ↔
      ∃ i, ∃ s ∈ (q.2.dispatchers i).sessions, s.go_session_ = key ∧ s.session = obj) ∧
    (∑ i, ((q.2.dispatchers i).sessions.map (·.go_session_) : Multiset Int64)).Nodup := by
  obtain ⟨⟨q, tr⟩, hr, -⟩ := Option.map_eq_some_iff.mp run_closedSession
  exact ⟨q, tr, hr, go_session_keys (Lts.Reach.of_run hr)⟩

end Runs

/-! ### The Go side keeps up with the server

`CreateGoSession` returns once `quicServerSessionPtr.Set` finds a free key, which it does while
fewer than `math.MaxInt64` keys are live. The pool holds the keys of the held sessions alone, and
there are no more of those than sessions created, so the Go side follows every run of the server
that creates fewer. -/

section Follow

variable {flags : Flags} {framer : Framer} {tr : List (ServerEvent N)}

/-- The events that call `CreateQuicSession`. -/
def createsSession : ServerEvent N → Bool
  | .dispatcher _ (.createQuicSession _ _) => true
  | _ => false

theorem CreateQuicSession_next {active : Bool} (hc : g.CreateQuicSession i c active = some g') :
    g'.next = g.next + 1 := by
  obtain ⟨⟨g₁, key⟩, hg, rfl⟩ := Option.map_eq_some_iff.mp hc
  obtain ⟨r, -, he⟩ := Option.map_eq_some_iff.mp hg
  cases he
  cases active <;> rfl

theorem CreateQuicSession_isSome {active : Bool}
    (h : g.quicServerSessionPtr.pool.keys.length < 2 ^ 63 - 1) :
    (g.CreateQuicSession i c active).isSome := by
  simp only [CreateQuicSession, CreateGoSession, Option.isSome_map]
  exact Ptr.Set_isSome h

theorem onEvents_next {evs : List (ServerEvent N)} (he : g.onEvents evs = some g') :
    g'.next = g.next + evs.countP createsSession := by
  induction evs generalizing g with
  | nil =>
    cases Option.some.inj he
    rfl
  | cons e evs ih =>
    rw [List.countP_cons]
    cases e with
    | dispatcher i e =>
      obtain ⟨c, active⟩ := e
      obtain ⟨g₁, h₁, h₂⟩ := Option.bind_eq_some_iff.mp he
      rw [ih h₂, CreateQuicSession_next h₁]
      simp only [createsSession, if_true]
      omega
    | _ =>
      rw [ih he]
      rfl

theorem onLabel_next (l : ServerLabel N) : (g.onLabel l).next = g.next := by
  unfold onLabel
  split
  · unfold OnConnectionClosed
    split <;> rfl
  · exact DeleteSessions_next
  · rfl

/-- The counter of a run is the number of sessions it created. -/
theorem reach_next {q : QuicSpdyServer N × ServerSessions N}
    (h : (system N flags framer).Reach q tr) : q.2.next = tr.countP createsSession :=
  h.induction_on (P := fun q tr => q.2.next = tr.countP createsSession) rfl
    fun _ _ _ _ _ _ hn hs => by
      obtain ⟨-, hupd⟩ := Lts.beside_step_eq_some hs
      obtain ⟨g₁, he, hg⟩ := Option.map_eq_some_iff.mp hupd
      rw [← hg, onLabel_next, onEvents_next he, hn, List.countP_append]

/-- The pool holds no more keys than there are session objects. -/
theorem Registered.keys_length_le (hr : Registered g h) :
    g.quicServerSessionPtr.pool.keys.length ≤ g.next := by
  set pool := g.quicServerSessionPtr.pool
  -- every key of the pool is a held session's
  have hsub : pool.keys.toFinset ⊆ (∑ i, (h i).map (·.go_session_)).toFinset := by
    intro key hk
    obtain ⟨obj, hobj⟩ := Option.isSome_iff_exists.mp
      (AList.lookup_isSome.mpr (AList.mem_keys.mpr (List.mem_toFinset.mp hk)))
    exact Multiset.mem_toFinset.mpr (hr.live key obj hobj)
  calc pool.keys.length = pool.keys.toFinset.card :=
        (List.toFinset_card_of_nodup pool.keys_nodup).symm
    _ ≤ (∑ i, (h i).map (·.go_session_)).toFinset.card := Finset.card_le_card hsub
    _ ≤ Multiset.card (∑ i, (h i).map (·.go_session_)) := Multiset.toFinset_card_le _
    _ = Multiset.card (∑ i, (h i).map (·.session)) := by simp [Multiset.card_sum]
    _ ≤ g.next := hr.fresh.card_le

/-- The sessions of a step's events, none for a connection ID with one, are created while fewer
than `math.MaxInt64` session objects exist. -/
theorem onEvents_isSome (hr : Registered g g.held) {evs : List (ServerEvent N)}
    (hf : ∀ i c, ServerEvent.dispatcher i (.createQuicSession c true) ∉ evs)
    (hn : g.next + evs.countP createsSession < 2 ^ 63 - 1) : (g.onEvents evs).isSome := by
  induction evs generalizing g with
  | nil => rfl
  | cons e evs ih =>
    have hf' : ∀ i c, ServerEvent.dispatcher i (.createQuicSession c true) ∉ evs :=
      fun i c hm => hf i c (List.mem_cons_of_mem _ hm)
    rw [List.countP_cons] at hn
    cases e with
    | dispatcher i e =>
      obtain ⟨c, active⟩ := e
      obtain rfl : active = false := by
        cases active
        · rfl
        · exact absurd List.mem_cons_self (hf i c)
      simp only [createsSession, if_true] at hn
      have hs : (g.CreateQuicSession i c false).isSome :=
        CreateQuicSession_isSome (lt_of_le_of_lt hr.keys_length_le (by omega))
      obtain ⟨g₁, h₁⟩ := Option.isSome_iff_exists.mp hs
      show ((g.CreateQuicSession i c false).bind (·.onEvents evs)).isSome
      rw [h₁, Option.bind_some]
      exact ih (hr.createQuicSession h₁) hf' (by rw [CreateQuicSession_next h₁]; omega)
    | _ => exact ih hr hf' hn

/-- The Go side never holds the server back: while fewer than `math.MaxInt64` sessions have been
created, the runs of the server with its sessions are the runs of the server. -/
theorem sessions_follow {s : QuicSpdyServer N} (hn : tr.countP createsSession < 2 ^ 63 - 1) :
    (∃ g, (system N flags framer).Reach (s, g) tr) ↔
      (QuicSpdyServer.system N flags framer).Reach s tr := by
  refine ⟨fun ⟨_, h⟩ => Lts.Reach.fst h, fun h => ?_⟩
  induction h with
  | init => exact ⟨new, Lts.Reach.init⟩
  | @step s tr l s' evs hs hstep ih =>
    rw [List.countP_append] at hn
    obtain ⟨g, hg⟩ := ih (by omega)
    -- no event of the step calls `CreateQuicSession` for a connection ID with a session
    have hf : ∀ i c, ServerEvent.dispatcher i (.createQuicSession c true) ∉ evs := by
      intro i c hm
      apply GoQuicDispatcher.createSession_fresh (QuicSpdyServer.reach_projected (hs.step hstep) i) c
      exact List.mem_filterMap.mpr ⟨_, List.mem_append_right _ hm, by simp [ServerEvent.ofDispatcher]⟩
    obtain ⟨g₁, he⟩ := Option.isSome_iff_exists.mp
      (onEvents_isSome (reach_inv hg).registered hf (by rw [reach_next hg]; exact hn))
    refine ⟨g₁.onLabel l, hg.step (l := l) ?_⟩
    simp [system, Lts.beside, hstep, update, he]

open QuicSpdyServer in
theorem sessions_follow_one_datagram : ∃ s,
    (QuicSpdyServer.system twoServers ⟨true, false, false, false⟩ chloFramer).run
      (QuicSpdyServer.system twoServers ⟨true, false, false, false⟩ chloFramer).init oneDatagram =
      some (s, oneDatagramTrace) ∧
    oneDatagramTrace.countP createsSession < 2 ^ 63 - 1 ∧
    ∃ g, (system twoServers ⟨true, false, false, false⟩ chloFramer).Reach (s, g)
      oneDatagramTrace := by
  obtain ⟨⟨s, tr⟩, hr, he⟩ := Option.map_eq_some_iff.mp run_oneDatagram
  obtain ⟨rfl, -⟩ := Prod.mk.inj he
  have hn : oneDatagramTrace.countP createsSession < 2 ^ 63 - 1 := by decide
  exact ⟨s, hr, hn, (sessions_follow hn).mpr (Lts.Reach.of_run hr)⟩

end Follow

end ServerSessions

end GoQuic
