import GoQuic.TaskRunner.DoTasks
import GoQuic.Trace.Reach

/-!
# Alarms and the event loop

`GoQuicAlarm` of `alarm.go` and the loop that drives one `TaskRunner`: the main loops of
`QuicSpdyServer.Serve` (`server.go:183–206`) and `Conn.processEventsWithDeadline`
(`client_conn.go:65–97`). libquic reaches the alarms through the functions `alarm.go` exports
(`CreateGoQuicAlarm`, `GoQuicAlarmSetImpl`, `GoQuicAlarmCancelImpl`, `GoQuicAlarmDestroy`), from
packet processing outside `DoTasks` (label `call`) or from the callback of an alarm that
`DoTasks` fires (label `onAlarm`, with the calls of that callback).

`DoTasks` is cut where its callbacks run: `waitTimer` (the server's loop, after a value from
`WaitTimer()`) and `doTasks` (the client's unconditional call) run its first loop, `onAlarm`
runs one `OnAlarm` of the batch, and `finish` its final `resetTimer`. The clock readings are
arguments of the labels, so nothing below assumes how the clock moves; the timer may expire at
any step once armed, since it runs on the Go runtime's own clock.

The events are the calls of the alarm API, the calls of `go_quic_alarm_fire` (`fire`), and the
calls of `SetImpl` that `OnAlarm` makes to re-arm an alarm whose deadline is ahead (`rearm`).
-/

namespace GoQuic

/-- `GoQuicAlarm` (`alarm.go:12–20`). The wrapper, clock and runner pointers are fixed at
creation, and `invalidateCh` is never used. -/
structure GoQuicAlarm where
  deadline : Int
  isDestroyed : Bool
  isCanceled : Bool
  deriving DecidableEq, Repr

/-- A call of libquic into the Go alarm API (`alarm.go:62–93`); an alarm is named by its key in
`goQuicAlarmPtr`. -/
inductive Call where
  | create
  | setImpl (key : Nat) (deadline : Int)
  | cancelImpl (key : Nat)
  | destroy (key : Nat)
  deriving DecidableEq, Repr

/-- What a run shows of the alarms: the API calls, `OnAlarm` re-arming through `SetImpl`, and
`go_quic_alarm_fire` at the clock reading `OnAlarm` checked. -/
inductive Event where
  | setImpl (a : Nat) (deadline : Int)
  | cancelImpl (a : Nat)
  | destroy (a : Nat)
  | rearm (a : Nat)
  | fire (a : Nat) (now : Int)
  deriving DecidableEq, Repr

/-- What drives the loop. -/
inductive Label where
  /-- libquic calls the alarm API outside `DoTasks`. -/
  | call (c : Call)
  /-- The Go runtime's clock reaches the timer's expiry. -/
  | expire
  /-- The loop receives from `WaitTimer()` and starts `DoTasks` at the clock reading `now`. -/
  | waitTimer (now : Int)
  /-- The loop starts `DoTasks` without a value from the timer. -/
  | doTasks (now : Int)
  /-- `DoTasks` runs `OnAlarm` on its next item; a fired alarm's callback makes `calls`. -/
  | onAlarm (now : Int) (calls : List Call)
  /-- `DoTasks` ends with `resetTimer`. -/
  | finish
  deriving DecidableEq, Repr

/-- One event loop: its runner, the alarm objects by key, the keys live in `goQuicAlarmPtr`, the
key `goQuicAlarmPtr.Set` tries first, and, while `DoTasks` runs its callbacks, the items whose
`OnAlarm` is still to come. Each alarm keeps the key it was created with, so its key is also the
handle its runner knows it by. -/
structure Loop where
  runner : TaskRunner
  alarm : Nat → GoQuicAlarm
  alarmPtr : Nat → Bool
  index : Nat
  batch : Option (List Nat)

namespace Loop

/-- The loop before its first alarm, with `CreateTaskRunner` at the clock reading `now`. -/
def init (now : Int) : Loop where
  runner := TaskRunner.CreateTaskRunner now
  alarm _ := ⟨0, false, false⟩
  alarmPtr _ := false
  index := 0
  batch := none

/-- Write the fields of alarm `a`. -/
def setAlarm (s : Loop) (a : Nat) (x : GoQuicAlarm) : Loop :=
  { s with alarm := Function.update s.alarm a x }

@[simp] theorem setAlarm_runner (s : Loop) (a : Nat) (x : GoQuicAlarm) :
    (s.setAlarm a x).runner = s.runner := rfl

@[simp] theorem setAlarm_alarmPtr (s : Loop) (a : Nat) (x : GoQuicAlarm) :
    (s.setAlarm a x).alarmPtr = s.alarmPtr := rfl

@[simp] theorem setAlarm_index (s : Loop) (a : Nat) (x : GoQuicAlarm) :
    (s.setAlarm a x).index = s.index := rfl

@[simp] theorem setAlarm_batch (s : Loop) (a : Nat) (x : GoQuicAlarm) :
    (s.setAlarm a x).batch = s.batch := rfl

@[simp] theorem setAlarm_alarm_self (s : Loop) (a : Nat) (x : GoQuicAlarm) :
    (s.setAlarm a x).alarm a = x :=
  Function.update_self _ _ _

theorem setAlarm_alarm_of_ne (s : Loop) {a b : Nat} (x : GoQuicAlarm) (h : b ≠ a) :
    (s.setAlarm a x).alarm b = s.alarm b :=
  Function.update_of_ne h _ _

/-- `GoQuicAlarm.SetImpl` (`alarm.go:22–28`). -/
def SetImpl (s : Loop) (a : Nat) : Option Loop :=
  if (s.alarm a).isDestroyed then some s
  else
    let s := s.setAlarm a { s.alarm a with isCanceled := false }
    (s.runner.RunAlarm a (s.alarm a).deadline).map fun t => { s with runner := t }

/-- `GoQuicAlarm.CancelImpl` (`alarm.go:37–40`). -/
def CancelImpl (s : Loop) (a : Nat) : Option Loop :=
  let s := s.setAlarm a { s.alarm a with isCanceled := true }
  (s.runner.CancelAlarm a).map fun t => { s with runner := t }

/-- `GoQuicAlarm.Destroy` (`alarm.go:30–35`). -/
def Destroy (s : Loop) (a : Nat) : Option Loop :=
  let s := s.setAlarm a { s.alarm a with isDestroyed := true }
  (s.CancelImpl a).bind fun s => (s.runner.UnregisterAlarm a).map fun t => { s with runner := t }

/-- `GoQuicAlarm.OnAlarm` (`alarm.go:42–56`) at the clock reading `now`, with the call it makes:
`SetImpl` while the deadline is ahead, `go_quic_alarm_fire` unless the alarm is canceled. -/
def OnAlarm (s : Loop) (a : Nat) (now : Int) : Option (Loop × List Event) :=
  if now < (s.alarm a).deadline then (s.SetImpl a).map fun s => (s, [.rearm a])
  else if (s.alarm a).isCanceled then some (s, [])
  else some (s, [.fire a now])

/-- `CreateGoQuicAlarm` (`alarm.go:62–73`). `goQuicAlarmPtr.Set` (`ptr.go`) searches from
`index` for a free key; no key at or above `index` is ever taken, so the search ends at once. -/
def CreateGoQuicAlarm (s : Loop) : Loop × Nat :=
  ({ s with
      alarm := Function.update s.alarm s.index ⟨0, false, false⟩
      runner := s.runner.RegisterAlarm s.index
      alarmPtr := Function.update s.alarmPtr s.index true
      index := s.index + 1 }, s.index)

@[simp] theorem CreateGoQuicAlarm_runner (s : Loop) :
    s.CreateGoQuicAlarm.1.runner = s.runner.RegisterAlarm s.index := rfl

@[simp] theorem CreateGoQuicAlarm_alarm (s : Loop) :
    s.CreateGoQuicAlarm.1.alarm = Function.update s.alarm s.index ⟨0, false, false⟩ := rfl

@[simp] theorem CreateGoQuicAlarm_alarmPtr (s : Loop) :
    s.CreateGoQuicAlarm.1.alarmPtr = Function.update s.alarmPtr s.index true := rfl

@[simp] theorem CreateGoQuicAlarm_index (s : Loop) : s.CreateGoQuicAlarm.1.index = s.index + 1 :=
  rfl

@[simp] theorem CreateGoQuicAlarm_batch (s : Loop) : s.CreateGoQuicAlarm.1.batch = s.batch := rfl

/-- `GoQuicAlarmSetImpl` (`alarm.go:75–80`); a key not in `goQuicAlarmPtr` gives a nil alarm,
and Go panics. -/
def GoQuicAlarmSetImpl (s : Loop) (key : Nat) (deadline : Int) : Option Loop :=
  if s.alarmPtr key then (s.setAlarm key { s.alarm key with deadline := deadline }).SetImpl key
  else none

/-- `GoQuicAlarmCancelImpl` (`alarm.go:82–86`). -/
def GoQuicAlarmCancelImpl (s : Loop) (key : Nat) : Option Loop :=
  if s.alarmPtr key then s.CancelImpl key else none

/-- `GoQuicAlarmDestroy` (`alarm.go:88–93`). -/
def GoQuicAlarmDestroy (s : Loop) (key : Nat) : Option Loop :=
  if s.alarmPtr key then
    (s.Destroy key).map fun s => { s with alarmPtr := Function.update s.alarmPtr key false }
  else none

/-- One call into the alarm API, with the event it is. -/
def call (s : Loop) : Call → Option (Loop × List Event)
  | .create => some (s.CreateGoQuicAlarm.1, [])
  | .setImpl key d => (s.GoQuicAlarmSetImpl key d).map fun s => (s, [.setImpl key d])
  | .cancelImpl key => (s.GoQuicAlarmCancelImpl key).map fun s => (s, [.cancelImpl key])
  | .destroy key => (s.GoQuicAlarmDestroy key).map fun s => (s, [.destroy key])

/-- The calls of one callback, in order. -/
def calls (s : Loop) : List Call → Option (Loop × List Event)
  | [] => some (s, [])
  | c :: cs =>
    (s.call c).bind fun r => (r.1.calls cs).map fun r' => (r'.1, r.2 ++ r'.2)

/-- `DoTasks` up to its callbacks; on an empty heap it returns at once, without `resetTimer`. -/
def startDoTasks (s : Loop) (now : Int) : Loop :=
  match s.runner.popTasks now with
  | none => s
  | some (t, items) => { s with runner := t, batch := some items }

/-- One step of the loop. Outside `DoTasks` the loop takes calls and starts `DoTasks`; inside,
it runs the callbacks of the batch in order and then `resetTimer`. -/
def step (s : Loop) : Label → Option (Loop × List Event)
  | .call c => if s.batch = none then s.call c else none
  | .expire =>
    s.runner.timer.expire.map fun tm => ({ s with runner := { s.runner with timer := tm } }, [])
  | .waitTimer now =>
    if s.batch = none then
      s.runner.timer.receive.map fun tm =>
        (startDoTasks { s with runner := { s.runner with timer := tm } } now, [])
    else none
  | .doTasks now => if s.batch = none then some (s.startDoTasks now, []) else none
  | .onAlarm now cs =>
    match s.batch with
    | some (a :: rest) =>
      match OnAlarm { s with batch := some rest } a now with
      | none => none
      | some (s', evs) =>
        -- only a fired alarm runs libquic's callback, which makes the calls
        if Event.fire a now ∈ evs then (s'.calls cs).map fun r => (r.1, evs ++ r.2)
        else if cs = [] then some (s', evs)
        else none
    | _ => none
  | .finish =>
    match s.batch with
    | some [] => some ({ s with runner := s.runner.resetTimer, batch := none }, [])
    | _ => none

/-- The loop as a system, from `CreateTaskRunner` at the clock reading `now`. -/
def system (now : Int) : Lts Loop Label Event := ⟨init now, step⟩

/-- The alarm whose `OnAlarm` a step on `l` calls: the head of the batch, on `onAlarm`. -/
def onAlarmOf (s : Loop) : Label → List Nat
  | .onAlarm _ _ =>
    match s.batch with
    | some (a :: _) => [a]
    | _ => []
  | _ => []

/-- The alarms whose `OnAlarm` the steps on `ls` call, in order, up to the first refused step. -/
def onAlarms (s : Loop) : List Label → List Nat
  | [] => []
  | l :: ls =>
    match s.step l with
    | none => []
    | some (s', _) => s.onAlarmOf l ++ s'.onAlarms ls

/-! ### What each function can do -/

variable {s s' : Loop} {a : Nat} {now : Int} {evs : List Event}

theorem SetImpl_cases (h : s.SetImpl a = some s') :
    ((s.alarm a).isDestroyed = true ∧ s' = s) ∨
      ((s.alarm a).isDestroyed = false ∧ ∃ t, s.runner.RunAlarm a (s.alarm a).deadline = some t ∧
        s' = { s.setAlarm a { s.alarm a with isCanceled := false } with runner := t }) := by
  unfold SetImpl at h
  split at h
  · next hd => exact .inl ⟨hd, (Option.some.inj h).symm⟩
  · next hd =>
    obtain ⟨t, ht, rfl⟩ := Option.map_eq_some_iff.mp h
    refine .inr ⟨by simpa using hd, t, ?_, rfl⟩
    simpa using ht

theorem CancelImpl_eq_some (h : s.CancelImpl a = some s') :
    ∃ t, s.runner.CancelAlarm a = some t ∧
      s' = { s.setAlarm a { s.alarm a with isCanceled := true } with runner := t } := by
  obtain ⟨t, ht, rfl⟩ := Option.map_eq_some_iff.mp h
  exact ⟨t, ht, rfl⟩

theorem Destroy_eq_some (h : s.Destroy a = some s') :
    ∃ t u, s.runner.CancelAlarm a = some t ∧ t.UnregisterAlarm a = some u ∧
      s' = { s.setAlarm a { s.alarm a with isDestroyed := true, isCanceled := true } with
        runner := u } := by
  obtain ⟨s₁, h₁, h₂⟩ := Option.bind_eq_some_iff.mp h
  obtain ⟨t, ht, rfl⟩ := CancelImpl_eq_some h₁
  obtain ⟨u, hu, rfl⟩ := Option.map_eq_some_iff.mp h₂
  refine ⟨t, u, ht, hu, ?_⟩
  simp only [setAlarm, Function.update_idem, Function.update_self]

theorem OnAlarm_cases (h : s.OnAlarm a now = some (s', evs)) :
    (now < (s.alarm a).deadline ∧ s.SetImpl a = some s' ∧ evs = [.rearm a]) ∨
      (¬now < (s.alarm a).deadline ∧ (s.alarm a).isCanceled = true ∧ s' = s ∧ evs = []) ∨
      (¬now < (s.alarm a).deadline ∧ (s.alarm a).isCanceled = false ∧ s' = s ∧
        evs = [.fire a now]) := by
  unfold OnAlarm at h
  split at h
  · next hlt =>
    obtain ⟨s₁, h₁, he⟩ := Option.map_eq_some_iff.mp h
    obtain ⟨rfl, rfl⟩ := Prod.mk.inj he
    exact .inl ⟨hlt, h₁, rfl⟩
  · next hlt =>
    split at h
    · next hc =>
      obtain ⟨rfl, rfl⟩ := Prod.mk.inj (Option.some.inj h)
      exact .inr (.inl ⟨hlt, hc, rfl, rfl⟩)
    · next hc =>
      obtain ⟨rfl, rfl⟩ := Prod.mk.inj (Option.some.inj h)
      exact .inr (.inr ⟨hlt, by simpa using hc, rfl, rfl⟩)

/-- The exported `GoQuicAlarmSetImpl` finds a live key in `goQuicAlarmPtr` and calls `SetImpl`
after setting the deadline. -/
theorem GoQuicAlarmSetImpl_lookup {key : Nat} {d : Int}
    (h : s.GoQuicAlarmSetImpl key d = some s') :
    s.alarmPtr key = true ∧
      (s.setAlarm key { s.alarm key with deadline := d }).SetImpl key = some s' := by
  unfold GoQuicAlarmSetImpl at h
  split at h
  · next hk => exact ⟨hk, h⟩
  · cases h

theorem GoQuicAlarmCancelImpl_lookup {key : Nat} (h : s.GoQuicAlarmCancelImpl key = some s') :
    s.alarmPtr key = true ∧ s.CancelImpl key = some s' := by
  unfold GoQuicAlarmCancelImpl at h
  split at h
  · next hk => exact ⟨hk, h⟩
  · cases h

/-- The exported `GoQuicAlarmDestroy` finds a live key, calls `Destroy`, and deletes the key. -/
theorem GoQuicAlarmDestroy_lookup {key : Nat} (h : s.GoQuicAlarmDestroy key = some s') :
    s.alarmPtr key = true ∧ ∃ s₁, s.Destroy key = some s₁ ∧
      s' = { s₁ with alarmPtr := Function.update s₁.alarmPtr key false } := by
  unfold GoQuicAlarmDestroy at h
  split at h
  · next hk =>
    obtain ⟨s₁, h₁, rfl⟩ := Option.map_eq_some_iff.mp h
    exact ⟨hk, s₁, h₁, rfl⟩
  · cases h

/-- `GoQuicAlarmSetImpl` on a live key: a destroyed alarm only takes the deadline; otherwise it
is no longer canceled and `RunAlarm` schedules it. -/
theorem GoQuicAlarmSetImpl_cases {key : Nat} {d : Int} (h : s.GoQuicAlarmSetImpl key d = some s') :
    s.alarmPtr key = true ∧
      (((s.alarm key).isDestroyed = true ∧
          s' = s.setAlarm key ⟨d, true, (s.alarm key).isCanceled⟩) ∨
        ((s.alarm key).isDestroyed = false ∧ ∃ t, s.runner.RunAlarm key d = some t ∧
          s' = { s.setAlarm key ⟨d, false, false⟩ with runner := t })) := by
  obtain ⟨hk, h⟩ := GoQuicAlarmSetImpl_lookup h
  refine ⟨hk, ?_⟩
  rcases SetImpl_cases h with ⟨hd, rfl⟩ | ⟨hd, t, ht, rfl⟩
  · rw [setAlarm_alarm_self] at hd
    refine .inl ⟨hd, ?_⟩
    rw [← hd]
  · rw [setAlarm_alarm_self] at hd ht
    refine .inr ⟨hd, t, ht, ?_⟩
    simp only [setAlarm, Function.update_idem, Function.update_self, hd]

theorem GoQuicAlarmCancelImpl_eq_some {key : Nat} (h : s.GoQuicAlarmCancelImpl key = some s') :
    s.alarmPtr key = true ∧ ∃ t, s.runner.CancelAlarm key = some t ∧
      s' = { s.setAlarm key ⟨(s.alarm key).deadline, (s.alarm key).isDestroyed, true⟩ with
        runner := t } := by
  obtain ⟨hk, h⟩ := GoQuicAlarmCancelImpl_lookup h
  exact ⟨hk, CancelImpl_eq_some h⟩

theorem GoQuicAlarmDestroy_eq_some {key : Nat} (h : s.GoQuicAlarmDestroy key = some s') :
    s.alarmPtr key = true ∧ ∃ t u, s.runner.CancelAlarm key = some t ∧
      t.UnregisterAlarm key = some u ∧
      s' = { s.setAlarm key ⟨(s.alarm key).deadline, true, true⟩ with
        runner := u, alarmPtr := Function.update s.alarmPtr key false } := by
  obtain ⟨hk, s₁, h₁, rfl⟩ := GoQuicAlarmDestroy_lookup h
  obtain ⟨t, u, ht, hu, rfl⟩ := Destroy_eq_some h₁
  exact ⟨hk, t, u, ht, hu, rfl⟩

/-- What one call into the alarm API can do: create an alarm, or run one of the exported
functions and be reported as one event. -/
theorem call_cases {c : Call} (h : s.call c = some (s', evs)) :
    (c = .create ∧ s' = s.CreateGoQuicAlarm.1 ∧ evs = []) ∨
      (∃ key d, c = .setImpl key d ∧ s.GoQuicAlarmSetImpl key d = some s' ∧
        evs = [.setImpl key d]) ∨
      (∃ key, c = .cancelImpl key ∧ s.GoQuicAlarmCancelImpl key = some s' ∧
        evs = [.cancelImpl key]) ∨
      (∃ key, c = .destroy key ∧ s.GoQuicAlarmDestroy key = some s' ∧ evs = [.destroy key]) := by
  cases c with
  | create =>
    obtain ⟨rfl, rfl⟩ := Prod.mk.inj (Option.some.inj h)
    exact .inl ⟨rfl, rfl, rfl⟩
  | setImpl key d =>
    obtain ⟨s₁, h₁, he⟩ := Option.map_eq_some_iff.mp h
    obtain ⟨rfl, rfl⟩ := Prod.mk.inj he
    exact .inr (.inl ⟨key, d, rfl, h₁, rfl⟩)
  | cancelImpl key =>
    obtain ⟨s₁, h₁, he⟩ := Option.map_eq_some_iff.mp h
    obtain ⟨rfl, rfl⟩ := Prod.mk.inj he
    exact .inr (.inr (.inl ⟨key, rfl, h₁, rfl⟩))
  | destroy key =>
    obtain ⟨s₁, h₁, he⟩ := Option.map_eq_some_iff.mp h
    obtain ⟨rfl, rfl⟩ := Prod.mk.inj he
    exact .inr (.inr (.inr ⟨key, rfl, h₁, rfl⟩))

/-! ### The functions of `alarm.go` leave the batch alone -/

theorem SetImpl_batch (h : s.SetImpl a = some s') : s'.batch = s.batch := by
  rcases SetImpl_cases h with ⟨-, rfl⟩ | ⟨-, t, -, rfl⟩ <;> rfl

theorem CancelImpl_batch (h : s.CancelImpl a = some s') : s'.batch = s.batch := by
  obtain ⟨t, -, rfl⟩ := CancelImpl_eq_some h
  rfl

theorem Destroy_batch (h : s.Destroy a = some s') : s'.batch = s.batch := by
  obtain ⟨t, u, -, -, rfl⟩ := Destroy_eq_some h
  rfl

theorem OnAlarm_batch (h : s.OnAlarm a now = some (s', evs)) : s'.batch = s.batch := by
  rcases OnAlarm_cases h with ⟨-, hs, -⟩ | ⟨-, -, rfl, -⟩ | ⟨-, -, rfl, -⟩
  · exact SetImpl_batch hs
  · rfl
  · rfl

theorem call_batch {c : Call} (h : s.call c = some (s', evs)) : s'.batch = s.batch := by
  rcases call_cases h with ⟨-, rfl, -⟩ | ⟨key, d, -, h₁, -⟩ | ⟨key, -, h₁, -⟩ | ⟨key, -, h₁, -⟩
  · rfl
  · rw [SetImpl_batch (GoQuicAlarmSetImpl_lookup h₁).2, setAlarm_batch]
  · exact CancelImpl_batch (GoQuicAlarmCancelImpl_lookup h₁).2
  · obtain ⟨-, s₂, h₂, rfl⟩ := GoQuicAlarmDestroy_lookup h₁
    exact (Destroy_batch h₂ : s₂.batch = s.batch)

/-- A property of state and trace that every single call keeps is kept by a callback's calls. -/
theorem calls_induction {P : Loop → List Event → Prop}
    (hc : ∀ s tr c s' evs, P s tr → s.call c = some (s', evs) → P s' (tr ++ evs)) :
    ∀ {cs : List Call} {s s' : Loop} {tr evs : List Event}, P s tr →
      s.calls cs = some (s', evs) → P s' (tr ++ evs)
  | [], s, s', tr, evs, hp, h => by
    obtain ⟨rfl, rfl⟩ := Prod.mk.inj (Option.some.inj h)
    rw [List.append_nil]
    exact hp
  | c :: cs, s, s', tr, evs, hp, h => by
    obtain ⟨⟨s₁, evs₁⟩, h₁, h₂⟩ := Option.bind_eq_some_iff.mp h
    obtain ⟨⟨s₂, evs₂⟩, h₃, he⟩ := Option.map_eq_some_iff.mp h₂
    obtain ⟨rfl, rfl⟩ := Prod.mk.inj he
    rw [← List.append_assoc]
    exact calls_induction hc (hc s tr c s₁ evs₁ hp h₁) h₃

/-- An invariant of the states that every single call keeps is kept by a callback's calls. -/
theorem calls_invariant {I : Loop → Prop}
    (hc : ∀ s c s' evs, I s → s.call c = some (s', evs) → I s') {cs : List Call}
    (hi : I s) (h : s.calls cs = some (s', evs)) : I s' :=
  @calls_induction (fun s _ => I s) (fun s _ c s' evs hs hcall => hc s c s' evs hs hcall)
    cs s s' [] evs hi h

theorem calls_batch {cs : List Call} (h : s.calls cs = some (s', evs)) : s'.batch = s.batch :=
  @calls_invariant s s' evs (fun u => u.batch = s.batch)
    (fun _ _ _ _ hu hc => (call_batch hc).trans hu) cs rfl h

/-- `DoTasks` leaves the loop outside a batch only when it returns at once. -/
theorem eq_of_startDoTasks_batch (h : (s.startDoTasks now).batch = none) :
    s.startDoTasks now = s := by
  unfold startDoTasks at h ⊢
  split
  · rfl
  · next t items hp =>
    rw [hp] at h
    cases h

/-- What one step of the loop can do; `step_moves` reads it off `step`. -/
inductive Moves (s : Loop) : Loop → List Event → Prop
  | call {c : Call} {s' : Loop} {evs : List Event} :
      s.batch = none → s.call c = some (s', evs) → Moves s s' evs
  | expire {tm : Timer} :
      s.runner.timer.expire = some tm →
        Moves s { s with runner := { s.runner with timer := tm } } []
  | waitTimer {tm : Timer} (now : Int) :
      s.batch = none → s.runner.timer.receive = some tm →
      Moves s (startDoTasks { s with runner := { s.runner with timer := tm } } now) []
  | doTasks (now : Int) : s.batch = none → Moves s (s.startDoTasks now) []
  | onAlarmFire {now : Int} {a : Nat} {rest : List Nat} {cs : List Call} {s₁ s' : Loop}
      {evs₁ evs₂ : List Event} :
      s.batch = some (a :: rest) → OnAlarm { s with batch := some rest } a now = some (s₁, evs₁) →
      Event.fire a now ∈ evs₁ → s₁.calls cs = some (s', evs₂) → Moves s s' (evs₁ ++ evs₂)
  | onAlarmQuiet {now : Int} {a : Nat} {rest : List Nat} {s' : Loop} {evs : List Event} :
      s.batch = some (a :: rest) → OnAlarm { s with batch := some rest } a now = some (s', evs) →
      Event.fire a now ∉ evs → Moves s s' evs
  | finish : s.batch = some [] → Moves s { s with runner := s.runner.resetTimer, batch := none } []

theorem step_moves {l : Label} (h : s.step l = some (s', evs)) : Moves s s' evs := by
  cases l with
  | call c =>
    simp only [step] at h
    split at h
    · next hb => exact .call hb h
    · cases h
  | expire =>
    obtain ⟨tm, htm, he⟩ := Option.map_eq_some_iff.mp h
    obtain ⟨rfl, rfl⟩ := Prod.mk.inj he
    exact .expire htm
  | waitTimer now =>
    simp only [step] at h
    split at h
    · next hb =>
      obtain ⟨tm, htm, he⟩ := Option.map_eq_some_iff.mp h
      obtain ⟨rfl, rfl⟩ := Prod.mk.inj he
      exact .waitTimer now hb htm
    · cases h
  | doTasks now =>
    simp only [step] at h
    split at h
    · next hb =>
      obtain ⟨rfl, rfl⟩ := Prod.mk.inj (Option.some.inj h)
      exact .doTasks now hb
    · cases h
  | onAlarm now cs =>
    simp only [step] at h
    split at h
    · next a rest hb =>
      split at h
      · cases h
      · next s₁ evs₁ ho =>
        split at h
        · next hf =>
          obtain ⟨⟨s₂, evs₂⟩, h₂, he⟩ := Option.map_eq_some_iff.mp h
          obtain ⟨rfl, rfl⟩ := Prod.mk.inj he
          exact .onAlarmFire hb ho hf h₂
        · next hf =>
          split at h
          · obtain ⟨rfl, rfl⟩ := Prod.mk.inj (Option.some.inj h)
            exact .onAlarmQuiet hb ho hf
          · cases h
    · cases h
  | finish =>
    simp only [step] at h
    split at h
    · next hb =>
      obtain ⟨rfl, rfl⟩ := Prod.mk.inj (Option.some.inj h)
      exact .finish hb
    · cases h

/-! ### Inside `DoTasks` -/

/-- A step that starts `DoTasks` at `now`, on a value from the server's timer or on the client's
call, runs its first loop on the heap as it is. -/
theorem step_start {l : Label} (hl : l = .doTasks now ∨ l = .waitTimer now)
    (h : s.step l = some (s', evs)) :
    ∃ s₀ : Loop, s₀.runner.alarmHeap = s.runner.alarmHeap ∧ s' = s₀.startDoTasks now := by
  rcases hl with rfl | rfl
  · simp only [step] at h
    split at h
    · obtain ⟨rfl, rfl⟩ := Prod.mk.inj (Option.some.inj h)
      exact ⟨s, rfl, rfl⟩
    · cases h
  · simp only [step] at h
    split at h
    · obtain ⟨tm, -, he⟩ := Option.map_eq_some_iff.mp h
      obtain ⟨rfl, rfl⟩ := Prod.mk.inj he
      exact ⟨{ s with runner := { s.runner with timer := tm } }, rfl, rfl⟩
    · cases h

/-- On a non-empty heap `DoTasks` goes on to the callbacks of the batch its first loop popped,
with the heap that loop left. -/
theorem startDoTasks_of_pos (now : Int) (h : 0 < s.runner.alarmHeap.Len) :
    (s.startDoTasks now).batch = some (AlarmHeap.popOverdue s.runner.alarmHeap now).2 ∧
      (s.startDoTasks now).runner.alarmHeap = (AlarmHeap.popOverdue s.runner.alarmHeap now).1 := by
  have hp : s.runner.popTasks now = some ({ s.runner with
      alarmHeap := (AlarmHeap.popOverdue s.runner.alarmHeap now).1 },
      (AlarmHeap.popOverdue s.runner.alarmHeap now).2) := by
    rw [TaskRunner.popTasks, if_neg (Nat.pos_iff_ne_zero.mp h)]
  unfold startDoTasks
  rw [hp]
  exact ⟨rfl, rfl⟩

/-- A step on `onAlarm` runs `OnAlarm` on the head of the batch and keeps the rest of it, whatever
the callback calls. -/
theorem step_onAlarm_batch {cs : List Call} (h : s.step (.onAlarm now cs) = some (s', evs)) :
    ∃ a rest, s.batch = some (a :: rest) ∧ s'.batch = some rest := by
  simp only [step] at h
  split at h
  · next a rest hb =>
    refine ⟨a, rest, hb, ?_⟩
    split at h
    · cases h
    · next s₁ evs₁ ho =>
      have h₁ : s₁.batch = some rest := OnAlarm_batch ho
      split at h
      · obtain ⟨⟨s₂, evs₂⟩, h₂, he⟩ := Option.map_eq_some_iff.mp h
        obtain ⟨rfl, rfl⟩ := Prod.mk.inj he
        exact (calls_batch h₂).trans h₁
      · split at h
        · obtain ⟨rfl, rfl⟩ := Prod.mk.inj (Option.some.inj h)
          exact h₁
        · cases h
  · cases h

/-- `finish` ends `DoTasks` once every item of the batch has had its `OnAlarm`. -/
theorem step_finish_batch (h : s.step .finish = some (s', evs)) :
    s.batch = some [] ∧ s'.batch = none := by
  simp only [step] at h
  split at h
  · next hb =>
    obtain ⟨rfl, rfl⟩ := Prod.mk.inj (Option.some.inj h)
    exact ⟨hb, rfl⟩
  · cases h

/-- Inside `DoTasks`, a step other than `finish` stays inside it, and the batch loses exactly the
alarm whose `OnAlarm` the step called: no API call is taken, and the timer only expires. -/
theorem batch_step {rest : List Nat} (hb : s.batch = some rest) {l : Label} (hl : l ≠ .finish)
    (h : s.step l = some (s', evs)) :
    ∃ rest', s'.batch = some rest' ∧ rest = s.onAlarmOf l ++ rest' := by
  cases l with
  | call c => simp [step, hb] at h
  | expire =>
    obtain ⟨tm, -, he⟩ := Option.map_eq_some_iff.mp h
    obtain ⟨rfl, rfl⟩ := Prod.mk.inj he
    exact ⟨rest, hb, rfl⟩
  | waitTimer now => simp [step, hb] at h
  | doTasks now => simp [step, hb] at h
  | onAlarm now cs =>
    obtain ⟨a, rest', hb', hs'⟩ := step_onAlarm_batch h
    obtain rfl : rest = a :: rest' := Option.some.inj (hb.symm.trans hb')
    exact ⟨rest', hs', by simp [onAlarmOf, hb]⟩
  | finish => exact absurd rfl hl

/-- Inside `DoTasks`, a run without `finish` calls `OnAlarm` on a prefix of the batch, in order,
and leaves the rest of the batch to come; by induction on the run, one `batch_step` a label. -/
theorem batch_run {t : Int} {rest : List Nat} (hb : s.batch = some rest) {ls : List Label}
    (hf : Label.finish ∉ ls) {u : Loop} {tr : List Event}
    (h : (system t).run s ls = some (u, tr)) :
    ∃ rest', u.batch = some rest' ∧ rest = s.onAlarms ls ++ rest' := by
  induction ls generalizing s rest tr with
  | nil =>
    simp only [Lts.run, Option.some.injEq, Prod.mk.injEq] at h
    obtain ⟨rfl, -⟩ := h
    exact ⟨rest, hb, by simp [onAlarms]⟩
  | cons l ls ih =>
    obtain ⟨s₁, evs₁, tr₂, hstep, hrest, -⟩ := Lts.run_cons_eq_some h
    replace hstep : s.step l = some (s₁, evs₁) := hstep
    obtain ⟨rest₁, hb₁, hr₁⟩ := batch_step hb (fun he => hf (he ▸ List.mem_cons_self)) hstep
    obtain ⟨rest', hu, hr'⟩ := ih hb₁ (fun hm => hf (List.mem_cons_of_mem _ hm)) hrest
    refine ⟨rest', hu, ?_⟩
    rw [hr₁, hr', onAlarms, hstep, List.append_assoc]

/-- A run of the callbacks of `DoTasks` up to its `finish` calls `OnAlarm` on exactly the batch,
in order. -/
theorem onAlarms_of_finish {t : Int} {batch : List Nat} (hb : s.batch = some batch)
    {ls : List Label} (hf : Label.finish ∉ ls) {u : Loop} {tr : List Event}
    (h : (system t).run s (ls ++ [.finish]) = some (u, tr)) : s.onAlarms ls = batch := by
  obtain ⟨u₁, tr₁, tr₂, h₁, h₂, -⟩ := Lts.run_append_eq_some h
  obtain ⟨rest', hu₁, hr⟩ := batch_run hb hf h₁
  obtain ⟨u₂, evs₂, tr₃, hfin, -, -⟩ := Lts.run_cons_eq_some h₂
  -- `finish` is taken only on an empty batch
  have hnil : u₁.batch = some [] := (step_finish_batch hfin).1
  rw [hu₁] at hnil
  rw [hr, Option.some.inj hnil, List.append_nil]

end Loop

end GoQuic
