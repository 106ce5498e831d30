import GoQuic.TaskRunner.Invariant

/-!
# When the Go side fires an alarm

`OnAlarm` calls `go_quic_alarm_fire` when the clock has reached the alarm's `deadline` and
`isCanceled` is false. `deadline` is written by `GoQuicAlarmSetImpl` alone, so the first part
holds of the alarm's most recent set. `isCanceled` is set by `CancelImpl` (also inside `Destroy`)
and cleared by `SetImpl`, and `OnAlarm` calls `SetImpl` itself to re-arm an alarm whose deadline
is ahead. So a fire can follow a cancel when `OnAlarm` re-armed the alarm in between; and a batch
item that an earlier callback of the same batch set again for a passed deadline fires in its
batch and again when the heap returns it (`fire_contract_fails`).

What the code keeps (`fire_allowed`): a fire of `a` at clock `c` follows a `GoQuicAlarmSetImpl`
of `a` whose deadline is at most `c`, never a destroy of `a`, and no cancel of `a` since `a` was
last armed, by `GoQuicAlarmSetImpl` or by `OnAlarm`. It rests on `Follows`, how each alarm's
fields follow the trace, kept by every step.
-/

namespace GoQuic

namespace Event

/-- The alarm an event is about. -/
def alarm : Event → Nat
  | .setImpl a _ | .cancelImpl a | .destroy a | .rearm a | .fire a _ => a

/-- The deadline a `GoQuicAlarmSetImpl` of `a` passes. -/
def setImplOf (a : Nat) : Event → Option Int
  | .setImpl b d => if b = a then some d else none
  | _ => none

/-- `GoQuicAlarmSetImpl` of `a`, or `OnAlarm` re-arming `a` through `SetImpl`. -/
def armsOf (a : Nat) : Event → Bool
  | .setImpl b _ | .rearm b => decide (b = a)
  | _ => false

theorem setImplOf_of_alarm_ne {e : Event} {a : Nat} (h : e.alarm ≠ a) : e.setImplOf a = none := by
  cases e <;> simp_all [alarm, setImplOf]

theorem armsOf_of_alarm_ne {e : Event} {a : Nat} (h : e.alarm ≠ a) : e.armsOf a = false := by
  cases e <;> simp_all [alarm, armsOf]

end Event

/-- The deadline of the most recent `GoQuicAlarmSetImpl` of `a` in `tr`. -/
def lastSetImpl (a : Nat) (tr : List Event) : Option Int := Lts.lastSome (Event.setImplOf a) tr

/-- The events of `tr` since the most recent `GoQuicAlarmSetImpl` of `a`. -/
def sinceSetImpl (a : Nat) (tr : List Event) : List Event :=
  Lts.afterLast (fun e => (e.setImplOf a).isSome) tr

/-- The events of `tr` since `a` was last armed, by `GoQuicAlarmSetImpl` or by `OnAlarm`. -/
def sinceArmed (a : Nat) (tr : List Event) : List Event := Lts.afterLast (Event.armsOf a) tr

/-- What the Go layer must keep for an alarm to fire as libquic set it, without `QuicAlarm::Fire`
checking `IsSet()` again, at a `go_quic_alarm_fire` of `a` at clock `c`: the most recent
`GoQuicAlarmSetImpl` of `a` passed a deadline at most `c`, and since then `a` was neither
canceled, destroyed nor fired. -/
def FireContract (pre : List Event) : Event → Prop
  | .fire a c => ∃ d, lastSetImpl a pre = some d ∧ d ≤ c ∧
      ∀ e ∈ sinceSetImpl a pre, e ≠ .cancelImpl a ∧ e ≠ .destroy a ∧ ∀ c', e ≠ .fire a c'
  | _ => True

/-- The contract the code keeps, at a `go_quic_alarm_fire` of `a` at clock `c`: the most recent
`GoQuicAlarmSetImpl` of `a` passed a deadline at most `c`, `a` was never destroyed, and `a` was
not canceled since it was last armed. -/
def FireAllowed (pre : List Event) : Event → Prop
  | .fire a c => (∃ d, lastSetImpl a pre = some d ∧ d ≤ c) ∧ .destroy a ∉ pre ∧
      .cancelImpl a ∉ sinceArmed a pre
  | _ => True

variable {tr : List Event} {a : Nat} {e : Event}

theorem lastSetImpl_append_singleton :
    lastSetImpl a (tr ++ [e]) = (e.setImplOf a).or (lastSetImpl a tr) :=
  Lts.lastSome_append_singleton _

theorem sinceArmed_append_singleton :
    sinceArmed a (tr ++ [e]) = if e.armsOf a then [] else sinceArmed a tr ++ [e] :=
  Lts.afterLast_append_singleton _

/-- Events about other alarms leave what the trace says of `a`, up to being appended. -/
theorem lastSetImpl_append_of_alarm_ne {evs : List Event} (h : ∀ e ∈ evs, e.alarm ≠ a) :
    lastSetImpl a (tr ++ evs) = lastSetImpl a tr := by
  induction evs generalizing tr with
  | nil => rw [List.append_nil]
  | cons e evs ih =>
    rw [← List.singleton_append, ← List.append_assoc,
      ih fun e' he' => h e' (List.mem_cons_of_mem _ he'), lastSetImpl_append_singleton,
      Event.setImplOf_of_alarm_ne (h e List.mem_cons_self), Option.none_or]

theorem cancelImpl_not_mem_sinceArmed {evs : List Event} (h : ∀ e ∈ evs, e.alarm ≠ a)
    (hc : .cancelImpl a ∉ sinceArmed a tr) : .cancelImpl a ∉ sinceArmed a (tr ++ evs) := by
  induction evs generalizing tr with
  | nil => rwa [List.append_nil]
  | cons e evs ih =>
    rw [← List.singleton_append, ← List.append_assoc]
    apply ih fun e' he' => h e' (List.mem_cons_of_mem _ he')
    rw [sinceArmed_append_singleton, Event.armsOf_of_alarm_ne (h e List.mem_cons_self)]
    simp only [Bool.false_eq_true, if_false, List.mem_append, List.mem_singleton, not_or]
    refine ⟨hc, fun he => h e List.mem_cons_self ?_⟩
    rw [← he]
    rfl

theorem lastSetImpl_of_alarm_ne (h : ∀ e ∈ tr, e.alarm ≠ a) : lastSetImpl a tr = none := by
  have := @lastSetImpl_append_of_alarm_ne [] a tr h
  rw [List.nil_append] at this
  rw [this]
  rfl

theorem lastSetImpl_append_of_setImplOf (he : e.setImplOf a = none) :
    lastSetImpl a (tr ++ [e]) = lastSetImpl a tr := by
  rw [lastSetImpl_append_singleton, he, Option.none_or]

theorem lastSetImpl_append_setImpl {d : Int} : lastSetImpl a (tr ++ [.setImpl a d]) = some d := by
  rw [lastSetImpl_append_singleton]
  simp [Event.setImplOf]

theorem sinceArmed_append_of_armsOf (he : e.armsOf a = true) : sinceArmed a (tr ++ [e]) = [] := by
  rw [sinceArmed_append_singleton, if_pos he]

/-- Only a fire needs the past. -/
theorem fireAllowed_of_not_fire (h : ∀ b c, e ≠ .fire b c) (pre : List Event) :
    FireAllowed pre e := by
  cases e with
  | fire b c => exact absurd rfl (h b c)
  | _ => trivial

namespace Loop

open TaskRunner

/-- `a` is in the heap, or among the batch items whose `OnAlarm` is still to run. -/
def Scheduled (s : Loop) (a : Nat) : Prop :=
  a ∈ s.runner.alarmHeap.items ∨ ∃ l, s.batch = some l ∧ a ∈ l

/-- How the fields of alarm `a` follow the trace `tr` that led to `s`: its `deadline` is that of
its latest set; it is canceled if it was canceled since last armed; it is destroyed once a
destroy is in the trace, and then canceled; a live key is not destroyed; an alarm never set is
not scheduled; and nothing is known yet of the keys not handed out. -/
structure Follows (s : Loop) (tr : List Event) (a : Nat) : Prop where
  deadline : ∀ d, lastSetImpl a tr = some d → (s.alarm a).deadline = d
  canceled : (s.alarm a).isCanceled = false → .cancelImpl a ∉ sinceArmed a tr
  destroyed : .destroy a ∈ tr → (s.alarm a).isDestroyed = true
  destroyed_canceled : (s.alarm a).isDestroyed = true → (s.alarm a).isCanceled = true
  live : s.alarmPtr a = true → (s.alarm a).isDestroyed = false
  unset : lastSetImpl a tr = none → ¬s.Scheduled a
  fresh : s.index ≤ a → (∀ e ∈ tr, e.alarm ≠ a) ∧ ¬s.Scheduled a

variable {s s' : Loop} {b : Nat}

/-- A step that leaves alarm `b` alone, schedules it nowhere new and emits no event about it
keeps it following the trace. -/
theorem Follows.frame (hf : s.Follows tr b) {evs : List Event} (he : ∀ e ∈ evs, e.alarm ≠ b)
    (halarm : s'.alarm b = s.alarm b) (hptr : s'.alarmPtr b = s.alarmPtr b)
    (hsch : s'.Scheduled b → s.Scheduled b) (hidx : s.index ≤ s'.index) :
    s'.Follows (tr ++ evs) b where
  deadline d hd := by
    rw [halarm]
    rw [lastSetImpl_append_of_alarm_ne he] at hd
    exact hf.deadline d hd
  canceled hc := by
    rw [halarm] at hc
    exact cancelImpl_not_mem_sinceArmed he (hf.canceled hc)
  destroyed hd := by
    rw [halarm]
    rcases List.mem_append.mp hd with hd | hd
    · exact hf.destroyed hd
    · exact absurd rfl (he _ hd)
  destroyed_canceled hd := by
    rw [halarm] at hd ⊢
    exact hf.destroyed_canceled hd
  live hp := by
    rw [halarm]
    rw [hptr] at hp
    exact hf.live hp
  unset hu hs := by
    rw [lastSetImpl_append_of_alarm_ne he] at hu
    exact hf.unset hu (hsch hs)
  fresh hi := by
    obtain ⟨hev, hns⟩ := hf.fresh (by omega)
    refine ⟨fun e' he' => ?_, fun hs => hns (hsch hs)⟩
    rcases List.mem_append.mp he' with he' | he'
    · exact hev e' he'
    · exact he e' he'

/-- The frame without events. -/
theorem Follows.frame_nil (hf : s.Follows tr b) (halarm : s'.alarm b = s.alarm b)
    (hptr : s'.alarmPtr b = s.alarmPtr b) (hsch : s'.Scheduled b → s.Scheduled b)
    (hidx : s.index ≤ s'.index) : s'.Follows tr b := by
  have := hf.frame (fun e (he : e ∈ ([] : List Event)) => absurd he List.not_mem_nil) halarm hptr
    hsch hidx
  rwa [List.append_nil] at this

/-- A scheduled alarm has been set, and its key was handed out. -/
theorem Follows.scheduled (hf : s.Follows tr b) (hs : s.Scheduled b) :
    (∃ d, lastSetImpl b tr = some d) ∧ b < s.index := by
  constructor
  · cases h : lastSetImpl b tr with
    | none => exact absurd hs (hf.unset h)
    | some d => exact ⟨d, rfl⟩
  · by_contra hle
    exact (hf.fresh (by omega)).2 hs

/-- An event about a handed-out alarm `b` that does not set it: the deadline, the scheduling and
the fresh keys follow as before, and the step gives the flags. -/
theorem Follows.of_not_set (hf : s.Follows tr b) {e : Event} (hset : e.setImplOf b = none)
    (hlt : b < s.index) (hidx : s.index ≤ s'.index)
    (hdl : (s'.alarm b).deadline = (s.alarm b).deadline) (hsch : s'.Scheduled b → s.Scheduled b)
    (hc : (s'.alarm b).isCanceled = false → .cancelImpl b ∉ sinceArmed b (tr ++ [e]))
    (hd : .destroy b ∈ tr ++ [e] → (s'.alarm b).isDestroyed = true)
    (hdc : (s'.alarm b).isDestroyed = true → (s'.alarm b).isCanceled = true)
    (hl : s'.alarmPtr b = true → (s'.alarm b).isDestroyed = false) :
    s'.Follows (tr ++ [e]) b where
  deadline d h := by
    rw [hdl]
    rw [lastSetImpl_append_of_setImplOf hset] at h
    exact hf.deadline d h
  canceled := hc
  destroyed := hd
  destroyed_canceled := hdc
  live := hl
  unset hu hs := by
    rw [lastSetImpl_append_of_setImplOf hset] at hu
    exact hf.unset hu (hsch hs)
  fresh hle := absurd hlt (by omega)

/-- The loop's invariant, with every alarm following the trace. -/
structure Tracks (s : Loop) (tr : List Event) : Prop where
  inv : s.Inv
  follows : ∀ a, s.Follows tr a

theorem tracks_init (now : Int) : (init now).Tracks [] where
  inv := inv_init now
  follows a := by
    constructor <;> simp [init, lastSetImpl, sinceArmed, Lts.lastSome, Lts.afterLast, Scheduled,
      CreateTaskRunner, AlarmHeap.new]

/-- A live key is below `index`. -/
theorem Tracks.lt_index (ht : s.Tracks tr) {key : Nat} (hk : s.alarmPtr key = true) :
    key < s.index := by
  by_contra hle
  rw [ht.inv.ptr_fresh key (by omega)] at hk
  cases hk

theorem Tracks.CreateGoQuicAlarm (ht : s.Tracks tr) : s.CreateGoQuicAlarm.1.Tracks tr := by
  refine ⟨ht.inv.CreateGoQuicAlarm, fun b => ?_⟩
  have hf := ht.follows b
  -- the heap and the batch are those of `s`
  have hsch : s.CreateGoQuicAlarm.1.Scheduled b → s.Scheduled b := id
  by_cases hb : b = s.index
  · subst hb
    obtain ⟨hev, hns⟩ := hf.fresh le_rfl
    have hnone := lastSetImpl_of_alarm_ne hev
    constructor
    · intro d hd
      rw [hnone] at hd
      cases hd
    · intro _ hc
      exact hev _ (Lts.afterLast_subset _ _ _ hc) rfl
    · intro hd
      exact absurd rfl (hev _ hd)
    · simp
    · simp
    · exact fun _ hs => hns (hsch hs)
    · intro hle
      rw [CreateGoQuicAlarm_index] at hle
      omega
  · exact hf.frame_nil (by simp [Function.update_of_ne hb]) (by simp [Function.update_of_ne hb])
      hsch (by simp)

theorem Tracks.follows_GoQuicAlarmSetImpl (ht : s.Tracks tr) {key : Nat} {d : Int}
    (h : s.GoQuicAlarmSetImpl key d = some s') (b : Nat) :
    s'.Follows (tr ++ [.setImpl key d]) b := by
  obtain ⟨hk, ⟨hd, -⟩ | ⟨-, t, hrun, rfl⟩⟩ := GoQuicAlarmSetImpl_cases h
  · -- a live key is not destroyed
    rw [(ht.follows key).live hk] at hd
    cases hd
  by_cases hb : b = key
  · subst hb
    constructor
    · intro d' hd'
      rw [lastSetImpl_append_setImpl] at hd'
      rw [← Option.some.inj hd']
      simp
    · intro _
      rw [sinceArmed_append_of_armsOf (by simp [Event.armsOf])]
      exact List.not_mem_nil
    · intro hd
      rcases List.mem_append.mp hd with hd | hd
      · -- a destroyed alarm is not live
        have hdes := (ht.follows b).destroyed hd
        rw [(ht.follows b).live hk] at hdes
        cases hdes
      · simp at hd
    · simp
    · intro _
      simp
    · intro hu
      rw [lastSetImpl_append_setImpl] at hu
      cases hu
    · intro hle
      exact absurd (ht.lt_index hk) (by simp at hle; omega)
  · refine (ht.follows b).frame ?_ (setAlarm_alarm_of_ne _ _ hb) rfl ?_ le_rfl
    · intro e he
      rw [List.mem_singleton.mp he]
      exact Ne.symm hb
    · -- `RunAlarm` puts only `key` in the heap
      rintro (hm | hm)
      · rcases (ht.inv.wf.mem_RunAlarm hrun b).mp hm with hm | rfl
        · exact .inl hm
        · exact absurd rfl hb
      · exact .inr hm

theorem Tracks.follows_GoQuicAlarmCancelImpl (ht : s.Tracks tr) {key : Nat}
    (h : s.GoQuicAlarmCancelImpl key = some s') (b : Nat) :
    s'.Follows (tr ++ [.cancelImpl key]) b := by
  obtain ⟨hk, t, hc, rfl⟩ := GoQuicAlarmCancelImpl_eq_some h
  -- `CancelAlarm` only takes `key` out of the heap
  have hsch : Scheduled
      { s.setAlarm key ⟨(s.alarm key).deadline, (s.alarm key).isDestroyed, true⟩ with
        runner := t } b → s.Scheduled b := by
    rintro (hm | hm)
    · exact .inl ((ht.inv.wf.mem_CancelAlarm hc b).mp hm).1
    · exact .inr hm
  by_cases hb : b = key
  · subst hb
    refine (ht.follows b).of_not_set rfl (ht.lt_index hk) le_rfl (by simp) hsch ?_ ?_ ?_ ?_
    · simp
    · intro hd
      rcases List.mem_append.mp hd with hd | hd
      · simpa using (ht.follows b).destroyed hd
      · simp at hd
    · simp
    · intro hp
      simpa using (ht.follows b).live hp
  · refine (ht.follows b).frame ?_ (setAlarm_alarm_of_ne _ _ hb) rfl hsch le_rfl
    intro e he
    rw [List.mem_singleton.mp he]
    exact Ne.symm hb

theorem Tracks.follows_GoQuicAlarmDestroy (ht : s.Tracks tr) {key : Nat}
    (h : s.GoQuicAlarmDestroy key = some s') (b : Nat) :
    s'.Follows (tr ++ [.destroy key]) b := by
  obtain ⟨hk, t, u, hc, hu, rfl⟩ := GoQuicAlarmDestroy_eq_some h
  -- cancelling and unregistering only take `key` out of the heap
  have hsch : Scheduled { s.setAlarm key ⟨(s.alarm key).deadline, true, true⟩ with
      runner := u, alarmPtr := Function.update s.alarmPtr key false } b → s.Scheduled b := by
    rintro (hm | hm)
    · obtain ⟨v, -, hv, -, rfl⟩ := (ht.inv.wf.CancelAlarm hc).1.UnregisterAlarm_cases hu
      exact .inl ((ht.inv.wf.mem_CancelAlarm hc b).mp ((hv b).mp hm).1).1
    · exact .inr hm
  by_cases hb : b = key
  · subst hb
    refine (ht.follows b).of_not_set rfl (ht.lt_index hk) le_rfl (by simp) hsch ?_ ?_ ?_ ?_
    · simp
    · simp
    · simp
    · simp
  · refine (ht.follows b).frame ?_ (setAlarm_alarm_of_ne _ _ hb) (Function.update_of_ne hb _ _)
      hsch le_rfl
    intro e he
    rw [List.mem_singleton.mp he]
    exact Ne.symm hb

variable {evs : List Event} {c : Call}

theorem Tracks.call (ht : s.Tracks tr) (h : s.call c = some (s', evs)) : s'.Tracks (tr ++ evs) := by
  refine ⟨ht.inv.call h, fun b => ?_⟩
  rcases call_cases h with
    ⟨-, rfl, rfl⟩ | ⟨key, d, -, h₁, rfl⟩ | ⟨key, -, h₁, rfl⟩ | ⟨key, -, h₁, rfl⟩
  · rw [List.append_nil]
    exact ht.CreateGoQuicAlarm.follows b
  · exact ht.follows_GoQuicAlarmSetImpl h₁ b
  · exact ht.follows_GoQuicAlarmCancelImpl h₁ b
  · exact ht.follows_GoQuicAlarmDestroy h₁ b

/-- The alarm API never fires. -/
theorem call_not_fire (h : s.call c = some (s', evs)) : ∀ e ∈ evs, ∀ b n, e ≠ .fire b n := by
  intro e he b n
  -- a call reports itself and nothing else
  rcases call_cases h with ⟨-, -, rfl⟩ | ⟨key, d, -, -, rfl⟩ | ⟨key, -, -, rfl⟩ | ⟨key, -, -, rfl⟩
  · cases he
  all_goals
    rw [List.mem_singleton.mp he]
    simp

theorem Tracks.calls {cs : List Call} (ht : s.Tracks tr) (h : s.calls cs = some (s', evs)) :
    s'.Tracks (tr ++ evs) :=
  calls_induction (fun _ _ _ _ _ ht' hc => ht'.call hc) ht h

/-- A callback's calls are allowed after any history. -/
theorem calls_allowed {cs : List Call} (ha : Lts.Allows FireAllowed tr)
    (h : s.calls cs = some (s', evs)) : Lts.Allows FireAllowed (tr ++ evs) :=
  @calls_induction (fun _ tr => Lts.Allows FireAllowed tr)
    (fun _ _ _ _ _ ha' hc => ha'.append fun e he => fireAllowed_of_not_fire (call_not_fire hc e he))
    cs s s' tr evs ha h

theorem Tracks.withTimer (ht : s.Tracks tr) (tm : Timer) :
    Tracks { s with runner := { s.runner with timer := tm } } tr :=
  ⟨ht.inv.withTimer tm, fun b => (ht.follows b).frame_nil rfl rfl id le_rfl⟩

theorem Tracks.startDoTasks (ht : s.Tracks tr) (now : Int) :
    (s.startDoTasks now).Tracks tr := by
  refine ⟨ht.inv.startDoTasks now, fun b => ?_⟩
  unfold Loop.startDoTasks
  split
  · exact ht.follows b
  · next t items hp =>
    obtain ⟨-, rfl, rfl⟩ := popTasks_eq_some hp
    have hpop := AlarmHeap.popOverdue_poppedOverdue ht.inv.wf.valid now
    refine (ht.follows b).frame_nil rfl rfl ?_ le_rfl
    -- the batch and the heap left are the heap before
    rintro (hm | ⟨l, hl, hm⟩)
    · exact .inl ((hpop.mem_iff b).mpr (.inr hm))
    · obtain rfl := Option.some.inj hl
      exact .inl ((hpop.mem_iff b).mpr (.inl hm))

theorem Tracks.finish (ht : s.Tracks tr) :
    Tracks { s with runner := s.runner.resetTimer, batch := none } tr := by
  refine ⟨ht.inv.of_runner ht.inv.wf.resetTimer (by simp) rfl fun _ => id, fun b => ?_⟩
  refine (ht.follows b).frame_nil rfl rfl ?_ le_rfl
  rintro (hm | ⟨l, hl, -⟩)
  · rw [resetTimer_alarmHeap] at hm
    exact .inl hm
  · cases hl

/-- The head of the batch is scheduled, and what is scheduled once it is taken off was scheduled
before. -/
theorem scheduled_of_batch {rest : List Nat} (hb : s.batch = some (b :: rest)) : s.Scheduled b :=
  .inr ⟨_, hb, List.mem_cons_self⟩

theorem Scheduled.of_rest {a : Nat} {rest : List Nat} (hb : s.batch = some (a :: rest))
    (hs : Scheduled { s with batch := some rest } b) : s.Scheduled b := by
  rcases hs with hm | ⟨l, hl, hm⟩
  · exact .inl hm
  · obtain rfl := Option.some.inj hl
    exact .inr ⟨_, hb, List.mem_cons_of_mem _ hm⟩

/-- `OnAlarm` on the head `a` of the batch: a re-arm, nothing, or a fire of `a`, and the
alarm keeps following the trace in each. -/
theorem Tracks.OnAlarm {a : Nat} {rest : List Nat} {now : Int} (ht : s.Tracks tr)
    (hb : s.batch = some (a :: rest))
    (h : OnAlarm { s with batch := some rest } a now = some (s', evs)) :
    s'.Tracks (tr ++ evs) := by
  have hf := ht.follows a
  have hlt := (hf.scheduled (scheduled_of_batch hb)).2
  refine ⟨(ht.inv.withBatch _).OnAlarm h, fun b => ?_⟩
  rcases OnAlarm_cases h with ⟨-, hs, rfl⟩ | ⟨-, -, rfl, rfl⟩ | ⟨-, hc, rfl, rfl⟩
  · rcases SetImpl_cases hs with ⟨hd, rfl⟩ | ⟨hd, t, hrun, rfl⟩
    · -- a destroyed alarm is not re-armed
      by_cases hb' : b = a
      · subst hb'
        refine hf.of_not_set rfl hlt le_rfl rfl (Scheduled.of_rest hb) ?_ (fun _ => hd)
          hf.destroyed_canceled hf.live
        intro hc
        rw [hf.destroyed_canceled hd] at hc
        cases hc
      · refine (ht.follows b).frame ?_ rfl rfl (Scheduled.of_rest hb) le_rfl
        intro e he
        rw [List.mem_singleton.mp he]
        exact Ne.symm hb'
    · -- `RunAlarm` puts `a` back in the heap, not canceled
      have hsch : Scheduled { ({ s with batch := some rest } : Loop).setAlarm a
          { (s.alarm a) with isCanceled := false } with runner := t } b → s.Scheduled b := by
        rintro (hm | hm)
        · rcases (ht.inv.wf.mem_RunAlarm hrun b).mp hm with hm | rfl
          · exact .inl hm
          · exact scheduled_of_batch hb
        · exact Scheduled.of_rest hb (.inr hm)
      have hd' : (s.alarm a).isDestroyed = false := hd
      by_cases hb' : b = a
      · subst hb'
        refine hf.of_not_set rfl hlt le_rfl (by simp) hsch ?_ ?_ (by simp [hd']) (by simp [hd'])
        · intro _
          rw [sinceArmed_append_of_armsOf (by simp [Event.armsOf])]
          exact List.not_mem_nil
        · intro hdes
          rcases List.mem_append.mp hdes with hdes | hdes
          · simpa using hf.destroyed hdes
          · simp at hdes
      · refine (ht.follows b).frame ?_ (setAlarm_alarm_of_ne _ _ hb') rfl hsch le_rfl
        intro e he
        rw [List.mem_singleton.mp he]
        exact Ne.symm hb'
  · rw [List.append_nil]
    exact (ht.follows b).frame_nil rfl rfl (Scheduled.of_rest hb) le_rfl
  · by_cases hb' : b = a
    · subst hb'
      refine hf.of_not_set rfl hlt le_rfl rfl (Scheduled.of_rest hb) ?_ ?_ hf.destroyed_canceled
        hf.live
      · -- a fire is not a cancel
        intro hc'
        rw [sinceArmed_append_singleton, if_neg (by simp [Event.armsOf])]
        simpa using hf.canceled hc'
      · intro hdes
        rcases List.mem_append.mp hdes with hdes | hdes
        · exact hf.destroyed hdes
        · simp at hdes
    · refine (ht.follows b).frame ?_ rfl rfl (Scheduled.of_rest hb) le_rfl
      intro e he
      rw [List.mem_singleton.mp he]
      exact Ne.symm hb'

/-- The fire of the batch's head is allowed by the trace so far. -/
theorem Follows.fireAllowed {now : Int} (hf : s.Follows tr b) (hs : s.Scheduled b)
    (hnow : ¬now < (s.alarm b).deadline) (hc : (s.alarm b).isCanceled = false) :
    FireAllowed tr (.fire b now) := by
  obtain ⟨⟨d, hd⟩, -⟩ := hf.scheduled hs
  refine ⟨⟨d, hd, ?_⟩, fun hdes => ?_, hf.canceled hc⟩
  · rw [← hf.deadline d hd]
    omega
  · -- a destroyed alarm is canceled
    have hdc := hf.destroyed_canceled (hf.destroyed hdes)
    rw [hc] at hdc
    cases hdc

/-- Every step keeps every alarm following the trace. -/
theorem Tracks.step (ht : s.Tracks tr) {l : Label} (h : s.step l = some (s', evs)) :
    s'.Tracks (tr ++ evs) := by
  cases step_moves h with
  | call _ hc => exact ht.call hc
  | expire _ =>
    rw [List.append_nil]
    exact ht.withTimer _
  | waitTimer now _ _ =>
    rw [List.append_nil]
    exact (ht.withTimer _).startDoTasks now
  | doTasks now _ =>
    rw [List.append_nil]
    exact ht.startDoTasks now
  | onAlarmFire hb ho _ hcs =>
    rw [← List.append_assoc]
    exact (ht.OnAlarm hb ho).calls hcs
  | onAlarmQuiet hb ho _ => exact ht.OnAlarm hb ho
  | finish _ =>
    rw [List.append_nil]
    exact ht.finish

/-- Every step appends only allowed events: a fire comes from `OnAlarm` on the batch's head,
where `Follows.fireAllowed` applies, and nothing else fires. -/
theorem Tracks.allowed_step (ht : s.Tracks tr) (ha : Lts.Allows FireAllowed tr) {l : Label}
    (h : s.step l = some (s', evs)) : Lts.Allows FireAllowed (tr ++ evs) := by
  cases step_moves h with
  | call _ hc => exact ha.append fun e he => fireAllowed_of_not_fire (call_not_fire hc e he)
  | onAlarmFire hb ho hf hcs =>
    rcases OnAlarm_cases ho with ⟨-, -, rfl⟩ | ⟨-, -, -, rfl⟩ | ⟨hnow, hc, -, rfl⟩
    · simp at hf
    · simp at hf
    · have hfire := (ht.follows _).fireAllowed (scheduled_of_batch hb) hnow hc
      rw [← List.append_assoc]
      exact calls_allowed (Lts.allows_append_singleton.mpr ⟨ha, hfire⟩) hcs
  | onAlarmQuiet hb ho hf =>
    rcases OnAlarm_cases ho with ⟨-, -, rfl⟩ | ⟨-, -, -, rfl⟩ | ⟨-, -, -, rfl⟩
    · exact ha.append fun e he => fireAllowed_of_not_fire (by simp [List.mem_singleton.mp he])
    · rwa [List.append_nil]
    · simp at hf
  | expire _ | waitTimer _ _ _ | doTasks _ _ | finish _ => rwa [List.append_nil]

/-- Every `go_quic_alarm_fire` of `a` at clock `c` in a run of the loop, with any interleaving of
API calls, `DoTasks` and callbacks: the most recent `GoQuicAlarmSetImpl` of `a` passed a deadline
at most `c`, `a` was never destroyed, and `a` was not canceled since it was last armed, by
`GoQuicAlarmSetImpl` or by `OnAlarm` re-arming it through `SetImpl`. -/
theorem fire_allowed {now : Int} {s : Loop} {tr : List Event} (h : (system now).Reach s tr) :
    Lts.Allows FireAllowed tr :=
  (h.induction_on (P := fun s tr => s.Tracks tr ∧ Lts.Allows FireAllowed tr)
    ⟨tracks_init now, Lts.allows_nil _⟩
    fun _ _ _ _ _ _ hp hs => ⟨hp.1.step hs, hp.1.allowed_step hp.2 hs⟩).2

/-- Alarm `0`'s callback sets alarm `1` for 20 and cancels it, and alarm `1`'s own `OnAlarm`
re-arms it: its fire at 21 follows that re-arming. -/
theorem fire_allowed_rearmed :
    ∃ s tr, (system 0).run (system 0).init
        [.call .create, .call .create, .call (.setImpl 0 5), .call (.setImpl 1 6), .expire,
          .waitTimer 10, .onAlarm 10 [.setImpl 1 20, .cancelImpl 1], .onAlarm 10 [], .finish,
          .expire, .waitTimer 21, .onAlarm 21 []] = some (s, tr) ∧
      tr = [.setImpl 0 5, .setImpl 1 6, .fire 0 10, .setImpl 1 20, .cancelImpl 1, .rearm 1,
        .fire 1 21] ∧ Lts.Allows FireAllowed tr := by
  have hrun : ((system 0).run (system 0).init
      [.call .create, .call .create, .call (.setImpl 0 5), .call (.setImpl 1 6), .expire,
        .waitTimer 10, .onAlarm 10 [.setImpl 1 20, .cancelImpl 1], .onAlarm 10 [], .finish,
        .expire, .waitTimer 21, .onAlarm 21 []]).map Prod.snd =
      some [.setImpl 0 5, .setImpl 1 6, .fire 0 10, .setImpl 1 20, .cancelImpl 1, .rearm 1,
        .fire 1 21] := by
    decide +kernel
  obtain ⟨⟨s, tr⟩, hr, rfl⟩ := Option.map_eq_some_iff.mp hrun
  exact ⟨s, _, hr, rfl, fire_allowed (Lts.Reach.of_run hr)⟩

/-- Two runs in which the Go layer breaks `FireContract`. In the first, alarm `0`'s callback sets
alarm `1` for `20` and cancels it; alarm `1`'s `OnAlarm` in the same batch finds the deadline
ahead and re-arms it through `SetImpl`, which clears `isCanceled` (`alarm.go:26`) before the
check of `alarm.go:51–53` can see it, and alarm `1` fires at `21` after the cancel. In the
second, alarm `1` is popped into the batch at clock `10` and set again for `7` by alarm `0`'s
callback before its own `OnAlarm`: it fires in the batch, and fires again at `12` when the heap
returns it, both for the one set. -/
theorem fire_contract_fails :
    (∃ s tr, (system 0).run (system 0).init
        [.call .create, .call .create, .call (.setImpl 0 5), .call (.setImpl 1 6), .expire,
          .waitTimer 10, .onAlarm 10 [.setImpl 1 20, .cancelImpl 1], .onAlarm 10 [], .finish,
          .expire, .waitTimer 21, .onAlarm 21 []] = some (s, tr) ∧
      (system 0).Reach s tr ∧ ¬Lts.Allows FireContract tr) ∧
    (∃ s tr, (system 0).run (system 0).init
        [.call .create, .call .create, .call (.setImpl 0 5), .call (.setImpl 1 6), .expire,
          .waitTimer 10, .onAlarm 10 [.setImpl 1 7], .onAlarm 10 [], .finish, .expire,
          .waitTimer 12, .onAlarm 12 []] = some (s, tr) ∧
      (system 0).Reach s tr ∧ ¬Lts.Allows FireContract tr) := by
  constructor
  · have hrun : ((system 0).run (system 0).init
        [.call .create, .call .create, .call (.setImpl 0 5), .call (.setImpl 1 6), .expire,
          .waitTimer 10, .onAlarm 10 [.setImpl 1 20, .cancelImpl 1], .onAlarm 10 [], .finish,
          .expire, .waitTimer 21, .onAlarm 21 []]).map Prod.snd =
        some [.setImpl 0 5, .setImpl 1 6, .fire 0 10, .setImpl 1 20, .cancelImpl 1, .rearm 1,
          .fire 1 21] := by
      decide +kernel
    obtain ⟨⟨s, tr⟩, hr, rfl⟩ := Option.map_eq_some_iff.mp hrun
    refine ⟨s, _, hr, Lts.Reach.of_run hr, fun ha => ?_⟩
    -- the fire of `1` follows its cancel since the set for `20`
    obtain ⟨d, -, -, hall⟩ := ha
      [.setImpl 0 5, .setImpl 1 6, .fire 0 10, .setImpl 1 20, .cancelImpl 1, .rearm 1]
      (.fire 1 21) [] rfl
    exact (hall (.cancelImpl 1) (by decide)).1 rfl
  · have hrun : ((system 0).run (system 0).init
        [.call .create, .call .create, .call (.setImpl 0 5), .call (.setImpl 1 6), .expire,
          .waitTimer 10, .onAlarm 10 [.setImpl 1 7], .onAlarm 10 [], .finish, .expire,
          .waitTimer 12, .onAlarm 12 []]).map Prod.snd =
        some [.setImpl 0 5, .setImpl 1 6, .fire 0 10, .setImpl 1 7, .fire 1 10, .fire 1 12] := by
      decide +kernel
    obtain ⟨⟨s, tr⟩, hr, rfl⟩ := Option.map_eq_some_iff.mp hrun
    refine ⟨s, _, hr, Lts.Reach.of_run hr, fun ha => ?_⟩
    -- the second fire of `1` follows the first since the set for `7`
    obtain ⟨d, -, -, hall⟩ := ha [.setImpl 0 5, .setImpl 1 6, .fire 0 10, .setImpl 1 7, .fire 1 10]
      (.fire 1 12) [] rfl
    exact (hall (.fire 1 10) (by decide)).2.2 10 rfl

end Loop

end GoQuic
