import GoQuic.TaskRunner.Invariant

/-!
# Wake-ups of the task runner

The server's loop runs `DoTasks` only after a value from `WaitTimer()`, so a non-empty heap
needs the timer to hold a value or to be armed for the top's deadline. `RunAlarm` and
`CancelAlarm` re-arm only when the top's deadline differs from the cached `deadlineTop`, and
`resetTimer` returns on an empty heap without touching the cache.

Outside `DoTasks` the cache is right whenever the heap is non-empty (`topCached_reach`), but
that does not give a wake-up: after a batch that empties the heap, the cache keeps the last
deadline while the timer has fired and been drained, and an alarm set later for that same
deadline is pushed with no timer behind it (`wakeup_lost`).
-/

namespace GoQuic

namespace TaskRunner

variable {t t' : TaskRunner} {a : Nat}

/-- `deadlineTop` is the deadline of the top of a non-empty heap. -/
def TopCached (t : TaskRunner) : Prop :=
  0 < t.alarmHeap.Len → t.deadlineTop = (t.alarmHeap.itemAt 0).deadline

/-- The wake-up a non-empty heap needs: a value waits in the timer's channel, or the timer is
armed for the top's deadline. -/
def WakeupArmed (t : TaskRunner) : Prop :=
  0 < t.alarmHeap.Len →
    t.timer.fired = true ∨ t.timer.armed = some (t.alarmHeap.itemAt 0).deadline

theorem topCached_resetTimer (t : TaskRunner) : t.resetTimer.TopCached := by
  intro hpos
  unfold resetTimer at hpos ⊢
  split
  · next hlen =>
    rw [if_pos hlen] at hpos
    omega
  · rfl

theorem topCached_resetTimerIfTopMoved (t : TaskRunner) : t.resetTimerIfTopMoved.TopCached := by
  unfold resetTimerIfTopMoved
  split
  · exact topCached_resetTimer t
  · next hne =>
    intro hpos
    by_contra hd
    exact hne ⟨Nat.pos_iff_ne_zero.mp hpos, hd⟩

theorem topCached_RunAlarm {d : Int} (h : t.RunAlarm a d = some t') : t'.TopCached := by
  obtain ⟨-, ht, rfl⟩ := RunAlarm_eq_some h
  exact topCached_resetTimerIfTopMoved _

theorem topCached_CancelAlarm (h : t.CancelAlarm a = some t') : t'.TopCached := by
  obtain ⟨-, ht, rfl⟩ := CancelAlarm_eq_some h
  exact topCached_resetTimerIfTopMoved _

theorem TopCached.UnregisterAlarm (hc : t.TopCached) (h : t.UnregisterAlarm a = some t') :
    t'.TopCached := by
  unfold TaskRunner.UnregisterAlarm at h
  split at h
  · obtain ⟨u, hcu, rfl⟩ := Option.map_eq_some_iff.mp h
    -- dropping the registration changes neither the heap nor the cache
    have hu : u.TopCached := by
      split at hcu
      · exact topCached_CancelAlarm hcu
      · obtain rfl := Option.some.inj hcu
        exact hc
    exact hu
  · cases h

end TaskRunner

namespace Loop

open TaskRunner

variable {s s' : Loop} {a : Nat} {evs : List Event}

theorem TopCached.SetImpl (h : s.SetImpl a = some s') (hc : s.runner.TopCached) :
    s'.runner.TopCached := by
  rcases SetImpl_cases h with ⟨-, rfl⟩ | ⟨-, t, ht, rfl⟩
  · exact hc
  · exact topCached_RunAlarm ht

theorem TopCached.Destroy (h : s.Destroy a = some s') : s'.runner.TopCached := by
  obtain ⟨t, u, ht, hu, rfl⟩ := Destroy_eq_some h
  exact (topCached_CancelAlarm ht).UnregisterAlarm hu

/-- The alarm API keeps the cache right. A new alarm's key is registered with no alarm in the
heap, which is where the loop's invariant comes in. -/
theorem TopCached.call (hi : s.Inv) (hc : s.runner.TopCached) {c : Call}
    (h : s.call c = some (s', evs)) : s'.runner.TopCached := by
  rcases call_cases h with ⟨-, rfl, -⟩ | ⟨key, d, -, h₁, -⟩ | ⟨key, -, h₁, -⟩ | ⟨key, -, h₁, -⟩
  · intro hpos
    have hpos' : 0 < s.runner.alarmHeap.items.size := hpos
    have hmem : s.runner.alarmHeap.items[0] ∈ s.runner.alarmHeap.items := Array.getElem_mem hpos'
    -- the new key is not in the heap, so the top's item is untouched
    have hne : s.runner.alarmHeap.items[0] ≠ s.index := fun he => by
      have hr := hi.wf.registered _ hmem
      rw [he, hi.fresh s.index le_rfl] at hr
      cases hr
    have htop := hc hpos
    simp only [CreateGoQuicAlarm, RegisterAlarm, AlarmHeap.itemAt, Array.getD_eq_getD_getElem?,
      Array.getElem?_eq_getElem hpos', Option.getD_some, Function.update_of_ne hne] at htop ⊢
    exact htop
  · exact TopCached.SetImpl (GoQuicAlarmSetImpl_lookup h₁).2 hc
  · obtain ⟨-, t, ht, rfl⟩ := GoQuicAlarmCancelImpl_eq_some h₁
    exact topCached_CancelAlarm ht
  · obtain ⟨-, s₂, h₂, rfl⟩ := GoQuicAlarmDestroy_lookup h₁
    exact (TopCached.Destroy h₂ : s₂.runner.TopCached)

/-- Outside `DoTasks`, in every state the loop reaches, `deadlineTop` is the deadline of the top
of a non-empty heap. -/
theorem topCached_reach {now : Int} {tr : List Event} (h : (system now).Reach s tr) :
    s.batch = none → s.runner.TopCached := by
  refine (@Lts.Reach.invariant _ _ _ (system now)
    (fun s => s.Inv ∧ (s.batch = none → s.runner.TopCached)) s tr h ?_ ?_).2
  · refine ⟨inv_init now, fun _ hpos => absurd hpos ?_⟩
    simp [system, init, CreateTaskRunner, AlarmHeap.new, AlarmHeap.Len]
  rintro s l s' evs ⟨hi, hc⟩ hs
  refine ⟨hi.step hs, ?_⟩
  cases step_moves hs with
  | call hb hcall =>
    intro _
    exact TopCached.call hi (hc hb) hcall
  | expire _ => exact hc
  | waitTimer now hb _ =>
    intro hb'
    have he := eq_of_startDoTasks_batch hb'
    rw [he] at hb' ⊢
    exact hc hb'
  | doTasks now hb =>
    intro hb'
    have he := eq_of_startDoTasks_batch hb'
    rw [he] at hb' ⊢
    exact hc hb'
  | onAlarmFire hb ho _ hcs =>
    -- the callbacks of a batch end in a state that is still inside it
    intro hb'
    rw [calls_batch hcs, OnAlarm_batch ho] at hb'
    cases hb'
  | onAlarmQuiet hb ho _ =>
    intro hb'
    rw [OnAlarm_batch ho] at hb'
    cases hb'
  | finish _ =>
    intro _
    exact topCached_resetTimer _

/-- After a batch that empties the heap, an alarm set for the cached deadline finds the cache
right: the heap's top is that alarm, with that deadline. -/
theorem topCached_reach_after_batch :
    ∃ s tr, (system 0).run (system 0).init
        [.call .create, .call .create, .call (.setImpl 0 10), .expire, .waitTimer 11,
          .onAlarm 11 [], .finish, .call (.setImpl 1 10)] = some (s, tr) ∧
      s.batch = none ∧ s.runner.TopCached := by
  have hb : ((system 0).run (system 0).init
      [.call .create, .call .create, .call (.setImpl 0 10), .expire, .waitTimer 11,
        .onAlarm 11 [], .finish, .call (.setImpl 1 10)]).map (fun r => r.1.batch) = some none := by
    decide +kernel
  obtain ⟨⟨s, tr⟩, hr, hb⟩ := Option.map_eq_some_iff.mp hb
  exact ⟨s, tr, hr, hb, topCached_reach (Lts.Reach.of_run hr) hb⟩

/-- A run that loses its wake-up. Alarm `0` is set for `10`, fires in the batch the timer
starts at clock `11`, and the batch ends on an empty heap, so `resetTimer` keeps `deadlineTop = 10`
and leaves the drained timer unarmed. Alarm `1` is then set for `10`: `RunAlarm` pushes it, sees
the top's deadline equal to the cache, and does not re-arm. The heap holds an alarm, outside
`DoTasks`, and the timer is idle. -/
theorem wakeup_lost :
    ∃ s tr, (system 0).run (system 0).init
        [.call .create, .call .create, .call (.setImpl 0 10), .expire, .waitTimer 11,
          .onAlarm 11 [], .finish, .call (.setImpl 1 10)] = some (s, tr) ∧
      (system 0).Reach s tr ∧ s.batch = none ∧ s.runner.alarmHeap.Len = 1 ∧
      s.runner.timer.Idle ∧ ¬s.runner.WakeupArmed := by
  have hrun : ((system 0).run (system 0).init
      [.call .create, .call .create, .call (.setImpl 0 10), .expire, .waitTimer 11,
        .onAlarm 11 [], .finish, .call (.setImpl 1 10)]).map
        (fun r => (r.1.batch, r.1.runner.alarmHeap.Len, r.1.runner.timer)) =
      some (none, 1, ⟨none, false⟩) := by
    decide +kernel
  obtain ⟨⟨s, tr⟩, hr, he⟩ := Option.map_eq_some_iff.mp hrun
  simp only [Prod.mk.injEq] at he
  obtain ⟨hb, hl, ht⟩ := he
  have hidle : s.runner.timer.Idle := by
    rw [ht]
    exact ⟨rfl, rfl⟩
  refine ⟨s, tr, hr, Lts.Reach.of_run hr, hb, hl, hidle, fun hw => ?_⟩
  rcases hw (by omega) with h | h
  · rw [hidle.2] at h
    cases h
  · rw [hidle.1] at h
    cases h

end Loop

end GoQuic
