import GoQuic.TaskRunner.Loop

/-!
# The alarm heap over every run

Every state the loop reaches keeps the runner's invariant `TaskRunner.Wf`: back-pointers, one
occurrence of each registered handle, `heapIdx = -1` exactly off the heap, heap order and distinct
insertion orders. It holds in the middle of a `DoTasks` batch too, whatever the callbacks of the
batch set, cancel or destroy. Each function of `alarm.go` keeps it, and `Lts.Reach.invariant`
carries it along every run.

On such a heap, `DoTasks` pops exactly the overdue items, in order, and calls `OnAlarm` on them in
that order before it ends (`doTasks_batch`).
-/

namespace GoQuic

namespace Loop

open TaskRunner

/-- The invariant of the loop: the runner's own, and no key at or above `index` registered with
the runner or live in `goQuicAlarmPtr`. -/
structure Inv (s : Loop) : Prop where
  wf : s.runner.Wf
  fresh : ∀ a, s.index ≤ a → s.runner.alarmList a = false
  ptr_fresh : ∀ a, s.index ≤ a → s.alarmPtr a = false

variable {s s' : Loop} {a : Nat} {now : Int}

theorem inv_init (now : Int) : (init now).Inv where
  wf := ⟨AlarmHeap.valid_new _, fun _ ha => absurd ha (by simp [init, CreateTaskRunner,
    AlarmHeap.new]), fun _ hb => absurd hb (by simp [init, CreateTaskRunner])⟩
  fresh _ _ := rfl
  ptr_fresh _ _ := rfl

/-- A step that only drops registrations, with a runner that keeps `Wf`, keeps the invariant. -/
theorem Inv.of_runner (hi : s.Inv) (hw : s'.runner.Wf)
    (hl : ∀ b, s'.runner.alarmList b = true → s.runner.alarmList b = true)
    (hidx : s'.index = s.index) (hp : ∀ b, s'.alarmPtr b = true → s.alarmPtr b = true) :
    s'.Inv where
  wf := hw
  fresh b hb := by
    rw [hidx] at hb
    cases h : s'.runner.alarmList b with
    | false => rfl
    | true => simpa [hi.fresh b hb] using hl b h
  ptr_fresh b hb := by
    rw [hidx] at hb
    cases h : s'.alarmPtr b with
    | false => rfl
    | true => simpa [hi.ptr_fresh b hb] using hp b h

theorem Inv.setAlarm (hi : s.Inv) (x : GoQuicAlarm) : (s.setAlarm a x).Inv :=
  hi.of_runner hi.wf (fun _ => id) rfl fun _ => id

theorem Inv.SetImpl (hi : s.Inv) (h : s.SetImpl a = some s') : s'.Inv := by
  rcases SetImpl_cases h with ⟨-, rfl⟩ | ⟨-, t, ht, rfl⟩
  · exact hi
  · refine hi.of_runner (hi.wf.RunAlarm ht) ?_ rfl fun _ => id
    intro b hb
    rwa [RunAlarm_alarmList ht] at hb

theorem Inv.CancelImpl (hi : s.Inv) (h : s.CancelImpl a = some s') : s'.Inv := by
  obtain ⟨t, ht, rfl⟩ := CancelImpl_eq_some h
  refine hi.of_runner (hi.wf.CancelAlarm ht).1 ?_ rfl fun _ => id
  intro b hb
  rwa [CancelAlarm_alarmList ht] at hb

theorem Inv.Destroy (hi : s.Inv) (h : s.Destroy a = some s') : s'.Inv := by
  obtain ⟨t, u, ht, hu, rfl⟩ := Destroy_eq_some h
  have htw := hi.wf.CancelAlarm ht
  obtain ⟨v, -, -, hvl, rfl⟩ := htw.1.UnregisterAlarm_cases hu
  refine hi.of_runner (htw.1.UnregisterAlarm hu) ?_ rfl fun _ => id
  -- unregistering only drops `a`
  intro b hb
  have hba : b ≠ a := by
    rintro rfl
    simp at hb
  simp only [Function.update_of_ne hba] at hb
  rw [hvl, htw.2.2] at hb
  exact hb

theorem Inv.OnAlarm (hi : s.Inv) {evs : List Event} (h : s.OnAlarm a now = some (s', evs)) :
    s'.Inv := by
  rcases OnAlarm_cases h with ⟨-, hs, -⟩ | ⟨-, -, rfl, -⟩ | ⟨-, -, rfl, -⟩
  · exact hi.SetImpl hs
  · exact hi
  · exact hi

theorem Inv.CreateGoQuicAlarm (hi : s.Inv) : s.CreateGoQuicAlarm.1.Inv where
  wf := hi.wf.RegisterAlarm (hi.fresh s.index le_rfl)
  fresh b hb := by
    have hb' : s.index + 1 ≤ b := hb
    have hne : b ≠ s.index := by omega
    show (s.runner.RegisterAlarm s.index).alarmList b = false
    simp only [RegisterAlarm, Function.update_of_ne hne]
    exact hi.fresh b (by omega)
  ptr_fresh b hb := by
    have hb' : s.index + 1 ≤ b := hb
    have hne : b ≠ s.index := by omega
    show Function.update s.alarmPtr s.index true b = false
    rw [Function.update_of_ne hne]
    exact hi.ptr_fresh b (by omega)

theorem Inv.call (hi : s.Inv) {c : Call} {evs : List Event} (h : s.call c = some (s', evs)) :
    s'.Inv := by
  rcases call_cases h with ⟨-, rfl, -⟩ | ⟨key, d, -, h₁, -⟩ | ⟨key, -, h₁, -⟩ | ⟨key, -, h₁, -⟩
  · exact hi.CreateGoQuicAlarm
  · exact (hi.setAlarm _).SetImpl (GoQuicAlarmSetImpl_lookup h₁).2
  · exact hi.CancelImpl (GoQuicAlarmCancelImpl_lookup h₁).2
  · obtain ⟨-, s₂, h₂, rfl⟩ := GoQuicAlarmDestroy_lookup h₁
    have hi₂ := hi.Destroy h₂
    -- deleting the key from `goQuicAlarmPtr` only makes it not live
    refine hi₂.of_runner hi₂.wf (fun _ => id) rfl ?_
    intro b hb
    have hbk : b ≠ key := by
      rintro rfl
      simp at hb
    simpa [Function.update_of_ne hbk] using hb

theorem Inv.startDoTasks (hi : s.Inv) (now : Int) : (s.startDoTasks now).Inv := by
  unfold Loop.startDoTasks
  split
  · exact hi
  · next t items hp =>
    obtain ⟨-, rfl, -⟩ := popTasks_eq_some hp
    exact hi.of_runner (hi.wf.popOverdue now) (fun _ => id) rfl fun _ => id

theorem Inv.withBatch (hi : s.Inv) (b : Option (List Nat)) : Inv { s with batch := b } :=
  hi.of_runner hi.wf (fun _ => id) rfl fun _ => id

theorem Inv.withTimer (hi : s.Inv) (tm : Timer) :
    Inv { s with runner := { s.runner with timer := tm } } :=
  hi.of_runner ⟨hi.wf.valid, hi.wf.registered, hi.wf.unheaped⟩ (fun _ => id) rfl fun _ => id

/-- Every step of the loop keeps the invariant. -/
theorem Inv.step (hi : s.Inv) {l : Label} {evs : List Event} (h : s.step l = some (s', evs)) :
    s'.Inv := by
  cases step_moves h with
  | call _ hc => exact hi.call hc
  | expire _ => exact hi.withTimer _
  | waitTimer now _ _ => exact (hi.withTimer _).startDoTasks now
  | doTasks now _ => exact hi.startDoTasks now
  | onAlarmFire _ ho _ hcs =>
    -- the callback's calls, one after another
    have hi₁ := (hi.withBatch _).OnAlarm ho
    exact calls_invariant (fun _ _ _ _ hi' hc => hi'.call hc) hi₁ hcs
  | onAlarmQuiet _ ho _ => exact (hi.withBatch _).OnAlarm ho
  | finish _ => exact hi.of_runner hi.wf.resetTimer (by simp) rfl fun _ => id

theorem Inv.reach {tr : List Event} (h : (system now).Reach s tr) : s.Inv :=
  h.invariant (inv_init now) fun _ _ _ _ hi hs => hi.step hs

/-- In every state the loop reaches, in the middle of a `DoTasks` batch too: each handle in the
heap sits at the index its item records, once, and is registered; a registered item has
`heapIdx = -1` exactly when it is off the heap; no item is `Less` than its parent; and the
insertion orders in the heap are distinct. -/
theorem alarmHeap_invariant {now : Int} {s : Loop} {tr : List Event}
    (h : (system now).Reach s tr) :
    (∀ (i a : Nat), s.runner.alarmHeap.items[i]? = some a →
        (s.runner.alarmHeap.item a).heapIdx = i) ∧
      s.runner.alarmHeap.items.toList.Nodup ∧
      (∀ a ∈ s.runner.alarmHeap.items, s.runner.alarmList a = true) ∧
      (∀ a, s.runner.alarmList a = true →
        ((s.runner.alarmHeap.item a).heapIdx = -1 ↔ a ∉ s.runner.alarmHeap.items)) ∧
      (∀ i, 0 < i → i < s.runner.alarmHeap.Len →
        s.runner.alarmHeap.Less i (ContainerHeap.parent i) = false) ∧
      s.runner.alarmHeap.insertOrds.Nodup := by
  have hw := (Inv.reach h).wf
  exact ⟨hw.valid.indexed.heapIdx, hw.valid.indexed.nodup, hw.registered,
    fun a ha => hw.heapIdx_eq_neg_one_iff ha, fun i hi hn => hw.valid.less_parent hi hn,
    hw.valid.insertOrds_nodup⟩

theorem alarmHeap_invariant_two_alarms :
    ∃ s tr, (system 0).run (system 0).init
        [.call .create, .call .create, .call (.setImpl 0 5), .call (.setImpl 1 3)] = some (s, tr) ∧
      s.runner.alarmHeap.Len = 2 ∧
      (∀ (i a : Nat), s.runner.alarmHeap.items[i]? = some a →
        (s.runner.alarmHeap.item a).heapIdx = i) ∧
      s.runner.alarmHeap.items.toList.Nodup ∧
      (∀ a ∈ s.runner.alarmHeap.items, s.runner.alarmList a = true) ∧
      (∀ a, s.runner.alarmList a = true →
        ((s.runner.alarmHeap.item a).heapIdx = -1 ↔ a ∉ s.runner.alarmHeap.items)) ∧
      (∀ i, 0 < i → i < s.runner.alarmHeap.Len →
        s.runner.alarmHeap.Less i (ContainerHeap.parent i) = false) ∧
      s.runner.alarmHeap.insertOrds.Nodup := by
  have hlen : ((system 0).run (system 0).init
      [.call .create, .call .create, .call (.setImpl 0 5), .call (.setImpl 1 3)]).map
        (fun r => r.1.runner.alarmHeap.Len) = some 2 := by
    decide +kernel
  obtain ⟨⟨s, tr⟩, hr, hl⟩ := Option.map_eq_some_iff.mp hlen
  exact ⟨s, tr, hr, hl, alarmHeap_invariant (Lts.Reach.of_run hr)⟩

end Loop

end GoQuic
