import GoQuic.TaskRunner.AlarmHeap

/-!
# The task runner

`TaskRunner` of `task_runner.go:29–171` with its Go timer, and the representation invariant
that its methods keep. The pointers of `alarmList` are alarm handles, and a registered handle's
`HeapItem` lives in the heap's item store. A method that dereferences the `alarmList` entry of
an alarm that is not registered panics in Go and returns `none` here.

The invariant is built in two layers: `AlarmHeap.Valid` for the heap alone, kept by the four
`container/heap` calls, and `TaskRunner.Wf`, which ties the heap to `alarmList`.
-/

namespace GoQuic

open ContainerHeap

namespace AlarmHeap

variable {ht ht' : AlarmHeap} {b r x : Nat}

/-- The insertion orders of the handles in the heap, in the order of `items`. -/
def insertOrds (ht : AlarmHeap) : List Int := ht.items.toList.map fun a => (ht.item a).insertOrd

/-- The representation invariant of `AlarmHeap`: back-pointers, heap order, and insertion
orders that are pairwise distinct and at most the counter that hands them out. -/
structure Valid (ht : AlarmHeap) : Prop where
  indexed : ht.Indexed
  ordered : ht.Ordered
  insertOrd_le : ∀ a ∈ ht.items, (ht.item a).insertOrd ≤ ht.insertNum
  insertOrds_nodup : ht.insertOrds.Nodup

theorem valid_new (item : Nat → HeapItem) : (new item).Valid where
  indexed := ⟨List.nodup_nil, fun i a h => by simp [new] at h⟩
  ordered _ _ ha := absurd ha (by simp [new])
  insertOrd_le _ ha := absurd ha (by simp [new])
  insertOrds_nodup := List.nodup_nil

theorem Removed.mem_iff (hr : Removed ht ht' r) : b ∈ ht.items ↔ b = r ∨ b ∈ ht'.items := by
  rw [← Array.mem_toList_iff, hr.perm.mem_iff, List.mem_cons, Array.mem_toList_iff]

theorem Removed.not_mem (hr : Removed ht ht' r) (hx : ht.Indexed) : r ∉ ht'.items := by
  have hnd := hr.perm.nodup_iff.mp hx.nodup
  rw [List.nodup_cons, Array.mem_toList_iff] at hnd
  exact hnd.1

theorem Permuted.mem_iff (hp : Permuted ht ht') : b ∈ ht'.items ↔ b ∈ ht.items := by
  rw [← Array.mem_toList_iff, hp.perm.mem_iff, Array.mem_toList_iff]

theorem Pushed.mem_iff (hp : Pushed ht ht' x) : b ∈ ht'.items ↔ b ∈ ht.items ∨ b = x := by
  rw [← Array.mem_toList_iff, hp.perm.mem_iff, List.mem_append, List.mem_singleton,
    Array.mem_toList_iff]

theorem insertOrds_removed (hr : Removed ht ht' r) :
    ht.insertOrds.Perm ((ht.item r).insertOrd :: ht'.insertOrds) := by
  have hf : (fun a => (ht'.item a).insertOrd) = fun a => (ht.item a).insertOrd :=
    funext hr.insertOrd
  unfold insertOrds
  rw [hf]
  exact hr.perm.map _

theorem insertOrds_permuted (hp : Permuted ht ht') : ht'.insertOrds.Perm ht.insertOrds := by
  have hf : (fun a => (ht'.item a).insertOrd) = fun a => (ht.item a).insertOrd :=
    funext hp.insertOrd
  unfold insertOrds
  rw [hf]
  exact hp.perm.map _

/-- A pushed handle that was not in the heap adds the next insertion order at the end. -/
theorem insertOrds_pushed (hp : Pushed ht ht' x) (hxn : x ∉ ht.items) :
    ht'.insertOrds.Perm (ht.insertOrds ++ [ht.insertNum + 1]) := by
  have hm := hp.perm.map fun a => (ht'.item a).insertOrd
  rw [List.map_append, List.map_singleton, hp.insertOrd x, if_pos rfl] at hm
  have hold : ht.items.toList.map (fun a => (ht'.item a).insertOrd) = ht.insertOrds := by
    apply List.map_congr_left
    intro a ha
    have hax : a ≠ x := fun he => hxn (he ▸ Array.mem_toList_iff.mp ha)
    rw [hp.insertOrd a, if_neg hax]
  rw [hold] at hm
  exact hm

theorem Valid.removed (hv : ht.Valid) (hr : Removed ht ht' r) (ho : ht'.Ordered) :
    ht'.Valid where
  indexed := hr.indexed
  ordered := ho
  insertOrd_le a ha := by
    rw [hr.insertOrd, hr.insertNum]
    exact hv.insertOrd_le a (hr.mem_iff.mpr (.inr ha))
  insertOrds_nodup := ((insertOrds_removed hr).nodup_iff.mp hv.insertOrds_nodup).of_cons

theorem Valid.pushed (hv : ht.Valid) (hp : Pushed ht ht' x) (hxn : x ∉ ht.items)
    (ho : ht'.Ordered) : ht'.Valid where
  indexed := hp.indexed
  ordered := ho
  insertOrd_le a ha := by
    rw [hp.insertOrd, hp.insertNum]
    split
    · exact le_refl _
    · next hax =>
      have := hv.insertOrd_le a ((hp.mem_iff.mp ha).resolve_right hax)
      omega
  insertOrds_nodup := by
    rw [(insertOrds_pushed hp hxn).nodup_iff, List.nodup_append]
    refine ⟨hv.insertOrds_nodup, by simp, ?_⟩
    intro o ho' o' ho'' he
    rw [List.mem_singleton] at ho''
    obtain ⟨a, ha, rfl⟩ := List.mem_map.mp ho'
    have := hv.insertOrd_le a (Array.mem_toList_iff.mp ha)
    omega

/-- Heap order read through `Less`: no item is less than its parent. -/
theorem Valid.less_parent (hv : ht.Valid) {i : Nat} (hi : 0 < i) (hn : i < ht.Len) :
    ht.Less i (parent i) = false := by
  have hle := hv.ordered i hi hn
  cases h : ht.Less i (parent i) with
  | false => rfl
  | true => exact absurd ((Less_iff ht i (parent i)).mp h) (not_lt.mpr hle)

/-! ### The four heap calls of the task runner keep the invariant -/

theorem insertOrd_setDeadline (ht : AlarmHeap) (a b : Nat) (d : Int) :
    ((ht.setDeadline a d).item b).insertOrd = (ht.item b).insertOrd := by
  rw [setDeadline_item]
  split
  · next hba => rw [hba]
  · rfl

theorem insertOrds_setDeadline (ht : AlarmHeap) (a : Nat) (d : Int) :
    (ht.setDeadline a d).insertOrds = ht.insertOrds := by
  simp only [insertOrds, setDeadline_items, insertOrd_setDeadline]

/-- Changing the item of a handle outside the heap changes nothing the invariant reads. -/
theorem Valid.update (hv : ht.Valid) {a : Nat} (ha : a ∉ ht.items) (it : HeapItem) :
    ({ ht with item := Function.update ht.item a it } : AlarmHeap).Valid := by
  have hne : ∀ b ∈ ht.items, Function.update ht.item a it b = ht.item b := fun b hb =>
    Function.update_of_ne (fun (he : b = a) => ha (he ▸ hb)) _ _
  refine ⟨⟨hv.indexed.nodup, fun i b hi => ?_⟩, ?_, fun b hb => ?_, ?_⟩
  · show (Function.update ht.item a it b).heapIdx = i
    rw [hne b (Array.mem_iff_getElem?.mpr ⟨i, hi⟩)]
    exact hv.indexed.heapIdx i b hi
  · apply hv.ordered.congr
    intro k hk
    simp only [key, itemAt, Array.getD_eq_getD_getElem?, Array.getElem?_eq_getElem hk,
      Option.getD_some]
    rw [hne _ (Array.getElem_mem hk)]
  · show (Function.update ht.item a it b).insertOrd ≤ ht.insertNum
    rw [hne b hb]
    exact hv.insertOrd_le b hb
  · have hs : insertOrds { ht with item := Function.update ht.item a it } = ht.insertOrds :=
      List.map_congr_left fun b hb => by
        show (Function.update ht.item a it b).insertOrd = _
        rw [hne b (Array.mem_toList_iff.mp hb)]
    rw [hs]
    exact hv.insertOrds_nodup

/-- Writing the deadline of a handle outside the heap changes no key of the heap. -/
theorem Valid.setDeadline (hv : ht.Valid) {a : Nat} (ha : a ∉ ht.items) (d : Int) :
    (ht.setDeadline a d).Valid :=
  hv.update ha _

theorem Valid.heapPush (hv : ht.Valid) (hxn : x ∉ ht.items) :
    (ContainerHeap.Push heapInterface ht x).Valid :=
  hv.pushed (heapPush_pushed hv.indexed hxn) hxn (heapPush_ordered hv.indexed hxn hv.ordered)

theorem Valid.heapPop (hv : ht.Valid) (hpos : 0 < ht.items.size) :
    (ContainerHeap.Pop heapInterface ht).1.Valid :=
  hv.removed (heapPop_removed hv.indexed hpos).2 (heapPop_ordered hv.indexed hpos hv.ordered)

theorem Valid.heapRemove (hv : ht.Valid) {i : Nat} (hi : i < ht.items.size) :
    (ContainerHeap.Remove heapInterface ht i).1.Valid :=
  hv.removed (heapRemove_removed hv.indexed hi).2 (heapRemove_ordered hv.indexed hi hv.ordered)

/-- `heap.Fix` at the index of a handle whose deadline was just written restores the heap. -/
theorem Valid.heapFix_setDeadline (hv : ht.Valid) {i a : Nat} (ha : ht.items[i]? = some a)
    (d : Int) : (ContainerHeap.Fix heapInterface (ht.setDeadline a d) i).Valid := by
  have hi : i < (ht.setDeadline a d).items.size := by
    rw [setDeadline_items]
    exact (Array.getElem?_eq_some_iff.mp ha).1
  have hx := hv.indexed.setDeadline a d
  have hp := heapFix_permuted hx hi
  refine ⟨hp.indexed, heapFix_ordered hx hi (fixReady_setDeadline hv.indexed hv.ordered ha d),
    ?_, ?_⟩
  · intro b hb
    rw [hp.insertOrd, hp.insertNum, insertOrd_setDeadline, setDeadline_insertNum]
    exact hv.insertOrd_le b (hp.mem_iff.mp hb)
  · rw [(insertOrds_permuted hp).nodup_iff, insertOrds_setDeadline]
    exact hv.insertOrds_nodup

end AlarmHeap

/-! ### The timer and the runner -/

/-- The Go 1.7 `time.Timer` behind `WaitTimer()`: the deadline it is armed for, if any, and
whether a value waits in its one-slot channel `C`. `resetTimer` arms it for a duration that
ends at the deadline, or for zero when the deadline has passed, so a timer armed for `d` sends
once the clock reaches `d`, at once when it already has. -/
structure Timer where
  armed : Option Int
  fired : Bool
  deriving DecidableEq, Repr

namespace Timer

/-- `Timer.Reset`: arm for `d`. A value already in the channel stays there. -/
def Reset (tm : Timer) (d : Int) : Timer := { tm with armed := some d }

/-- The clock reaches the armed expiry: the runtime's non-blocking send fills the channel (or
is dropped when it is full), and the timer is no longer armed. -/
def expire (tm : Timer) : Option Timer :=
  match tm.armed with
  | some _ => some ⟨none, true⟩
  | none => none

/-- A receive from `WaitTimer()`, which blocks until a value is there. -/
def receive (tm : Timer) : Option Timer :=
  if tm.fired then some { tm with fired := false } else none

/-- Neither armed nor holding a value: no wake-up is coming. -/
def Idle (tm : Timer) : Prop := tm.armed = none ∧ tm.fired = false

instance (tm : Timer) : Decidable tm.Idle := inferInstanceAs (Decidable (_ ∧ _))

end Timer

/-- `TaskRunner` (`task_runner.go:29–37`): the registered alarms, the heap, the deadline the
timer was last armed for, and the timer. -/
structure TaskRunner where
  alarmList : Nat → Bool
  alarmHeap : AlarmHeap
  deadlineTop : Int
  timer : Timer

namespace TaskRunner

open AlarmHeap

/-- The item `RegisterAlarm` allocates (`task_runner.go:160–162`). -/
def newItem : HeapItem := ⟨0, -1, 0⟩

/-- `CreateTaskRunner` (`task_runner.go:76–84`); its timer is armed about 200 years after the
clock reading `now`. -/
def CreateTaskRunner (now : Int) : TaskRunner where
  alarmList _ := false
  alarmHeap := AlarmHeap.new fun _ => newItem
  deadlineTop := 0
  timer := ⟨some (now + 200 * 365 * 24 * 3600 * 1000000), false⟩

/-- `TaskRunner.resetTimer` (`task_runner.go:109–126`): on a non-empty heap, cache the top's
deadline and arm the timer for it; on an empty heap, nothing. -/
def resetTimer (t : TaskRunner) : TaskRunner :=
  if t.alarmHeap.Len = 0 then t
  else
    { t with
      deadlineTop := (t.alarmHeap.itemAt 0).deadline
      timer := t.timer.Reset (t.alarmHeap.itemAt 0).deadline }

/-- The test that ends both `RunAlarm` and `CancelAlarm` (`task_runner.go:94–96,104–106`):
re-arm only when the top's deadline differs from the cached one. -/
def resetTimerIfTopMoved (t : TaskRunner) : TaskRunner :=
  if t.alarmHeap.Len ≠ 0 ∧ t.deadlineTop ≠ (t.alarmHeap.itemAt 0).deadline then t.resetTimer
  else t

/-- `TaskRunner.RunAlarm` (`task_runner.go:86–97`), with the alarm's `deadline`: copy it into
the item, push the item or fix it in place, and re-arm if the top moved. -/
def RunAlarm (t : TaskRunner) (alarm : Nat) (deadline : Int) : Option TaskRunner :=
  if t.alarmList alarm then
    let ht := t.alarmHeap.setDeadline alarm deadline
    let ht :=
      if (ht.item alarm).heapIdx < 0 then ContainerHeap.Push heapInterface ht alarm
      else ContainerHeap.Fix heapInterface ht (ht.item alarm).heapIdx.toNat
    some (resetTimerIfTopMoved { t with alarmHeap := ht })
  else none

/-- `TaskRunner.CancelAlarm` (`task_runner.go:99–107`): remove the item if it is in the heap,
and re-arm if the top moved. -/
def CancelAlarm (t : TaskRunner) (alarm : Nat) : Option TaskRunner :=
  if t.alarmList alarm then
    let idx := (t.alarmHeap.item alarm).heapIdx
    let ht :=
      if idx ≥ 0 then (ContainerHeap.Remove heapInterface t.alarmHeap idx.toNat).1
      else t.alarmHeap
    some (resetTimerIfTopMoved { t with alarmHeap := ht })
  else none

/-- `TaskRunner.RegisterAlarm` (`task_runner.go:157–163`): a fresh item outside the heap. -/
def RegisterAlarm (t : TaskRunner) (alarm : Nat) : TaskRunner :=
  { t with
    alarmList := Function.update t.alarmList alarm true
    alarmHeap := { t.alarmHeap with item := Function.update t.alarmHeap.item alarm newItem } }

/-- `TaskRunner.UnregisterAlarm` (`task_runner.go:165–170`); it tests `heapIdx != -1` where
`CancelAlarm` tests `heapIdx >= 0`. -/
def UnregisterAlarm (t : TaskRunner) (alarm : Nat) : Option TaskRunner :=
  if t.alarmList alarm then
    let t := if (t.alarmHeap.item alarm).heapIdx ≠ -1 then t.CancelAlarm alarm else some t
    t.map fun t => { t with alarmList := Function.update t.alarmList alarm false }
  else none

/-! ### The runner invariant -/

/-- The representation invariant of the runner: a valid heap whose handles are all registered,
and `heapIdx = -1` on every registered item outside it. -/
structure Wf (t : TaskRunner) : Prop where
  valid : t.alarmHeap.Valid
  registered : ∀ a ∈ t.alarmHeap.items, t.alarmList a = true
  unheaped : ∀ a, t.alarmList a = true → a ∉ t.alarmHeap.items →
    (t.alarmHeap.item a).heapIdx = -1

variable {t t' : TaskRunner} {a i : Nat}

@[simp] theorem resetTimer_alarmHeap (t : TaskRunner) : t.resetTimer.alarmHeap = t.alarmHeap := by
  unfold resetTimer
  split <;> rfl

@[simp] theorem resetTimer_alarmList (t : TaskRunner) : t.resetTimer.alarmList = t.alarmList := by
  unfold resetTimer
  split <;> rfl

@[simp] theorem resetTimerIfTopMoved_alarmHeap (t : TaskRunner) :
    t.resetTimerIfTopMoved.alarmHeap = t.alarmHeap := by
  unfold resetTimerIfTopMoved
  split <;> simp

@[simp] theorem resetTimerIfTopMoved_alarmList (t : TaskRunner) :
    t.resetTimerIfTopMoved.alarmList = t.alarmList := by
  unfold resetTimerIfTopMoved
  split <;> simp

/-- `RunAlarm` goes on a registered alarm, changes only the heap, and then tests the top. -/
theorem RunAlarm_eq_some {d : Int} (h : t.RunAlarm a d = some t') :
    t.alarmList a = true ∧ ∃ ht, t' = resetTimerIfTopMoved { t with alarmHeap := ht } := by
  unfold RunAlarm at h
  split at h
  · exact ⟨‹_›, _, (Option.some.inj h).symm⟩
  · cases h

/-- So does `CancelAlarm`. -/
theorem CancelAlarm_eq_some (h : t.CancelAlarm a = some t') :
    t.alarmList a = true ∧ ∃ ht, t' = resetTimerIfTopMoved { t with alarmHeap := ht } := by
  unfold CancelAlarm at h
  split at h
  · exact ⟨‹_›, _, (Option.some.inj h).symm⟩
  · cases h

/-- The invariant reads only the heap and `alarmList`, which the timer code never writes. -/
theorem Wf.resetTimerIfTopMoved (hw : t.Wf) : t.resetTimerIfTopMoved.Wf := by
  obtain ⟨hv, hr, hu⟩ := hw
  constructor <;> simpa

theorem Wf.resetTimer (hw : t.Wf) : t.resetTimer.Wf := by
  obtain ⟨hv, hr, hu⟩ := hw
  constructor <;> simpa

/-- Under the invariant, a registered item's `heapIdx` is its index in the heap, or `-1`. -/
theorem Wf.heapIdx_cases (hw : t.Wf) (ha : t.alarmList a = true) :
    (∃ i : Nat, t.alarmHeap.items[i]? = some a ∧ (t.alarmHeap.item a).heapIdx = i) ∨
      (a ∉ t.alarmHeap.items ∧ (t.alarmHeap.item a).heapIdx = -1) := by
  by_cases hm : a ∈ t.alarmHeap.items
  · obtain ⟨i, hi⟩ := Array.mem_iff_getElem?.mp hm
    exact .inl ⟨i, hi, hw.valid.indexed.heapIdx i a hi⟩
  · exact .inr ⟨hm, hw.unheaped a ha hm⟩

/-- `heapIdx = -1` marks exactly the registered items off the heap. -/
theorem Wf.heapIdx_eq_neg_one_iff (hw : t.Wf) (ha : t.alarmList a = true) :
    (t.alarmHeap.item a).heapIdx = -1 ↔ a ∉ t.alarmHeap.items := by
  rcases hw.heapIdx_cases ha with ⟨i, hi, hidx⟩ | ⟨hm, hidx⟩
  · have hm : a ∈ t.alarmHeap.items := Array.mem_iff_getElem?.mpr ⟨i, hi⟩
    rw [hidx]
    constructor
    · intro h
      omega
    · intro h
      exact absurd hm h
  · exact ⟨fun _ => hm, fun _ => hidx⟩

/-- The runner after `heap.Push` of a registered item outside the heap, with a new deadline. -/
theorem Wf.push (hw : t.Wf) (ha : t.alarmList a = true) (hm : a ∉ t.alarmHeap.items) (d : Int) :
    Wf { t with alarmHeap := Push heapInterface (t.alarmHeap.setDeadline a d) a } where
  valid := (hw.valid.setDeadline hm d).heapPush hm
  registered b hb := by
    rcases (heapPush_pushed (hw.valid.indexed.setDeadline a d) hm).mem_iff.mp hb with hb | rfl
    · exact hw.registered b hb
    · exact ha
  unheaped b hb hbn := by
    have hp := heapPush_pushed (hw.valid.indexed.setDeadline a d) hm
    have hbn' : b ∉ t.alarmHeap.items := fun h => hbn (hp.mem_iff.mpr (.inl h))
    have hba : b ≠ a := fun he => hbn (hp.mem_iff.mpr (.inr he))
    simp only
    rw [hp.item_of_not_mem b hbn' hba, setDeadline_item, if_neg hba]
    exact hw.unheaped b hb hbn'

/-- The runner after `heap.Fix` at the index of an item with a new deadline. -/
theorem Wf.fix (hw : t.Wf) (hi : t.alarmHeap.items[i]? = some a) (d : Int) :
    Wf { t with alarmHeap := Fix heapInterface (t.alarmHeap.setDeadline a d) i } := by
  have hi' : i < (t.alarmHeap.setDeadline a d).items.size := by
    rw [setDeadline_items]
    exact (Array.getElem?_eq_some_iff.mp hi).1
  have hp := heapFix_permuted (hw.valid.indexed.setDeadline a d) hi'
  refine ⟨hw.valid.heapFix_setDeadline hi d, fun b hb => hw.registered b (hp.mem_iff.mp hb), ?_⟩
  intro b hb hbn
  have hbn' : b ∉ t.alarmHeap.items := fun h => hbn (hp.mem_iff.mpr h)
  have hba : b ≠ a := fun he => hbn' (he ▸ Array.mem_iff_getElem?.mpr ⟨i, hi⟩)
  simp only
  rw [hp.item_of_not_mem b hbn', setDeadline_item, if_neg hba]
  exact hw.unheaped b hb hbn'

/-- The runner after a heap call that took one handle out. -/
theorem Wf.removed (hw : t.Wf) {ht' : AlarmHeap} {r : Nat} (hr : Removed t.alarmHeap ht' r)
    (hv : ht'.Valid) : Wf { t with alarmHeap := ht' } where
  valid := hv
  registered b hb := hw.registered b (hr.mem_iff.mpr (.inr hb))
  unheaped b hb hbn := by
    by_cases hbr : b = r
    · rw [hbr]
      exact hr.heapIdx_removed
    · have hbn' : b ∉ t.alarmHeap.items := fun h => (hr.mem_iff.mp h).elim hbr hbn
      simp only
      rw [hr.item_of_not_mem b hbn']
      exact hw.unheaped b hb hbn'

theorem Wf.remove (hw : t.Wf) (hi : i < t.alarmHeap.items.size) :
    Wf { t with alarmHeap := (Remove heapInterface t.alarmHeap i).1 } :=
  hw.removed (heapRemove_removed hw.valid.indexed hi).2 (hw.valid.heapRemove hi)

/-- What `RunAlarm` does on a runner that keeps the invariant: `heap.Fix` at the item's index,
or `heap.Push` of an item outside the heap, and then the test of the top. -/
theorem Wf.RunAlarm_cases (hw : t.Wf) {d : Int} (h : t.RunAlarm a d = some t') :
    t.alarmList a = true ∧
      ((∃ i, t.alarmHeap.items[i]? = some a ∧ t' = TaskRunner.resetTimerIfTopMoved
          { t with alarmHeap := Fix heapInterface (t.alarmHeap.setDeadline a d) i }) ∨
        (a ∉ t.alarmHeap.items ∧ t' = TaskRunner.resetTimerIfTopMoved
          { t with alarmHeap := Push heapInterface (t.alarmHeap.setDeadline a d) a })) := by
  unfold TaskRunner.RunAlarm at h
  split at h
  · next ha =>
    obtain rfl := Option.some.inj h
    refine ⟨ha, ?_⟩
    rcases hw.heapIdx_cases ha with ⟨i, hi, hidx⟩ | ⟨hm, hidx⟩
    · -- the item is at index `i`: `heap.Fix` there
      have hidx' : ((t.alarmHeap.setDeadline a d).item a).heapIdx = i := by
        rw [setDeadline_item, if_pos rfl]
        exact hidx
      simp only [hidx', Int.toNat_natCast]
      rw [if_neg (by omega)]
      exact .inl ⟨i, hi, rfl⟩
    · -- the item is outside the heap: `heap.Push`
      have hidx' : ((t.alarmHeap.setDeadline a d).item a).heapIdx = -1 := by
        rw [setDeadline_item, if_pos rfl]
        exact hidx
      simp only [hidx']
      rw [if_pos (by omega)]
      exact .inr ⟨hm, rfl⟩
  · cases h

theorem Wf.RunAlarm (hw : t.Wf) {d : Int} (h : t.RunAlarm a d = some t') : t'.Wf := by
  obtain ⟨ha, ⟨i, hi, rfl⟩ | ⟨hm, rfl⟩⟩ := hw.RunAlarm_cases h
  · exact (hw.fix hi d).resetTimerIfTopMoved
  · exact (hw.push ha hm d).resetTimerIfTopMoved

/-- `RunAlarm` puts its alarm in the heap and moves no other in or out. -/
theorem Wf.mem_RunAlarm (hw : t.Wf) {d : Int} (h : t.RunAlarm a d = some t') (b : Nat) :
    b ∈ t'.alarmHeap.items ↔ b ∈ t.alarmHeap.items ∨ b = a := by
  obtain ⟨-, ⟨i, hi, rfl⟩ | ⟨hm, rfl⟩⟩ := hw.RunAlarm_cases h
  · have hi' : i < (t.alarmHeap.setDeadline a d).items.size :=
      (Array.getElem?_eq_some_iff.mp hi).1
    rw [resetTimerIfTopMoved_alarmHeap,
      (heapFix_permuted (hw.valid.indexed.setDeadline a d) hi').mem_iff, setDeadline_items]
    constructor
    · exact .inl
    · rintro (hb | rfl)
      · exact hb
      · exact Array.mem_iff_getElem?.mpr ⟨i, hi⟩
  · rw [resetTimerIfTopMoved_alarmHeap,
      (heapPush_pushed (hw.valid.indexed.setDeadline a d) hm).mem_iff, setDeadline_items]

theorem RunAlarm_alarmList {d : Int} (h : t.RunAlarm a d = some t') :
    t'.alarmList = t.alarmList := by
  obtain ⟨-, ht, rfl⟩ := RunAlarm_eq_some h
  rw [resetTimerIfTopMoved_alarmList]

/-- What `CancelAlarm` does on a runner that keeps the invariant: `heap.Remove` at the item's
index, or nothing but the test of the top. -/
theorem Wf.CancelAlarm_cases (hw : t.Wf) (h : t.CancelAlarm a = some t') :
    t.alarmList a = true ∧
      ((∃ i, t.alarmHeap.items[i]? = some a ∧ t' = TaskRunner.resetTimerIfTopMoved
          { t with alarmHeap := (Remove heapInterface t.alarmHeap i).1 }) ∨
        (a ∉ t.alarmHeap.items ∧ t' = t.resetTimerIfTopMoved)) := by
  unfold TaskRunner.CancelAlarm at h
  split at h
  · next ha =>
    obtain rfl := Option.some.inj h
    refine ⟨ha, ?_⟩
    rcases hw.heapIdx_cases ha with ⟨i, hi, hidx⟩ | ⟨hm, hidx⟩
    · simp only [hidx, Int.toNat_natCast]
      rw [if_pos (by omega)]
      exact .inl ⟨i, hi, rfl⟩
    · simp only [hidx]
      rw [if_neg (by omega)]
      exact .inr ⟨hm, rfl⟩
  · cases h

/-- `CancelAlarm` takes its alarm out of the heap and moves no other in or out. -/
theorem Wf.mem_CancelAlarm (hw : t.Wf) (h : t.CancelAlarm a = some t') (b : Nat) :
    b ∈ t'.alarmHeap.items ↔ b ∈ t.alarmHeap.items ∧ b ≠ a := by
  obtain ⟨-, ⟨i, hi, rfl⟩ | ⟨hm, rfl⟩⟩ := hw.CancelAlarm_cases h
  · obtain ⟨hi', hia⟩ := Array.getElem?_eq_some_iff.mp hi
    have hr := (heapRemove_removed hw.valid.indexed hi').2
    rw [resetTimerIfTopMoved_alarmHeap]
    rw [hia] at hr
    constructor
    · intro hb
      exact ⟨hr.mem_iff.mpr (.inr hb), fun he => hr.not_mem hw.valid.indexed (he ▸ hb)⟩
    · rintro ⟨hb, hba⟩
      exact (hr.mem_iff.mp hb).resolve_left hba
  · rw [resetTimerIfTopMoved_alarmHeap]
    constructor
    · intro hb
      exact ⟨hb, fun he => hm (he ▸ hb)⟩
    · exact And.left

theorem CancelAlarm_alarmList (h : t.CancelAlarm a = some t') : t'.alarmList = t.alarmList := by
  obtain ⟨-, ht, rfl⟩ := CancelAlarm_eq_some h
  rw [resetTimerIfTopMoved_alarmList]

/-- `CancelAlarm` keeps the invariant, leaves the alarm outside the heap and keeps
`alarmList`. -/
theorem Wf.CancelAlarm (hw : t.Wf) (h : t.CancelAlarm a = some t') :
    t'.Wf ∧ a ∉ t'.alarmHeap.items ∧ t'.alarmList = t.alarmList := by
  refine ⟨?_, fun ha => ((hw.mem_CancelAlarm h a).mp ha).2 rfl, CancelAlarm_alarmList h⟩
  obtain ⟨-, ⟨i, hi, rfl⟩ | ⟨-, rfl⟩⟩ := hw.CancelAlarm_cases h
  · exact (hw.remove (Array.getElem?_eq_some_iff.mp hi).1).resetTimerIfTopMoved
  · exact hw.resetTimerIfTopMoved

theorem Wf.RegisterAlarm (hw : t.Wf) (hfresh : t.alarmList a = false) : (t.RegisterAlarm a).Wf := by
  have hm : a ∉ t.alarmHeap.items := fun h => by simp [hw.registered a h] at hfresh
  refine ⟨hw.valid.update hm newItem, fun b hb => ?_, fun b hb hbn => ?_⟩
  · have hba : b ≠ a := fun he => hm (he ▸ hb)
    simp only [TaskRunner.RegisterAlarm, Function.update_of_ne hba]
    exact hw.registered b hb
  · simp only [TaskRunner.RegisterAlarm, Function.update_apply] at hb hbn ⊢
    split
    · rfl
    · next hba =>
      rw [if_neg hba] at hb
      exact hw.unheaped b hb hbn

/-- What `UnregisterAlarm` does on a runner that keeps the invariant: the runner `u` after the
cancel, or as it was when the item is outside the heap, with the alarm then dropped from
`alarmList`. -/
theorem Wf.UnregisterAlarm_cases (hw : t.Wf) (h : t.UnregisterAlarm a = some t') :
    ∃ u : TaskRunner, u.Wf ∧ (∀ b, b ∈ u.alarmHeap.items ↔ b ∈ t.alarmHeap.items ∧ b ≠ a) ∧
      u.alarmList = t.alarmList ∧
      t' = { u with alarmList := Function.update u.alarmList a false } := by
  unfold TaskRunner.UnregisterAlarm at h
  split at h
  · obtain ⟨u, hcu, rfl⟩ := Option.map_eq_some_iff.mp h
    refine ⟨u, ?_, ?_, ?_, rfl⟩ <;> split at hcu
    · exact (hw.CancelAlarm hcu).1
    · obtain rfl := Option.some.inj hcu
      exact hw
    · exact hw.mem_CancelAlarm hcu
    · next hidx =>
      -- `heapIdx = -1`, so the item is not in the heap
      obtain rfl := Option.some.inj hcu
      intro b
      constructor
      · intro hb
        refine ⟨hb, fun hba => ?_⟩
        obtain ⟨i, hi⟩ := Array.mem_iff_getElem?.mp hb
        have := hw.valid.indexed.heapIdx i b hi
        rw [hba] at this
        omega
      · exact And.left
    · exact CancelAlarm_alarmList hcu
    · obtain rfl := Option.some.inj hcu
      rfl
  · cases h

theorem Wf.UnregisterAlarm (hw : t.Wf) (h : t.UnregisterAlarm a = some t') : t'.Wf := by
  obtain ⟨u, hu, hmem, -, rfl⟩ := hw.UnregisterAlarm_cases h
  have hm : a ∉ u.alarmHeap.items := fun ha => ((hmem a).mp ha).2 rfl
  refine ⟨hu.valid, fun b hb => ?_, fun b hb hbn => ?_⟩
  · have hba : b ≠ a := fun he => hm (he ▸ hb)
    simp only [Function.update_of_ne hba]
    exact hu.registered b hb
  · have hba : b ≠ a := by
      rintro rfl
      simp at hb
    simp only [Function.update_of_ne hba] at hb
    exact hu.unheaped b hb hbn

end TaskRunner

end GoQuic
