import GoQuic.TaskRunner.Runner
import Mathlib.Data.List.Nodup

/-!
# The batch of `DoTasks`

The first loop of `TaskRunner.DoTasks` (`task_runner.go:136–145`) pops the heap while its root
is overdue. Its stopping test reads the root only, and the heap order makes that enough: the
root has the least key, so once it is not overdue no item is. The batch comes out ascending in
`(deadline, insertOrd)`, strictly so because a valid heap's insertion orders are distinct.

The test `deadline - now < 0` subtracts `int64`s, which wraps; it agrees with `deadline < now`
where the difference fits (`NoOverflow`), and the batch is the overdue items there
(`popOverdue_batch`).
-/

namespace GoQuic

open ContainerHeap

/-- Go's `int64` subtraction `x - y` does not wrap: the difference fits in 64 bits. Deadlines and
clock readings are `QuicTime` microseconds (`go_quic_alarm_go_wrapper.h:38–40`), never negative,
so their difference always fits. -/
def NoOverflow (x y : Int) : Prop := -2 ^ 63 ≤ x - y ∧ x - y < 2 ^ 63

instance (x y : Int) : Decidable (NoOverflow x y) := inferInstanceAs (Decidable (_ ∧ _))

/-- Where it does not wrap, Go's `int64` subtraction is the difference of the integers. -/
theorem toInt_sub_toInt64 {x y : Int} (h : NoOverflow x y) :
    (x.toInt64 - y.toInt64).toInt = x - y := by
  show (Int64.ofInt x - Int64.ofInt y).toInt = x - y
  rw [Int64.toInt_sub, Int64.toInt_ofInt, Int64.toInt_ofInt, Int64.size, ← Int.sub_bmod]
  exact Int.bmod_eq_of_le (by have := h.1; push_cast; omega) (by have := h.2; push_cast; omega)

namespace AlarmHeap

variable {ht : AlarmHeap}

/-- The key `Less` compares, read at a handle rather than at an index. -/
def itemKey (ht : AlarmHeap) (a : Nat) : Int ×ₗ Int :=
  toLex ((ht.item a).deadline, (ht.item a).insertOrd)

theorem key_eq_itemKey (ht : AlarmHeap) {i : Nat} (hi : i < ht.items.size) :
    ht.key i = ht.itemKey ht.items[i] := by
  simp only [key, itemKey, itemAt, Array.getD_eq_getD_getElem?, Array.getElem?_eq_getElem hi,
    Option.getD_some]

/-- An item's deadline is the first component of its key. -/
theorem deadline_le_of_itemKey_le {ht' : AlarmHeap} {a b : Nat}
    (h : ht.itemKey a ≤ ht'.itemKey b) : (ht.item a).deadline ≤ (ht'.item b).deadline := by
  rcases Prod.Lex.toLex_le_toLex.mp h with h | ⟨h, -⟩
  · exact le_of_lt h
  · exact le_of_eq h

/-- Distinct handles of a valid heap have distinct insertion orders. -/
theorem Valid.insertOrd_inj (hv : ht.Valid) {a b : Nat} (ha : a ∈ ht.items) (hb : b ∈ ht.items)
    (h : (ht.item a).insertOrd = (ht.item b).insertOrd) : a = b :=
  List.inj_on_of_nodup_map hv.insertOrds_nodup (Array.mem_toList_iff.mpr ha)
    (Array.mem_toList_iff.mpr hb) h

/-- In a valid heap the root's key is below the key of every other item. -/
theorem Valid.root_lt (hv : ht.Valid) (hpos : 0 < ht.items.size) {b : Nat} (hb : b ∈ ht.items)
    (hne : b ≠ ht.items[0]) : ht.itemKey ht.items[0] < ht.itemKey b := by
  obtain ⟨j, hj⟩ := Array.mem_iff_getElem?.mp hb
  obtain ⟨hjn, hjb⟩ := Array.getElem?_eq_some_iff.mp hj
  have hle := hv.ordered.root_le j hjn
  rw [key_eq_itemKey ht hpos, key_eq_itemKey ht hjn, hjb] at hle
  refine lt_of_le_of_ne hle fun he => hne ?_
  have ho : (ht.item ht.items[0]).insertOrd = (ht.item b).insertOrd :=
    congrArg (fun k => (ofLex k).2) he
  exact (hv.insertOrd_inj (Array.getElem_mem hpos) hb ho).symm

/-- The first loop of `TaskRunner.DoTasks` (`task_runner.go:136–145`): pop while the root is
overdue, and return the popped items in the order they came out. The test is Go's
`t.alarmHeap.items[0].deadline - now < 0` on `int64`s, whose subtraction wraps. -/
def popOverdue (ht : AlarmHeap) (now : Int) : AlarmHeap × List Nat :=
  if 0 < ht.Len then
    if ((ht.itemAt 0).deadline.toInt64 - now.toInt64).toInt < 0 then
      let r := ContainerHeap.Pop heapInterface ht
      let rest := popOverdue r.1 now
      (rest.1, r.2 :: rest.2)
    else (ht, [])
  else (ht, [])
termination_by ht.items.size
decreasing_by
  have hpos : 0 < ht.items.size := ‹0 < ht.Len›
  rw [size_heapPop ht hpos]
  omega

/-- What the first loop of `DoTasks` leaves: the heap's items split into the batch and the rest;
each batch item overdue by Go's test, and the loop stopped at a root that is not; the batch
strictly ascending and the rest a valid heap; every deadline and insertion order as before, every
batch item marked absent, and every other item as before. -/
structure PoppedOverdue (ht : AlarmHeap) (now : Int) (ht' : AlarmHeap) (batch : List Nat) :
    Prop where
  perm : ht.items.toList.Perm (batch ++ ht'.items.toList)
  overdue : ∀ a ∈ batch, ((ht.item a).deadline.toInt64 - now.toInt64).toInt < 0
  stopped : 0 < ht'.items.size → ¬((ht'.itemAt 0).deadline.toInt64 - now.toInt64).toInt < 0
  sorted : batch.Pairwise fun a b => ht.itemKey a < ht.itemKey b
  valid : ht'.Valid
  deadline : ∀ a, (ht'.item a).deadline = (ht.item a).deadline
  insertOrd : ∀ a, (ht'.item a).insertOrd = (ht.item a).insertOrd
  heapIdx_batch : ∀ a ∈ batch, (ht'.item a).heapIdx = -1
  item_of_not_mem : ∀ b, b ∉ ht.items → ht'.item b = ht.item b
  insertNum : ht'.insertNum = ht.insertNum

theorem PoppedOverdue.mem_iff {ht' : AlarmHeap} {now : Int} {batch : List Nat}
    (hp : PoppedOverdue ht now ht' batch) (b : Nat) :
    b ∈ ht.items ↔ b ∈ batch ∨ b ∈ ht'.items := by
  have h : b ∈ ht.items.toList ↔ b ∈ batch ++ ht'.items.toList := hp.perm.mem_iff
  simp only [List.mem_append, Array.mem_toList_iff] at h
  exact h

/-- The loop stops at once on a root that is not overdue. -/
theorem poppedOverdue_stop (hv : ht.Valid) {now : Int}
    (hroot : 0 < ht.items.size → ¬((ht.itemAt 0).deadline.toInt64 - now.toInt64).toInt < 0) :
    PoppedOverdue ht now ht [] where
  perm := by rw [List.nil_append]
  overdue _ h := absurd h List.not_mem_nil
  stopped := hroot
  sorted := List.Pairwise.nil
  valid := hv
  deadline _ := rfl
  insertOrd _ := rfl
  heapIdx_batch _ h := absurd h List.not_mem_nil
  item_of_not_mem _ _ := rfl
  insertNum := rfl

/-- Popping takes nothing from the keys of the items that stay. -/
theorem itemKey_removed {ht' : AlarmHeap} {r : Nat} (hr : Removed ht ht' r) :
    ht'.itemKey = ht.itemKey := by
  funext a
  rw [itemKey, itemKey, hr.deadline, hr.insertOrd]

/-- One turn of the loop: the overdue root comes out first, and the rest of the batch is what
the loop makes of the popped heap. -/
theorem poppedOverdue_pop (hv : ht.Valid) (hpos : 0 < ht.items.size) {now : Int}
    (hroot : ((ht.itemAt 0).deadline.toInt64 - now.toInt64).toInt < 0) {ht' : AlarmHeap}
    {batch : List Nat}
    (hrest : PoppedOverdue (ContainerHeap.Pop heapInterface ht).1 now ht' batch) :
    PoppedOverdue ht now ht' ((ContainerHeap.Pop heapInterface ht).2 :: batch) := by
  obtain ⟨hr2, hr⟩ := heapPop_removed hv.indexed hpos
  rw [hr2]
  have hroot' : ((ht.item ht.items[0]).deadline.toInt64 - now.toInt64).toInt < 0 := by
    rwa [itemAt, Array.getD_eq_getD_getElem?, Array.getElem?_eq_getElem hpos,
      Option.getD_some] at hroot
  have hnm := hr.not_mem hv.indexed
  -- every item of the rest of the batch was in the popped heap
  have hmem : ∀ b ∈ batch, b ∈ (ContainerHeap.Pop heapInterface ht).1.items := fun b hb => by
    rw [← Array.mem_toList_iff, hrest.perm.mem_iff]
    exact List.mem_append_left _ hb
  constructor
  · exact hr.perm.trans (hrest.perm.cons _)
  · intro a ha
    cases ha with
    | head => exact hroot'
    | tail _ ha =>
      rw [← hr.deadline a]
      exact hrest.overdue a ha
  · exact hrest.stopped
  · apply List.Pairwise.cons
    · intro b hb
      have hbr : b ≠ ht.items[0] := fun he => hnm (he ▸ hmem b hb)
      exact hv.root_lt hpos (hr.mem_iff.mpr (.inr (hmem b hb))) hbr
    · rw [← itemKey_removed hr]
      exact hrest.sorted
  · exact hrest.valid
  · intro a
    rw [hrest.deadline, hr.deadline]
  · intro a
    rw [hrest.insertOrd, hr.insertOrd]
  · intro a ha
    cases ha with
    | head =>
      rw [hrest.item_of_not_mem _ hnm]
      exact hr.heapIdx_removed
    | tail _ ha => exact hrest.heapIdx_batch a ha
  · intro b hb
    have hb' : b ∉ (ContainerHeap.Pop heapInterface ht).1.items :=
      fun h => hb (hr.mem_iff.mpr (.inr h))
    rw [hrest.item_of_not_mem b hb', hr.item_of_not_mem b hb]
  · rw [hrest.insertNum, hr.insertNum]

/-- The whole first loop of `DoTasks`, by induction on its recursion. -/
theorem popOverdue_poppedOverdue (hv : ht.Valid) (now : Int) :
    PoppedOverdue ht now (popOverdue ht now).1 (popOverdue ht now).2 := by
  induction ht using popOverdue.induct now with
  | case1 ht hpos hroot r ih =>
    rw [popOverdue, if_pos hpos, if_pos hroot]
    exact poppedOverdue_pop hv hpos hroot (ih (hv.heapPop hpos))
  | case2 ht hpos hroot =>
    rw [popOverdue, if_pos hpos, if_neg hroot]
    exact poppedOverdue_stop hv fun _ => hroot
  | case3 ht hpos =>
    rw [popOverdue, if_neg hpos]
    exact poppedOverdue_stop hv fun h => absurd h hpos

section NoOverflow

variable {ht' : AlarmHeap} {now : Int} {batch : List Nat}
  (hno : ∀ a ∈ ht.items, NoOverflow (ht.item a).deadline now)
include hno

/-- Where no subtraction wraps, every batch item's deadline is before `now`. -/
theorem PoppedOverdue.lt_of_mem (hp : PoppedOverdue ht now ht' batch) {a : Nat} (ha : a ∈ batch) :
    (ht.item a).deadline < now := by
  have hs := hp.overdue a ha
  rwa [toInt_sub_toInt64 (hno a ((hp.mem_iff a).mpr (.inl ha))), sub_neg] at hs

/-- Where no subtraction wraps, the root the loop stopped at is not overdue, and the heap order
puts every other item that stays at or after it. -/
theorem PoppedOverdue.le_of_mem (hp : PoppedOverdue ht now ht' batch) {a : Nat}
    (ha : a ∈ ht'.items) : now ≤ (ht.item a).deadline := by
  have hpos : 0 < ht'.items.size := Array.size_pos_of_mem ha
  have hroot : (ht'.itemAt 0).deadline = (ht.item ht'.items[0]).deadline := by
    rw [itemAt, Array.getD_eq_getD_getElem?, Array.getElem?_eq_getElem hpos, Option.getD_some,
      hp.deadline]
  have hr := hp.stopped hpos
  rw [hroot, toInt_sub_toInt64 (hno _ ((hp.mem_iff _).mpr (.inr (Array.getElem_mem hpos)))),
    sub_neg, not_lt] at hr
  have hle : (ht.item ht'.items[0]).deadline ≤ (ht.item a).deadline := by
    by_cases hb : a = ht'.items[0]
    · rw [hb]
    · have := deadline_le_of_itemKey_le (hp.valid.root_lt hpos ha hb).le
      rwa [hp.deadline, hp.deadline] at this
  exact le_trans hr hle

end NoOverflow

/-- The first loop of `DoTasks` on a valid heap, at the clock reading `now` it starts with, where
no `deadline - now` wraps: the batch is exactly the items with `deadline < now`, in strictly
ascending `(deadline, insertOrd)`; the heap keeps exactly the other items, and no deadline
changes. -/
theorem popOverdue_batch (hv : ht.Valid) {now : Int}
    (hno : ∀ a ∈ ht.items, NoOverflow (ht.item a).deadline now) :
    let r := popOverdue ht now
    (∀ a, a ∈ r.2 ↔ a ∈ ht.items ∧ (ht.item a).deadline < now) ∧
    (∀ a, a ∈ r.1.items ↔ a ∈ ht.items ∧ now ≤ (ht.item a).deadline) ∧
    r.2.Pairwise (fun a b => ht.itemKey a < ht.itemKey b) ∧
    ht.items.toList.Perm (r.2 ++ r.1.items.toList) ∧
    ∀ a, (r.1.item a).deadline = (ht.item a).deadline := by
  have hp := popOverdue_poppedOverdue hv now
  have hmem := hp.mem_iff
  refine ⟨fun a => ⟨fun ha => ⟨(hmem a).mpr (.inl ha), hp.lt_of_mem hno ha⟩, ?_⟩,
    fun a => ⟨fun ha => ⟨(hmem a).mpr (.inr ha), hp.le_of_mem hno ha⟩, ?_⟩,
    hp.sorted, hp.perm, hp.deadline⟩
  · rintro ⟨ha, hd⟩
    rcases (hmem a).mp ha with hb | hl
    · exact hb
    · exact absurd (hp.le_of_mem hno hl) (not_le.mpr hd)
  · rintro ⟨ha, hd⟩
    rcases (hmem a).mp ha with hb | hl
    · exact absurd (hp.lt_of_mem hno hb) (not_lt.mpr hd)
    · exact hl

end AlarmHeap

namespace TaskRunner

open AlarmHeap

variable {t t' : TaskRunner} {now : Int} {items : List Nat}

/-- `TaskRunner.DoTasks` up to its callbacks (`task_runner.go:128–145`): `none` when it returns
at once on an empty heap, otherwise the runner after the first loop and the batch. -/
def popTasks (t : TaskRunner) (now : Int) : Option (TaskRunner × List Nat) :=
  if t.alarmHeap.Len = 0 then none
  else
    let r := popOverdue t.alarmHeap now
    some ({ t with alarmHeap := r.1 }, r.2)

theorem popTasks_eq_some (h : t.popTasks now = some (t', items)) :
    0 < t.alarmHeap.items.size ∧ t' = { t with alarmHeap := (popOverdue t.alarmHeap now).1 } ∧
      items = (popOverdue t.alarmHeap now).2 := by
  unfold popTasks at h
  split at h
  · cases h
  · next hlen =>
    obtain ⟨rfl, rfl⟩ := Prod.mk.inj (Option.some.inj h)
    exact ⟨Nat.pos_of_ne_zero hlen, rfl, rfl⟩

/-- The first loop of `DoTasks` keeps the runner's invariant: a popped item is marked absent. -/
theorem Wf.popOverdue (hw : t.Wf) (now : Int) :
    Wf { t with alarmHeap := (popOverdue t.alarmHeap now).1 } := by
  have hp := popOverdue_poppedOverdue hw.valid now
  refine ⟨hp.valid, fun b hb => hw.registered b ((hp.mem_iff b).mpr (.inr hb)), ?_⟩
  intro b hb hbn
  by_cases hbb : b ∈ (AlarmHeap.popOverdue t.alarmHeap now).2
  · exact hp.heapIdx_batch b hbb
  · have hbt : b ∉ t.alarmHeap.items := fun h => ((hp.mem_iff b).mp h).elim hbb hbn
    simp only
    rw [hp.item_of_not_mem b hbt]
    exact hw.unheaped b hb hbt

end TaskRunner

end GoQuic
