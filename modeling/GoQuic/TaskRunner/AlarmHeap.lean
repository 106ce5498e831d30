import GoQuic.Heap.Order
import Mathlib.Data.Prod.Lex

/-!
# The alarm heap

`HeapItem` and `AlarmHeap` of `task_runner.go:11–27` with the five methods of
`task_runner.go:39–70`, as an implementation of `heap.Interface`. The heap holds pointers to
`HeapItem` objects that `TaskRunner.alarmList` shares. Every alarm owns exactly one item,
allocated when it registers, so the model addresses an item by the handle of its alarm:
`items` is an array of handles and `item` holds the objects.

`Less` is the lexicographic order on `(deadline, insertOrd)`, so the heap is `Keyed` over
`Int ×ₗ Int`; `Indexed` is the back-pointer invariant that `Swap`, `Push` and `Pop` maintain.
-/

namespace GoQuic

open ContainerHeap

/-- `HeapItem` (`task_runner.go:11–22`): the heap's copy of its alarm's deadline, its index in
`items` (negative when it is not there) and the order in which it was last pushed. -/
@[ext] structure HeapItem where
  deadline : Int
  heapIdx : Int
  insertOrd : Int
  deriving DecidableEq, Repr

/-- `AlarmHeap` (`task_runner.go:24–27`) with the `HeapItem` objects it points to. -/
structure AlarmHeap where
  items : Array Nat
  insertNum : Int
  item : Nat → HeapItem

namespace AlarmHeap

/-- `newAlarmHeap` (`task_runner.go:72–74`), over the items already allocated. -/
def new (item : Nat → HeapItem) : AlarmHeap := ⟨#[], 0, item⟩

/-- `AlarmHeap.Len` (`task_runner.go:39`). -/
def Len (ht : AlarmHeap) : Nat := ht.items.size

/-- The item that index `i` of `items` points to. -/
def itemAt (ht : AlarmHeap) (i : Nat) : HeapItem := ht.item (ht.items.getD i 0)

/-- `AlarmHeap.Less` (`task_runner.go:41–46`): the earlier deadline, ties broken by the earlier
insertion. -/
def Less (ht : AlarmHeap) (i j : Nat) : Bool :=
  if (ht.itemAt i).deadline = (ht.itemAt j).deadline then
    decide ((ht.itemAt i).insertOrd < (ht.itemAt j).insertOrd)
  else decide ((ht.itemAt i).deadline < (ht.itemAt j).deadline)

/-- Write `heapIdx` of the item of handle `a`. -/
def setHeapIdx (ht : AlarmHeap) (a : Nat) (idx : Int) : AlarmHeap :=
  { ht with item := Function.update ht.item a { ht.item a with heapIdx := idx } }

/-- `AlarmHeap.Swap` (`task_runner.go:48–52`): exchange two handles, then let each of the two
items record its new index. -/
def Swap (ht : AlarmHeap) (i j : Nat) : AlarmHeap :=
  let ht := { ht with items := ht.items.swapIfInBounds i j }
  let ht := ht.setHeapIdx (ht.items.getD i 0) i
  ht.setHeapIdx (ht.items.getD j 0) j

/-- `AlarmHeap.Push` (`task_runner.go:54–61`): the item records the index it is appended at and
a fresh insertion order. -/
def Push (ht : AlarmHeap) (x : Nat) : AlarmHeap :=
  let n := ht.items.size
  let ht := ht.setHeapIdx x n
  let insertNum := ht.insertNum + 1
  { items := ht.items.push x
    insertNum := insertNum
    item := Function.update ht.item x { ht.item x with insertOrd := insertNum } }

/-- `AlarmHeap.Pop` (`task_runner.go:63–70`): drop the last handle and mark its item absent.
`heap.Pop` never pops an empty heap, where Go would panic. -/
def Pop (ht : AlarmHeap) : AlarmHeap × Nat :=
  match ht.items.back? with
  | some x => ({ ht.setHeapIdx x (-1) with items := ht.items.pop }, x)
  | none => (ht, 0)

/-- `*AlarmHeap` as a `heap.Interface`. -/
def heapInterface : Interface AlarmHeap Nat := ⟨Len, Less, Swap, Push, Pop⟩

/-! ### Field lemmas -/

@[simp] theorem heapInterface_Len : heapInterface.Len = Len := rfl
@[simp] theorem heapInterface_Less : heapInterface.Less = Less := rfl
@[simp] theorem heapInterface_Swap : heapInterface.Swap = Swap := rfl
@[simp] theorem heapInterface_Push : heapInterface.Push = Push := rfl
@[simp] theorem heapInterface_Pop : heapInterface.Pop = Pop := rfl

@[simp] theorem setHeapIdx_items (ht : AlarmHeap) (a : Nat) (idx : Int) :
    (ht.setHeapIdx a idx).items = ht.items := rfl

@[simp] theorem setHeapIdx_insertNum (ht : AlarmHeap) (a : Nat) (idx : Int) :
    (ht.setHeapIdx a idx).insertNum = ht.insertNum := rfl

theorem setHeapIdx_item (ht : AlarmHeap) (a b : Nat) (idx : Int) :
    (ht.setHeapIdx a idx).item b =
      if b = a then { ht.item a with heapIdx := idx } else ht.item b := by
  simp only [setHeapIdx, Function.update_apply]

@[simp] theorem deadline_setHeapIdx (ht : AlarmHeap) (a b : Nat) (idx : Int) :
    ((ht.setHeapIdx a idx).item b).deadline = (ht.item b).deadline := by
  rw [setHeapIdx_item]
  split <;> simp_all

@[simp] theorem insertOrd_setHeapIdx (ht : AlarmHeap) (a b : Nat) (idx : Int) :
    ((ht.setHeapIdx a idx).item b).insertOrd = (ht.item b).insertOrd := by
  rw [setHeapIdx_item]
  split <;> simp_all

@[simp] theorem Swap_items (ht : AlarmHeap) (i j : Nat) :
    (ht.Swap i j).items = ht.items.swapIfInBounds i j := rfl

@[simp] theorem Swap_insertNum (ht : AlarmHeap) (i j : Nat) :
    (ht.Swap i j).insertNum = ht.insertNum := rfl

@[simp] theorem deadline_Swap (ht : AlarmHeap) (i j b : Nat) :
    ((ht.Swap i j).item b).deadline = (ht.item b).deadline := by
  simp [Swap]

@[simp] theorem insertOrd_Swap (ht : AlarmHeap) (i j b : Nat) :
    ((ht.Swap i j).item b).insertOrd = (ht.item b).insertOrd := by
  simp [Swap]

theorem Pop_of_back (ht : AlarmHeap) (x : Nat) (hx : ht.items.back? = some x) :
    ht.Pop = ({ ht.setHeapIdx x (-1) with items := ht.items.pop }, x) := by
  simp only [Pop, hx]

/-! ### `AlarmHeap` is a keyed `heap.Interface` -/

private theorem getElem?_swapIfInBounds {xs : Array Nat} {i j : Nat} (hi : i < xs.size)
    (hj : j < xs.size) (a : Nat) : (xs.swapIfInBounds i j)[a]? = xs[Equiv.swap i j a]? := by
  rw [Array.swapIfInBounds_def, dif_pos hi, dif_pos hj, Array.getElem?_swap,
    Equiv.swap_apply_def]
  by_cases hai : a = i
  · subst hai
    by_cases haj : j = a
    · subst haj
      simp
    · simp [haj, Array.getElem?_eq_getElem hj]
  · by_cases haj : j = a
    · subst haj
      simp [hai, Array.getElem?_eq_getElem hi]
    · simp [hai, Ne.symm hai, haj, Ne.symm haj]

/-- The key that `Less` compares: `(deadline, insertOrd)`, lexicographically. -/
def key (ht : AlarmHeap) (i : Nat) : Int ×ₗ Int :=
  toLex ((ht.itemAt i).deadline, (ht.itemAt i).insertOrd)

theorem Less_iff (ht : AlarmHeap) (i j : Nat) : ht.Less i j = true ↔ ht.key i < ht.key j := by
  simp only [Less, key, Prod.Lex.toLex_lt_toLex]
  split
  · next he => simp [he]
  · next he => simp [he]

theorem key_Swap (ht : AlarmHeap) {i j : Nat} (hi : i < ht.items.size) (hj : j < ht.items.size)
    (a : Nat) : (ht.Swap i j).key a = ht.key (Equiv.swap i j a) := by
  simp only [key, itemAt, Array.getD_eq_getD_getElem?, Swap_items, getElem?_swapIfInBounds hi hj,
    deadline_Swap, insertOrd_Swap]

theorem key_Pop (ht : AlarmHeap) (a : Nat) (ha : a + 1 < ht.items.size) :
    ht.Pop.1.key a = ht.key a := by
  have hb : ht.items.back? = some ht.items[ht.items.size - 1] := by
    rw [Array.back?_eq_getElem?, Array.getElem?_eq_getElem (by omega)]
  rw [Pop_of_back ht _ hb]
  simp only [key, itemAt, Array.getD_eq_getD_getElem?, Array.getElem?_pop, deadline_setHeapIdx,
    insertOrd_setHeapIdx, if_pos (show a < ht.items.size - 1 by omega)]

theorem Len_Pop (ht : AlarmHeap) (h : 0 < ht.items.size) :
    ht.Pop.1.items.size = ht.items.size - 1 := by
  have hb : ht.items.back? = some ht.items[ht.items.size - 1] := by
    rw [Array.back?_eq_getElem?, Array.getElem?_eq_getElem (by omega)]
  rw [Pop_of_back ht _ hb]
  simp

/-- The alarm heap satisfies the laws of a keyed `heap.Interface`. -/
def keyed : Keyed heapInterface (Int ×ₗ Int) where
  swap ht i j _ _ := by simp [heapInterface, Len]
  push ht x := by simp [heapInterface, Len, Push]
  pop ht h := Len_Pop ht h
  key := key
  less ht a b _ _ := Less_iff ht a b
  key_swap ht i j a hi hj := key_Swap ht hi hj a
  key_pop ht a ha := key_Pop ht a ha

/-! ### Back-pointers -/

/-- The back-pointer invariant: each handle occurs once in `items`, and the item at index `i`
records `heapIdx = i`. -/
structure Indexed (ht : AlarmHeap) : Prop where
  nodup : ht.items.toList.Nodup
  heapIdx : ∀ (i a : Nat), ht.items[i]? = some a → (ht.item a).heapIdx = i

/-- In an array without duplicates a handle occurs at one index only. -/
theorem index_unique {xs : Array Nat} (hnd : xs.toList.Nodup) {i j a : Nat}
    (hi : xs[i]? = some a) (hj : xs[j]? = some a) : i = j := by
  have hil : i < xs.toList.length := by
    simpa using (Array.getElem?_eq_some_iff.mp hi).1
  apply (List.getElem?_inj hil hnd).mp
  rw [Array.getElem?_toList, Array.getElem?_toList, hi, hj]

theorem Swap_perm (ht : AlarmHeap) (i j : Nat) :
    (ht.Swap i j).items.toList.Perm ht.items.toList := by
  rw [Swap_items, Array.swapIfInBounds_def]
  split
  · split
    · exact (Array.swap_perm ‹_› ‹_›).toList
    · exact List.Perm.refl _
  · exact List.Perm.refl _

theorem Swap_getElem? (ht : AlarmHeap) {i j : Nat} (hi : i < ht.items.size)
    (hj : j < ht.items.size) (k : Nat) :
    (ht.Swap i j).items[k]? = ht.items[Equiv.swap i j k]? := by
  rw [Swap_items, getElem?_swapIfInBounds hi hj]

theorem heapIdx_Swap (ht : AlarmHeap) (i j b : Nat) :
    ((ht.Swap i j).item b).heapIdx =
      if b = (ht.Swap i j).items.getD j 0 then (j : Int)
      else if b = (ht.Swap i j).items.getD i 0 then (i : Int) else (ht.item b).heapIdx := by
  simp only [Swap, setHeapIdx_item, setHeapIdx_items]
  split_ifs <;> simp_all

theorem getD_Swap_left (ht : AlarmHeap) {i j : Nat} (hi : i < ht.items.size)
    (hj : j < ht.items.size) : (ht.Swap i j).items.getD i 0 = ht.items[j] := by
  rw [Array.getD_eq_getD_getElem?, Swap_getElem? ht hi hj, Equiv.swap_apply_left,
    Array.getElem?_eq_getElem hj, Option.getD_some]

theorem getD_Swap_right (ht : AlarmHeap) {i j : Nat} (hi : i < ht.items.size)
    (hj : j < ht.items.size) : (ht.Swap i j).items.getD j 0 = ht.items[i] := by
  rw [Array.getD_eq_getD_getElem?, Swap_getElem? ht hi hj, Equiv.swap_apply_right,
    Array.getElem?_eq_getElem hi, Option.getD_some]

/-- An item outside `items` is untouched by a swap in range. -/
theorem Swap_item_of_not_mem (ht : AlarmHeap) {i j b : Nat} (hi : i < ht.items.size)
    (hj : j < ht.items.size) (hb : b ∉ ht.items) : (ht.Swap i j).item b = ht.item b := by
  have hgi : ht.items[i] ∈ ht.items := Array.getElem_mem hi
  have hgj : ht.items[j] ∈ ht.items := Array.getElem_mem hj
  ext
  · exact deadline_Swap ht i j b
  · rw [heapIdx_Swap, getD_Swap_left ht hi hj, getD_Swap_right ht hi hj,
      if_neg (fun he => hb (by rw [he]; exact hgi)), if_neg (fun he => hb (by rw [he]; exact hgj))]
  · exact insertOrd_Swap ht i j b

theorem Indexed.Swap {ht : AlarmHeap} (hx : ht.Indexed) {i j : Nat} (hi : i < ht.items.size)
    (hj : j < ht.items.size) : (ht.Swap i j).Indexed := by
  have hnd : (ht.Swap i j).items.toList.Nodup := (ht.Swap_perm i j).nodup_iff.mpr hx.nodup
  refine ⟨hnd, ?_⟩
  intro k a hk
  have hk' : ht.items[Equiv.swap i j k]? = some a := by rwa [← Swap_getElem? ht hi hj]
  have hsi : (ht.Swap i j).items[i]? = some ((ht.Swap i j).items.getD i 0) := by
    rw [getD_Swap_left ht hi hj, Swap_getElem? ht hi hj, Equiv.swap_apply_left,
      Array.getElem?_eq_getElem hj]
  have hsj : (ht.Swap i j).items[j]? = some ((ht.Swap i j).items.getD j 0) := by
    rw [getD_Swap_right ht hi hj, Swap_getElem? ht hi hj, Equiv.swap_apply_right,
      Array.getElem?_eq_getElem hi]
  rw [heapIdx_Swap]
  by_cases haj : a = (ht.Swap i j).items.getD j 0
  · rw [if_pos haj]
    subst haj
    exact congrArg Int.ofNat (index_unique hnd hsj hk)
  · rw [if_neg haj]
    by_cases hai : a = (ht.Swap i j).items.getD i 0
    · rw [if_pos hai]
      subst hai
      exact congrArg Int.ofNat (index_unique hnd hsi hk)
    · rw [if_neg hai]
      have hki : k ≠ i := by
        rintro rfl
        rw [hsi] at hk
        exact hai (Option.some.inj hk).symm
      have hkj : k ≠ j := by
        rintro rfl
        rw [hsj] at hk
        exact haj (Option.some.inj hk).symm
      rw [Equiv.swap_apply_of_ne_of_ne hki hkj] at hk'
      exact hx.heapIdx k a hk'

/-! ### What a chain of swaps keeps -/

section Swaps

variable {n : Nat} {ht ht' : AlarmHeap} (hs : Swaps heapInterface n ht ht')
include hs

theorem swaps_size : ht'.items.size = ht.items.size :=
  hs.stable (fun g => g.items.size = ht.items.size) (fun _ _ _ _ _ hg => by simp [hg]) rfl

theorem swaps_perm : ht'.items.toList.Perm ht.items.toList :=
  hs.stable (fun g => g.items.toList.Perm ht.items.toList)
    (fun g a b _ _ hg => by rw [heapInterface_Swap]; exact (g.Swap_perm a b).trans hg)
    (List.Perm.refl _)

theorem swaps_insertNum : ht'.insertNum = ht.insertNum :=
  hs.stable (fun g => g.insertNum = ht.insertNum) (fun _ _ _ _ _ hg => hg) rfl

theorem swaps_deadline (b : Nat) : (ht'.item b).deadline = (ht.item b).deadline :=
  hs.stable (fun g => (g.item b).deadline = (ht.item b).deadline)
    (fun _ _ _ _ _ hg => by rw [heapInterface_Swap, deadline_Swap, hg]) rfl

theorem swaps_insertOrd (b : Nat) : (ht'.item b).insertOrd = (ht.item b).insertOrd :=
  hs.stable (fun g => (g.item b).insertOrd = (ht.item b).insertOrd)
    (fun _ _ _ _ _ hg => by rw [heapInterface_Swap, insertOrd_Swap, hg]) rfl

/-- Indices at or beyond the swap bound keep their handles. -/
theorem swaps_getElem?_of_le (k : Nat) (hk : n ≤ k) : ht'.items[k]? = ht.items[k]? := by
  refine hs.stable (fun g => g.items.size = ht.items.size ∧ g.items[k]? = ht.items[k]?)
    (fun g a b ha hb hg => ?_) ⟨rfl, rfl⟩ |>.2
  rw [heapInterface_Swap]
  by_cases hn : n ≤ g.items.size
  · rw [Swap_getElem? g (by omega) (by omega),
      Equiv.swap_apply_of_ne_of_ne (by omega) (by omega)]
    exact ⟨by simp [hg.1], hg.2⟩
  · refine ⟨by simp [hg.1], ?_⟩
    rw [Swap_items, Array.swapIfInBounds_def]
    split
    · split
      · rw [Array.getElem?_swap]
        rw [if_neg (by omega), if_neg (by omega)]
        exact hg.2
      · exact hg.2
    · exact hg.2

end Swaps

theorem swaps_item_of_not_mem {n : Nat} {ht ht' : AlarmHeap} (hs : Swaps heapInterface n ht ht')
    (hn : n ≤ ht.items.size) {b : Nat} (hb : b ∉ ht.items) : ht'.item b = ht.item b := by
  refine (hs.stable (fun g => g.items.toList.Perm ht.items.toList ∧ g.item b = ht.item b)
    (fun g a c ha hc hg => ?_) ⟨List.Perm.refl _, rfl⟩).2
  have hsz : g.items.size = ht.items.size := by
    simpa using hg.1.length_eq
  have hbg : b ∉ g.items := by
    intro hm
    exact hb (by simpa using hg.1.mem_iff.mp (by simpa using hm))
  rw [heapInterface_Swap]
  exact ⟨(g.Swap_perm a c).trans hg.1,
    by rw [Swap_item_of_not_mem g (by omega) (by omega) hbg, hg.2]⟩

theorem swaps_indexed {n : Nat} {ht ht' : AlarmHeap} (hs : Swaps heapInterface n ht ht')
    (hn : n ≤ ht.items.size) (hx : ht.Indexed) : ht'.Indexed := by
  refine (hs.stable (fun g => g.items.size = ht.items.size ∧ g.Indexed)
    (fun g a c ha hc hg => ?_) ⟨rfl, hx⟩).2
  rw [heapInterface_Swap]
  exact ⟨by simp [hg.1], hg.2.Swap (by omega) (by omega)⟩

/-! ### `Push` and `Pop`, one call -/

@[simp] theorem Push_items (ht : AlarmHeap) (x : Nat) : (ht.Push x).items = ht.items.push x := rfl

@[simp] theorem Push_insertNum (ht : AlarmHeap) (x : Nat) :
    (ht.Push x).insertNum = ht.insertNum + 1 := rfl

theorem Push_item (ht : AlarmHeap) (x b : Nat) : (ht.Push x).item b =
    if b = x then { ht.item x with heapIdx := ht.items.size, insertOrd := ht.insertNum + 1 }
    else ht.item b := by
  by_cases hb : b = x
  · subst hb
    simp [Push, setHeapIdx]
  · simp [Push, setHeapIdx, hb]

theorem Indexed.Push {ht : AlarmHeap} (hx : ht.Indexed) {x : Nat} (hxn : x ∉ ht.items) :
    (ht.Push x).Indexed := by
  constructor
  · simp only [Push_items, Array.toList_push, List.nodup_append, List.nodup_cons,
      List.not_mem_nil, not_false_eq_true, List.nodup_nil, and_self, List.mem_singleton, true_and]
    refine ⟨hx.nodup, ?_⟩
    intro b hb c hcx hbc
    subst hcx hbc
    exact hxn (by simpa using hb)
  · intro k a hk
    rw [Push_items, Array.getElem?_push] at hk
    rw [Push_item]
    split at hk
    · next hks =>
      have hax : a = x := (Option.some.inj hk).symm
      simp [hax, hks]
    · have hax : a ≠ x := fun he => hxn (by subst he; exact Array.mem_of_getElem? hk)
      rw [if_neg hax]
      exact hx.heapIdx k a hk

theorem Pop_eq (ht : AlarmHeap) (h : 0 < ht.items.size) :
    ht.Pop = ({ ht.setHeapIdx ht.items[ht.items.size - 1] (-1) with items := ht.items.pop },
      ht.items[ht.items.size - 1]) :=
  Pop_of_back ht _ (by rw [Array.back?_eq_getElem?, Array.getElem?_eq_getElem (by omega)])

theorem Indexed.Pop {ht : AlarmHeap} (hx : ht.Indexed) (h : 0 < ht.items.size) :
    ht.Pop.1.Indexed := by
  rw [Pop_eq ht h]
  constructor
  · simpa using hx.nodup.sublist (List.dropLast_sublist _)
  · intro k a hk
    simp only [Array.getElem?_pop] at hk
    split at hk
    · next hks =>
      have hlast : ht.items[ht.items.size - 1]? = some ht.items[ht.items.size - 1] :=
        Array.getElem?_eq_getElem (by omega)
      have hne : a ≠ ht.items[ht.items.size - 1] := by
        intro he
        rw [he] at hk
        have := index_unique hx.nodup hk hlast
        omega
      rw [setHeapIdx_item, if_neg hne]
      exact hx.heapIdx k a hk
    · exact absurd hk (by simp)

/-! ### The four `container/heap` calls of the task runner -/

/-- What `heap.Pop` and `heap.Remove` leave after taking the handle `r` out: the other handles,
their back-pointers, `r` marked absent, and every item's key and every absent item as before. -/
structure Removed (ht ht' : AlarmHeap) (r : Nat) : Prop where
  perm : ht.items.toList.Perm (r :: ht'.items.toList)
  indexed : ht'.Indexed
  heapIdx_removed : (ht'.item r).heapIdx = -1
  item_of_not_mem : ∀ b, b ∉ ht.items → ht'.item b = ht.item b
  deadline : ∀ b, (ht'.item b).deadline = (ht.item b).deadline
  insertOrd : ∀ b, (ht'.item b).insertOrd = (ht.item b).insertOrd
  insertNum : ht'.insertNum = ht.insertNum

/-- What `heap.Fix` leaves: the same handles, their back-pointers, and the keys and absent
items as before. -/
structure Permuted (ht ht' : AlarmHeap) : Prop where
  perm : ht'.items.toList.Perm ht.items.toList
  indexed : ht'.Indexed
  item_of_not_mem : ∀ b, b ∉ ht.items → ht'.item b = ht.item b
  deadline : ∀ b, (ht'.item b).deadline = (ht.item b).deadline
  insertOrd : ∀ b, (ht'.item b).insertOrd = (ht.item b).insertOrd
  insertNum : ht'.insertNum = ht.insertNum

theorem permuted_of_swaps {n : Nat} {ht ht' : AlarmHeap} (hs : Swaps heapInterface n ht ht')
    (hn : n ≤ ht.items.size) (hx : ht.Indexed) : Permuted ht ht' where
  perm := swaps_perm hs
  indexed := swaps_indexed hs hn hx
  item_of_not_mem _ hb := swaps_item_of_not_mem hs hn hb
  deadline := swaps_deadline hs
  insertOrd := swaps_insertOrd hs
  insertNum := swaps_insertNum hs

/-- The implementation's `Pop` after a chain of swaps that brought `r` to the last index. -/
theorem removed_of_swaps {n : Nat} {ht g : AlarmHeap} (hs : Swaps heapInterface n ht g)
    (hn : n ≤ ht.items.size) (hx : ht.Indexed) (hpos : 0 < ht.items.size) {r : Nat}
    (hr : g.items[ht.items.size - 1]? = some r) : g.Pop.2 = r ∧ Removed ht g.Pop.1 r := by
  have hp := permuted_of_swaps hs hn hx
  have hsz : g.items.size = ht.items.size := swaps_size hs
  have hback : g.items.back? = some r := by
    rw [Array.back?_eq_getElem?, hsz]
    exact hr
  have hpush := Array.eq_push_pop_back!_of_size_ne_zero (by omega : g.items.size ≠ 0)
  rw [Array.back!_eq_back?, hback, Option.getD_some] at hpush
  have hrm : r ∈ ht.items := by
    have hm : r ∈ g.items.toList := by
      rw [hpush]
      simp
    simpa using hp.perm.mem_iff.mp hm
  rw [Pop_of_back g r hback]
  refine ⟨rfl, ⟨?_, ?_, ?_, ?_, ?_, ?_, ?_⟩⟩
  · have hl : g.items.toList = g.items.pop.toList ++ [r] := by
      conv_lhs => rw [hpush]
      rw [Array.toList_push]
    exact hp.perm.symm.trans (by rw [hl]; exact List.perm_append_singleton _ _)
  · have hi := hp.indexed.Pop (by omega)
    rwa [Pop_of_back g r hback] at hi
  · simp [setHeapIdx]
  · intro b hb
    have hbr : b ≠ r := by
      rintro rfl
      exact hb hrm
    rw [setHeapIdx_item, if_neg hbr]
    exact hp.item_of_not_mem b hb
  · intro b
    rw [deadline_setHeapIdx]
    exact hp.deadline b
  · intro b
    rw [insertOrd_setHeapIdx]
    exact hp.insertOrd b
  · exact hp.insertNum

/-- What `heap.Push` leaves: the handles with `x` added, their back-pointers, `x` with a fresh
insertion order, and every other item as before. -/
structure Pushed (ht ht' : AlarmHeap) (x : Nat) : Prop where
  perm : ht'.items.toList.Perm (ht.items.toList ++ [x])
  indexed : ht'.Indexed
  item_of_not_mem : ∀ b, b ∉ ht.items → b ≠ x → ht'.item b = ht.item b
  deadline : ∀ b, (ht'.item b).deadline = (ht.item b).deadline
  insertOrd : ∀ b,
    (ht'.item b).insertOrd = if b = x then ht.insertNum + 1 else (ht.item b).insertOrd
  insertNum : ht'.insertNum = ht.insertNum + 1

theorem heapPush_swaps (ht : AlarmHeap) (x : Nat) :
    Swaps heapInterface (ht.items.size + 1) (ht.Push x)
      (ContainerHeap.Push heapInterface ht x) := by
  simp only [ContainerHeap.Push, heapInterface_Push, heapInterface_Len, Len, Push_items,
    Array.size_push, Nat.add_sub_cancel]
  exact up_swaps _ _ _ _ (by omega)

/-- `heap.Push(t.alarmHeap, item)` for an item that is not in the heap. -/
theorem heapPush_pushed {ht : AlarmHeap} (hx : ht.Indexed) {x : Nat} (hxn : x ∉ ht.items) :
    Pushed ht (ContainerHeap.Push heapInterface ht x) x := by
  have hp := permuted_of_swaps (heapPush_swaps ht x) (by simp) (hx.Push hxn)
  constructor
  · simpa using hp.perm
  · exact hp.indexed
  · intro b hb hbx
    rw [hp.item_of_not_mem b (by simpa [hbx] using hb), Push_item, if_neg hbx]
  · intro b
    rw [hp.deadline b, Push_item]
    split <;> simp_all
  · intro b
    rw [hp.insertOrd b, Push_item]
    split <;> simp_all
  · rw [hp.insertNum, Push_insertNum]

/-- `heap.Pop(t.alarmHeap)` on a non-empty heap takes the root out. -/
theorem heapPop_removed {ht : AlarmHeap} (hx : ht.Indexed) (hpos : 0 < ht.items.size) :
    (ContainerHeap.Pop heapInterface ht).2 = ht.items[0] ∧
      Removed ht (ContainerHeap.Pop heapInterface ht).1 ht.items[0] := by
  simp only [ContainerHeap.Pop, heapInterface_Len, heapInterface_Swap, heapInterface_Pop, Len]
  have hn : ht.items.size - 1 < ht.items.size := by omega
  have hs : Swaps heapInterface ht.items.size ht
      (down heapInterface (ht.Swap 0 (ht.items.size - 1)) 0 (ht.items.size - 1)) :=
    .swap _ _ _ _ hpos hn ((down_swaps _ _ _ _).mono (by omega))
  apply removed_of_swaps hs le_rfl hx hpos
  rw [swaps_getElem?_of_le (down_swaps _ _ _ _) _ le_rfl, Swap_getElem? ht hpos hn,
    Equiv.swap_apply_right, Array.getElem?_eq_getElem hpos]

/-- `heap.Pop` shortens a non-empty heap by one, whatever its items. -/
theorem size_heapPop (ht : AlarmHeap) (hpos : 0 < ht.items.size) :
    (ContainerHeap.Pop heapInterface ht).1.items.size = ht.items.size - 1 := by
  simp only [ContainerHeap.Pop, heapInterface_Len, heapInterface_Swap, heapInterface_Pop, Len]
  have hs : Swaps heapInterface ht.items.size ht
      (down heapInterface (ht.Swap 0 (ht.items.size - 1)) 0 (ht.items.size - 1)) :=
    .swap _ _ _ _ hpos (by omega) ((down_swaps _ _ _ _).mono (by omega))
  rw [Len_Pop _ (by rw [swaps_size hs]; exact hpos), swaps_size hs]

/-- `heap.Remove(t.alarmHeap, i)` takes the handle at index `i` out. -/
theorem heapRemove_removed {ht : AlarmHeap} (hx : ht.Indexed) {i : Nat} (hi : i < ht.items.size) :
    (ContainerHeap.Remove heapInterface ht i).2 = ht.items[i] ∧
      Removed ht (ContainerHeap.Remove heapInterface ht i).1 ht.items[i] := by
  dsimp only [ContainerHeap.Remove]
  have hn : ht.items.size - 1 < ht.items.size := by omega
  by_cases hni : heapInterface.Len ht - 1 ≠ i
  · rw [if_pos hni]
    simp only [heapInterface_Len, heapInterface_Swap, heapInterface_Pop, Len] at hni ⊢
    have hin : i < ht.items.size - 1 := by omega
    have hd := down_swaps heapInterface (ht.Swap i (ht.items.size - 1)) i (ht.items.size - 1)
    have hu := up_swaps heapInterface
      (down heapInterface (ht.Swap i (ht.items.size - 1)) i (ht.items.size - 1)) i
      (ht.items.size - 1) hin
    have hs := Swaps.swap _ _ _ _ hi hn ((hd.trans hu).mono (Nat.sub_le _ 1))
    apply removed_of_swaps hs le_rfl hx (by omega)
    rw [swaps_getElem?_of_le (hd.trans hu) _ le_rfl, Swap_getElem? ht hi hn,
      Equiv.swap_apply_right, Array.getElem?_eq_getElem hi]
  · rw [if_neg hni]
    simp only [heapInterface_Len, heapInterface_Pop, Len] at hni ⊢
    apply removed_of_swaps (Swaps.refl ht) (Nat.zero_le _) hx (by omega)
    rw [show ht.items.size - 1 = i by omega, Array.getElem?_eq_getElem hi]

/-- `heap.Fix(t.alarmHeap, i)` only permutes the handles. -/
theorem heapFix_permuted {ht : AlarmHeap} (hx : ht.Indexed) {i : Nat} (hi : i < ht.items.size) :
    Permuted ht (ContainerHeap.Fix heapInterface ht i) := by
  simp only [ContainerHeap.Fix, heapInterface_Len, Len]
  exact permuted_of_swaps ((down_swaps _ _ _ _).trans (up_swaps _ _ _ _ hi)) le_rfl hx

/-! ### Heap order -/

/-- Heap order of the alarm heap under `Less`. -/
def Ordered (ht : AlarmHeap) : Prop := IsHeap ht.key ht.items.size

/-- Write the `deadline` of the item of handle `a` (`item.deadline = item.alarm.deadline`). -/
def setDeadline (ht : AlarmHeap) (a : Nat) (d : Int) : AlarmHeap :=
  { ht with item := Function.update ht.item a { ht.item a with deadline := d } }

@[simp] theorem setDeadline_items (ht : AlarmHeap) (a : Nat) (d : Int) :
    (ht.setDeadline a d).items = ht.items := rfl

@[simp] theorem setDeadline_insertNum (ht : AlarmHeap) (a : Nat) (d : Int) :
    (ht.setDeadline a d).insertNum = ht.insertNum := rfl

theorem setDeadline_item (ht : AlarmHeap) (a b : Nat) (d : Int) :
    (ht.setDeadline a d).item b =
      if b = a then { ht.item a with deadline := d } else ht.item b := by
  simp only [setDeadline, Function.update_apply]

theorem Indexed.setDeadline {ht : AlarmHeap} (hx : ht.Indexed) (a : Nat) (d : Int) :
    (ht.setDeadline a d).Indexed := by
  refine ⟨hx.nodup, fun k b hk => ?_⟩
  rw [setDeadline_item]
  split
  · next hba =>
    subst hba
    exact hx.heapIdx k b hk
  · exact hx.heapIdx k b hk

@[simp] theorem keyed_key : keyed.key = key := rfl

/-- Changing the deadline of the handle at index `i` leaves the heap ready for `Fix` at `i`. -/
theorem fixReady_setDeadline {ht : AlarmHeap} (hx : ht.Indexed) (ho : ht.Ordered) {i a : Nat}
    (ha : ht.items[i]? = some a) (d : Int) :
    FixReady (ht.setDeadline a d).key (ht.setDeadline a d).items.size i := by
  apply FixReady.of_update ho
  intro k hkn hki
  have hk : ht.items[k]? = some ht.items[k] := Array.getElem?_eq_getElem hkn
  have hba : ht.items[k] ≠ a := by
    intro he
    rw [he] at hk
    exact hki (index_unique hx.nodup hk ha)
  simp only [key, itemAt, Array.getD_eq_getD_getElem?, setDeadline_items, hk, Option.getD_some,
    setDeadline_item, if_neg hba]

theorem heapPush_ordered {ht : AlarmHeap} (hx : ht.Indexed) {x : Nat} (hxn : x ∉ ht.items)
    (ho : ht.Ordered) : (ContainerHeap.Push heapInterface ht x).Ordered := by
  have hsz : (ContainerHeap.Push heapInterface ht x).items.size = ht.items.size + 1 := by
    simpa using (heapPush_pushed hx hxn).perm.length_eq
  have hh := keyed.Push_heap ht x ho (by
    intro a ha
    simp only [keyed_key, key, itemAt, Array.getD_eq_getD_getElem?, heapInterface_Push,
      Push_items]
    have ha' : a < ht.items.size := ha
    rw [Array.getElem?_push_lt ha', Array.getElem?_eq_getElem ha']
    have hne : ht.items[a] ≠ x := fun he => hxn (he ▸ Array.getElem_mem ha')
    simp [Push_item, hne])
  unfold Ordered
  rw [hsz]
  exact hh

theorem heapPop_ordered {ht : AlarmHeap} (hx : ht.Indexed) (hpos : 0 < ht.items.size)
    (ho : ht.Ordered) : (ContainerHeap.Pop heapInterface ht).1.Ordered := by
  have hsz : (ContainerHeap.Pop heapInterface ht).1.items.size = ht.items.size - 1 := by
    have := (heapPop_removed hx hpos).2.perm.length_eq
    simp at this
    omega
  unfold Ordered
  rw [hsz]
  exact keyed.Pop_heap ht hpos ho

theorem heapRemove_ordered {ht : AlarmHeap} (hx : ht.Indexed) {i : Nat} (hi : i < ht.items.size)
    (ho : ht.Ordered) : (ContainerHeap.Remove heapInterface ht i).1.Ordered := by
  have hsz : (ContainerHeap.Remove heapInterface ht i).1.items.size = ht.items.size - 1 := by
    have := (heapRemove_removed hx hi).2.perm.length_eq
    simp at this
    omega
  unfold Ordered
  rw [hsz]
  exact keyed.Remove_heap ht i hi ho

theorem heapFix_ordered {ht : AlarmHeap} (hx : ht.Indexed) {i : Nat} (hi : i < ht.items.size)
    (hr : FixReady ht.key ht.items.size i) : (ContainerHeap.Fix heapInterface ht i).Ordered := by
  have hsz : (ContainerHeap.Fix heapInterface ht i).items.size = ht.items.size := by
    simpa using (heapFix_permuted hx hi).perm.length_eq
  unfold Ordered
  rw [hsz]
  exact keyed.Fix_heap ht i hi hr

end AlarmHeap

end GoQuic
