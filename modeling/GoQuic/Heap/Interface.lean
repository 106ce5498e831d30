import Mathlib.Logic.Equiv.Basic

/-!
# Go's `container/heap`

The binary-heap algorithms of Go 1.7's `container/heap` (the toolchain of the repository's
`Dockerfile`), generic over any implementation of `heap.Interface`. The algorithms touch the
heap only through `Len`, `Less`, `Swap`, `Push` and `Pop`, so every invariant that one `Swap`
keeps is kept by `up` and `down`: `Swaps` records that, and its `stable` rule is how an
implementation transfers its own representation invariant through the algorithms.

Indices are `Nat`. Go's `(j - 1) / 2` truncates towards zero, so the parent of `0` is `0` in
both. Out-of-range calls, where Go panics, are never made by the algorithms below.
-/

namespace ContainerHeap

/-- Go's `heap.Interface`: `sort.Interface` (`Len`, `Less`, `Swap`) with `Push` and `Pop`,
as methods that return the updated receiver. -/
structure Interface (H X : Type) where
  Len : H → Nat
  Less : H → Nat → Nat → Bool
  Swap : H → Nat → Nat → H
  Push : H → X → H
  Pop : H → H × X

/-- The length laws of every `heap.Interface`: `Swap` permutes in range, `Push` appends one
element and `Pop` removes one. -/
structure LenLaws {H X : Type} (I : Interface H X) : Prop where
  swap : ∀ h a b, a < I.Len h → b < I.Len h → I.Len (I.Swap h a b) = I.Len h
  push : ∀ h x, I.Len (I.Push h x) = I.Len h + 1
  pop : ∀ h, 0 < I.Len h → I.Len (I.Pop h).1 = I.Len h - 1

/-- Index of the parent of `j`, `(j - 1) / 2`. -/
def parent (j : Nat) : Nat := (j - 1) / 2

theorem parent_lt_of_ne {j : Nat} (h : parent j ≠ j) : parent j < j := by
  unfold parent at *
  omega

theorem parent_lt {j : Nat} (h : 0 < j) : parent j < j := by
  unfold parent
  omega

theorem lt_of_parent_eq {c i : Nat} (hc : 0 < c) (hpc : parent c = i) : i < c := by
  rw [← hpc]
  exact parent_lt hc

theorem parent_eq_self_iff (j : Nat) : parent j = j ↔ j = 0 := by
  unfold parent
  omega

/-- The children of `i` are `2 * i + 1` and `2 * i + 2`. -/
theorem parent_eq_iff {c i : Nat} (hc : 0 < c) : parent c = i ↔ c = 2 * i + 1 ∨ c = 2 * i + 2 := by
  unfold parent
  omega

variable {H X : Type} (I : Interface H X)

/-- `up` of `container/heap`: swap `j` with its parent while it is less than the parent. -/
def up (h : H) (j : Nat) : H :=
  if parent j = j then h
  else if I.Less h j (parent j) then up (I.Swap h (parent j) j) (parent j)
  else h
termination_by j
decreasing_by exact parent_lt_of_ne ‹_›

/-- The child that `down` compares with `i` (Go 1.7): the right child `2 * i + 2` when it lies
below `n` and the left child is not less than it, otherwise the left child. -/
def child (h : H) (i n : Nat) : Nat :=
  if 2 * i + 2 < n ∧ I.Less h (2 * i + 1) (2 * i + 2) = false then 2 * i + 2 else 2 * i + 1

theorem lt_child (h : H) (i n : Nat) : i < child I h i n := by
  unfold child
  split <;> omega

theorem child_lt (h : H) (i n : Nat) (hn : 2 * i + 1 < n) : child I h i n < n := by
  unfold child
  split <;> omega

theorem parent_child (h : H) (i n : Nat) : parent (child I h i n) = i := by
  unfold child parent
  split <;> omega

/-- `down` of `container/heap`: swap `i` with its lesser child below `n` while that child is
less than it. -/
def down (h : H) (i n : Nat) : H :=
  if 2 * i + 1 < n then
    if I.Less h (child I h i n) i then down (I.Swap h i (child I h i n)) (child I h i n) n
    else h
  else h
termination_by n - i
decreasing_by
  have := lt_child I h i n
  have := child_lt I h i n ‹_›
  omega

/-- `heap.Push`: append with the implementation's `Push`, then move the new last element up. -/
def Push (h : H) (x : X) : H :=
  let h := I.Push h x
  up I h (I.Len h - 1)

/-- `heap.Pop`: swap the root with the last element, restore the heap below the last index,
then let the implementation's `Pop` remove and return the last element. -/
def Pop (h : H) : H × X :=
  let n := I.Len h - 1
  I.Pop (down I (I.Swap h 0 n) 0 n)

/-- `heap.Remove` (Go 1.7): move index `i` to the end, restore the heap below the end with
`down` and then `up`, and pop the end. -/
def Remove (h : H) (i : Nat) : H × X :=
  let n := I.Len h - 1
  if n ≠ i then I.Pop (up I (down I (I.Swap h i n) i n) i)
  else I.Pop h

/-- `heap.Fix` (Go 1.7): after the element at `i` changed its value, `down` then `up`. -/
def Fix (h : H) (i : Nat) : H :=
  up I (down I h i (I.Len h)) i

/-! ### Every change `up` and `down` make is a chain of swaps -/

/-- `h'` is reached from `h` by `Swap`s of indices below `n`. -/
inductive Swaps (n : Nat) : H → H → Prop
  | refl (h : H) : Swaps n h h
  | swap (h h' : H) (a b : Nat) : a < n → b < n → Swaps n (I.Swap h a b) h' → Swaps n h h'

namespace Swaps

variable {I}

theorem trans {n : Nat} {h₁ h₂ h₃ : H} (h₁₂ : Swaps I n h₁ h₂) (h₂₃ : Swaps I n h₂ h₃) :
    Swaps I n h₁ h₃ := by
  induction h₁₂ with
  | refl => exact h₂₃
  | swap h h' a b ha hb _ ih => exact .swap h h₃ a b ha hb (ih h₂₃)

theorem mono {n m : Nat} {h h' : H} (hs : Swaps I n h h') (hnm : n ≤ m) : Swaps I m h h' := by
  induction hs with
  | refl => exact .refl _
  | swap h h' a b ha hb _ ih => exact .swap h h' a b (by omega) (by omega) ih

/-- The induction rule: a property that every `Swap` below `n` keeps holds at the end. -/
theorem stable {n : Nat} {h h' : H} (hs : Swaps I n h h') (P : H → Prop)
    (hP : ∀ g a b, a < n → b < n → P g → P (I.Swap g a b)) (hh : P h) : P h' := by
  induction hs with
  | refl => exact hh
  | swap g g' a b ha hb _ ih => exact ih (hP g a b ha hb hh)

/-- Swaps within the length keep the length. -/
theorem len_eq {n : Nat} {h h' : H} (L : LenLaws I) (hs : Swaps I n h h') (hn : n ≤ I.Len h) :
    I.Len h' = I.Len h := by
  have hk := hs.stable (fun g => I.Len g = I.Len h) (by
    intro g a b ha hb hg
    rw [L.swap g a b (by omega) (by omega), hg]) rfl
  exact hk

end Swaps

/-- `up` from `j` swaps only indices at most `j`. -/
theorem up_swaps (h : H) (j n : Nat) (hj : j < n) : Swaps I n h (up I h j) := by
  induction h, j using up.induct I with
  | case1 h j hpj =>
    rw [up, if_pos hpj]
    exact .refl h
  | case2 h j hpj hl ih =>
    rw [up, if_neg hpj, if_pos hl]
    have := parent_lt_of_ne hpj
    exact .swap _ _ _ _ (by omega) hj (ih (by omega))
  | case3 h j hpj hl =>
    rw [up, if_neg hpj, if_neg hl]
    exact .refl h

/-- `down` below `n` swaps only indices below `n`. -/
theorem down_swaps (h : H) (i n : Nat) : Swaps I n h (down I h i n) := by
  induction h, i using down.induct I n with
  | case1 h i hn hl ih =>
    rw [down, if_pos hn, if_pos hl]
    have := lt_child I h i n
    have := child_lt I h i n hn
    exact .swap _ _ _ _ (by omega) (by omega) ih
  | case2 h i hn hl =>
    rw [down, if_pos hn, if_neg hl]
    exact .refl h
  | case3 h i hn =>
    rw [down, if_neg hn]
    exact .refl h

/-- `down` stops at once when `i` has no child below `n` or its child is not less. -/
theorem down_of_not_less (h : H) (i n : Nat)
    (hs : 2 * i + 1 < n → I.Less h (child I h i n) i = false) : down I h i n = h := by
  rw [down]
  split
  · next hn => rw [if_neg (by simp [hs hn])]
  · rfl

/-- One step of `down`: swap `i` with its child and continue from the child. -/
theorem down_of_less (h : H) (i n : Nat) (hn : 2 * i + 1 < n)
    (hl : I.Less h (child I h i n) i = true) :
    down I h i n = down I (I.Swap h i (child I h i n)) (child I h i n) n := by
  rw [down, if_pos hn, if_pos hl]

/-- `up` at an index whose parent is not greater leaves the heap unchanged. -/
theorem up_of_not_less (h : H) (j : Nat) (hl : I.Less h j (parent j) = false) : up I h j = h := by
  rw [up]
  split
  · rfl
  · rw [if_neg (by simp [hl])]

end ContainerHeap
