import Mathlib.Data.List.Basic

/-!
# A double-ended queue

`lane.Deque` (`vendor/github.com/oleiade/lane/deque.go`): a doubly linked list with a capacity,
negative for none. `Append` and `Prepend` insert at either end unless the deque is at capacity,
`Shift` removes the first element, and `Empty` tests for none. The lock that makes it safe for
concurrent use changes nothing it holds and is left out.

Without a capacity, as `NewDeque` makes it, the deque is a list: `Append` and `Prepend` are
`l ++ [x]` and `x :: l`, and `Shift` splits off the head.
-/

namespace Lane

/-- A `Deque`: its elements from front to back, and its capacity. -/
structure Deque (α : Type) where
  container : List α
  capacity : Int
  deriving DecidableEq, Repr

namespace Deque

variable {α : Type}

/-- `NewCappedDeque`. -/
def NewCappedDeque (capacity : Int) : Deque α := ⟨[], capacity⟩

/-- `NewDeque`: no capacity. -/
def NewDeque : Deque α := NewCappedDeque (-1)

/-- `Append`: insert at the back, and whether there was room. -/
def Append (s : Deque α) (item : α) : Deque α × Bool :=
  if s.capacity < 0 || s.container.length < s.capacity then
    (⟨s.container ++ [item], s.capacity⟩, true)
  else (s, false)

/-- `Prepend`: insert at the front, and whether there was room. -/
def Prepend (s : Deque α) (item : α) : Deque α × Bool :=
  if s.capacity < 0 || s.container.length < s.capacity then
    (⟨item :: s.container, s.capacity⟩, true)
  else (s, false)

/-- `Shift`: remove the first element; `nil` when there is none. -/
def Shift (s : Deque α) : Option α × Deque α :=
  match s.container with
  | [] => (none, s)
  | x :: xs => (some x, ⟨xs, s.capacity⟩)

/-- `Empty`. -/
def Empty (s : Deque α) : Bool := s.container.length == 0

variable {s : Deque α} {x : α}

@[simp] theorem capacity_Append : (s.Append x).1.capacity = s.capacity := by
  unfold Append
  split <;> rfl

@[simp] theorem capacity_Prepend : (s.Prepend x).1.capacity = s.capacity := by
  unfold Prepend
  split <;> rfl

theorem container_Append (h : s.capacity < 0) : (s.Append x).1.container = s.container ++ [x] := by
  simp [Append, h]

theorem container_Prepend (h : s.capacity < 0) : (s.Prepend x).1.container = x :: s.container := by
  simp [Prepend, h]

theorem Empty_iff : s.Empty = true ↔ s.container = [] := by
  simp [Empty]

/-- A shift that returns an element splits it off the front. -/
theorem Shift_eq_some {s' : Deque α} (h : s.Shift = (some x, s')) :
    s.container = x :: s'.container ∧ s'.capacity = s.capacity := by
  unfold Shift at h
  split at h
  · cases h
  · next y ys hc =>
    obtain ⟨hx, rfl⟩ := Prod.mk.inj h
    cases hx
    exact ⟨hc, rfl⟩

end Deque

end Lane
