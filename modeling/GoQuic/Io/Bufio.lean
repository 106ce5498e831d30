import Mathlib.Data.List.Flatten
import Mathlib.Order.Basic

/-!
# A buffered writer

`bufio.Writer` of Go's standard library (`bufio.go`, `Writer.Write` and `Writer.Flush`) over an
underlying writer that takes every chunk whole and never fails. `Write` loops while the data
does not fit in the space left: with an empty buffer it passes the data on directly, otherwise it
fills the buffer and flushes it; what is left is copied into the buffer. `Flush` passes on a
non-empty buffer.

What the underlying writer receives, followed by what is still buffered, is what was written
(`write_flatten`, `flush_flatten`): the writer buffers as documented.
-/

namespace Bufio

variable {α : Type}

/-- The state of a `bufio.Writer`: the size of its buffer and the data buffered. -/
structure Writer (α : Type) where
  size : Nat
  buf : List α
  deriving DecidableEq, Repr

namespace Writer

/-- `NewWriterSize`: an empty buffer of the given size. -/
def new (size : Nat) : Writer α := ⟨size, []⟩

/-- `Available`: the space left in the buffer. -/
def Available (w : Writer α) : Nat := w.size - w.buf.length

/-- `Flush`: pass the buffer on, if it holds anything, and empty it. -/
def Flush (w : Writer α) : Writer α × List (List α) :=
  if w.buf.length = 0 then (w, []) else ({ w with buf := [] }, [w.buf])

@[simp] theorem Flush_buf (w : Writer α) : w.Flush.1.buf = [] := by
  unfold Flush
  split
  · next h => exact List.length_eq_zero_iff.mp h
  · rfl

/-- What `Flush` passes on, then what it leaves, is the buffer. -/
theorem flush_flatten (w : Writer α) : w.Flush.2.flatten ++ w.Flush.1.buf = w.buf := by
  unfold Flush
  split
  · next h => simp [List.length_eq_zero_iff.mp h]
  · simp

/-- The loop of `Write`. While `p` does not fit in the space left: with an empty buffer, write
`p` directly, which takes it all; otherwise copy what fits, which fills the buffer, and flush.
Returns the writer, what is left of `p`, and the chunks passed on. -/
def writeLoop (w : Writer α) (p : List α) : Writer α × List α × List (List α) :=
  if w.Available < p.length then
    if w.buf.length = 0 then
      -- large write, empty buffer: write directly from `p`
      let r := w.writeLoop (p.drop p.length)
      (r.1, r.2.1, p :: r.2.2)
    else
      let n := w.Available
      let f := ({ w with buf := w.buf ++ p.take n } : Writer α).Flush
      let r := f.1.writeLoop (p.drop n)
      (r.1, r.2.1, f.2 ++ r.2.2)
  else (w, p, [])
termination_by (p.length, w.buf.length)
decreasing_by
  · simp only [List.drop_length, List.length_nil]
    exact Prod.Lex.left _ _ (by omega)
  · rw [Flush_buf, List.length_drop, List.length_nil]
    -- `p` shrinks unless the buffer was full, and then the buffer empties
    rcases Nat.eq_zero_or_pos w.Available with h0 | hpos
    · rw [h0, Nat.sub_zero]
      exact Prod.Lex.right _ (by omega)
    · exact Prod.Lex.left _ _ (by omega)

/-- `Write`: the loop, then copy the rest of `p` into the buffer. -/
def Write (w : Writer α) (p : List α) : Writer α × List (List α) :=
  let r := w.writeLoop p
  ({ r.1 with buf := r.1.buf ++ r.2.1 }, r.2.2)

/-- What the loop passes on, then its buffer and what is left of `p`, is the buffer and `p`. -/
theorem writeLoop_flatten (w : Writer α) (p : List α) :
    (w.writeLoop p).2.2.flatten ++ (w.writeLoop p).1.buf ++ (w.writeLoop p).2.1 = w.buf ++ p := by
  induction w, p using writeLoop.induct with
  | case1 w p hlt hbuf ih =>
    rw [writeLoop, if_pos hlt, if_pos hbuf]
    simp only [List.flatten_cons, List.append_assoc] at ih ⊢
    rw [ih, List.drop_length, List.append_nil, List.length_eq_zero_iff.mp hbuf, List.nil_append]
    exact List.append_nil p
  | case2 w p hlt hbuf n f ih =>
    rw [writeLoop, if_pos hlt, if_neg hbuf]
    simp only [List.flatten_append, List.append_assoc] at ih ⊢
    rw [ih, ← List.append_assoc, flush_flatten, List.append_assoc, List.take_append_drop]
  | case3 w p hlt =>
    rw [writeLoop, if_neg hlt]
    simp

/-- What `Write` passes on, then what it buffers, is the buffer and `p`. -/
theorem write_flatten (w : Writer α) (p : List α) :
    (w.Write p).2.flatten ++ (w.Write p).1.buf = w.buf ++ p := by
  simp only [Write, ← List.append_assoc]
  exact writeLoop_flatten w p

/-- Flushing an empty buffer passes nothing on. -/
theorem Flush_of_buf_nil {w : Writer α} (h : w.buf = []) : w.Flush = (w, []) := by
  unfold Flush
  rw [if_pos (by rw [h, List.length_nil])]

end Writer

end Bufio
