import Mathlib.Algebra.BigOperators.Group.Finset.Piecewise
import Mathlib.Algebra.Order.Group.Multiset
import Mathlib.Data.Multiset.UnionInter
import Mathlib.Algebra.Order.BigOperators.Group.Finset

/-!
# Tokens held in places

A system that hands out tokens (buffers, handles) from a counter and passes them between places
keeps each token in one place at a time when the multiset of all the tokens held has no
duplicates and lies below the counter (`Fresh`). A step that moves tokens, drops some, or hands
out the counter's next one keeps it (`Fresh.of_le`, `Fresh.alloc`).

The tokens of places indexed by a finite type are a sum; changing what one place holds changes
the sum by the same amount (`sum_update_add_eq`).
-/

namespace Custody

section Places

variable {ι M : Type} [Fintype ι] [DecidableEq ι] [AddCancelCommMonoid M]

/-- Place `i` goes from state `g i` to `v`: if its tokens go from `tok (g i)` to `tok v` with
`tok v + a = tok (g i) + d`, the tokens of all places move by the same `a` and `d`. -/
theorem sum_update_add_eq {σ : Type} (g : ι → σ) (tok : σ → M) (i : ι) {v : σ} {a d : M}
    (h : tok v + a = tok (g i) + d) :
    ∑ j, tok (Function.update g i v j) + a = ∑ j, tok (g j) + d := by
  have hu : ∀ j, tok (Function.update g i v j) =
      Function.update (fun k => tok (g k)) i (tok v) j :=
    Function.apply_update (fun _ => tok) g i v
  simp only [hu]
  rw [Finset.sum_update_of_mem (Finset.mem_univ i),
    Finset.sum_eq_add_sum_sdiff_singleton_of_mem (Finset.mem_univ i) (fun k => tok (g k))]
  calc tok v + ∑ j ∈ Finset.univ \ {i}, tok (g j) + a =
        (tok v + a) + ∑ j ∈ Finset.univ \ {i}, tok (g j) := add_right_comm _ _ _
    _ = (tok (g i) + d) + ∑ j ∈ Finset.univ \ {i}, tok (g j) := by rw [h]
    _ = _ := add_right_comm _ _ _

/-- Place `i` gains the token `a`: the sum gains it. -/
theorem sum_update_cons {α σ : Type} (g : ι → σ) (tok : σ → Multiset α) (i : ι) {v : σ} {a : α}
    (h : tok v = a ::ₘ tok (g i)) :
    ∑ j, tok (Function.update g i v j) = a ::ₘ ∑ j, tok (g j) := by
  have hs := sum_update_add_eq g tok i (a := 0) (d := {a})
    (by rw [h, add_zero, ← Multiset.singleton_add, add_comm])
  rw [add_zero] at hs
  rw [hs, add_comm, Multiset.singleton_add]

/-- Place `i` gives up the token `a`: the sum loses it. -/
theorem sum_update_of_cons {α σ : Type} (g : ι → σ) (tok : σ → Multiset α) (i : ι) {v : σ}
    {a : α} (h : tok (g i) = a ::ₘ tok v) :
    a ::ₘ ∑ j, tok (Function.update g i v j) = ∑ j, tok (g j) := by
  have hs := sum_update_add_eq g tok i (v := v) (a := {a}) (d := 0)
    (by rw [h, add_zero, ← Multiset.singleton_add, add_comm])
  rw [add_zero] at hs
  rw [← hs, add_comm, Multiset.singleton_add]

end Places

/-! ### Tokens from a counter -/

/-- Every token is held at most once, and below the counter `next` that hands out new ones. -/
structure Fresh (held : Multiset Nat) (next : Nat) : Prop where
  nodup : held.Nodup
  lt : ∀ b ∈ held, b < next

variable {held held' : Multiset Nat} {next next' : Nat}

theorem Fresh.not_mem (h : Fresh held next) : next ∉ held :=
  fun hm => Nat.lt_irrefl _ (h.lt next hm)

/-- Tokens moved or dropped, with the counter kept or raised. -/
theorem Fresh.of_le (h : Fresh held next) (hle : held' ≤ held) (hn : next ≤ next') :
    Fresh held' next' :=
  ⟨Multiset.nodup_of_le hle h.nodup,
    fun b hb => Nat.lt_of_lt_of_le (h.lt b (Multiset.mem_of_le hle hb)) hn⟩

/-- The counter's next token handed out, besides moves and drops. -/
theorem Fresh.alloc (h : Fresh held next) (hle : held' ≤ next ::ₘ held) :
    Fresh held' (next + 1) := by
  refine ⟨Multiset.nodup_of_le hle (h.nodup.cons h.not_mem), fun b hb => ?_⟩
  rcases Multiset.mem_cons.mp (Multiset.mem_of_le hle hb) with rfl | hb
  · exact Nat.lt_succ_self _
  · exact Nat.lt_succ_of_lt (h.lt b hb)

/-- No more tokens are held than the counter has handed out. -/
theorem Fresh.card_le (h : Fresh held next) : Multiset.card held ≤ next := by
  have hle : held ≤ Multiset.range next :=
    (Multiset.le_iff_subset h.nodup).mpr fun b hb => Multiset.mem_range.mpr (h.lt b hb)
  simpa using Multiset.card_le_card hle

/-- Tokens held in two different places of the sum are different tokens. -/
theorem Fresh.ne_of_mem_add {s t : Multiset Nat} (h : Fresh held next) (hle : s + t ≤ held)
    {b b' : Nat} (hb : b ∈ s) (hb' : b' ∈ t) : b ≠ b' := by
  rintro rfl
  have hd := (Multiset.nodup_add.mp (Multiset.nodup_of_le hle h.nodup)).2.2
  exact Multiset.disjoint_left.mp hd hb hb'

end Custody
