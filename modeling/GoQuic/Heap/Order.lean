import GoQuic.Heap.Interface
import Mathlib

/-!
# Heap order under `container/heap`

An implementation of `heap.Interface` is `Keyed` when its `Less` compares a key read at each
index from a linear order, `Swap` exchanges the keys of its two indices and `Pop` keeps the keys
of the indices that remain. For such an implementation `up`, `down`, and hence `heap.Push`,
`heap.Pop`, `heap.Remove` and `heap.Fix`, keep the heap order. The order predicates are stated
on the key function at one state, `k : Nat → K`, below a bound `n`; `UpReady`, `DownReady` and
`FixReady` are the partial orders that the three sifts start from.
-/

namespace ContainerHeap

variable {K : Type} [LinearOrder K]

/-- Heap order below `n`: no index is less than its parent. -/
def IsHeap (k : Nat → K) (n : Nat) : Prop :=
  ∀ a, 0 < a → a < n → k (parent a) ≤ k a

/-- What `up` from `j` needs: every pair but `j` and its parent is in order, and the children of
`j` are not less than the parent of `j`. -/
structure UpReady (k : Nat → K) (n j : Nat) : Prop where
  except : ∀ a, 0 < a → a < n → a ≠ j → k (parent a) ≤ k a
  grand : 0 < j → ∀ c, 0 < c → c < n → parent c = j → k (parent j) ≤ k c

/-- What `down` from `i` needs: every pair but `i` and its children is in order, and the
children of `i` are not less than the parent of `i`. -/
structure DownReady (k : Nat → K) (n i : Nat) : Prop where
  except : ∀ a, 0 < a → a < n → parent a ≠ i → k (parent a) ≤ k a
  grand : 0 < i → ∀ c, 0 < c → c < n → parent c = i → k (parent i) ≤ k c

/-- What `Fix` needs after the element at `i` changed: every pair that does not touch `i` is in
order, and the children of `i` are not less than the parent of `i`. -/
structure FixReady (k : Nat → K) (n i : Nat) : Prop where
  except : ∀ a, 0 < a → a < n → a ≠ i → parent a ≠ i → k (parent a) ≤ k a
  grand : 0 < i → ∀ c, 0 < c → c < n → parent c = i → k (parent i) ≤ k c

theorem IsHeap.mono {k : Nat → K} {n m : Nat} (hk : IsHeap k n) (hm : m ≤ n) : IsHeap k m :=
  fun a ha ham => hk a ha (by omega)

theorem IsHeap.congr {k k' : Nat → K} {n : Nat} (hk : IsHeap k n) (he : ∀ a, a < n → k' a = k a) :
    IsHeap k' n := by
  intro a ha han
  rw [he a han, he (parent a) (by have := parent_lt ha; omega)]
  exact hk a ha han

/-- The root of a heap is at most every element below the bound. -/
theorem IsHeap.root_le {k : Nat → K} {n : Nat} (hk : IsHeap k n) (a : Nat) (ha : a < n) :
    k 0 ≤ k a := by
  induction a using Nat.strongRecOn with
  | ind a ih =>
    rcases Nat.eq_zero_or_pos a with rfl | hpos
    · exact le_rfl
    · exact le_trans (ih (parent a) (parent_lt hpos) (by have := parent_lt hpos; omega))
        (hk a hpos ha)

/-- An ancestor is at most its descendant: the children of `a` are at least `a`. -/
theorem IsHeap.le_of_parent {k : Nat → K} {n a c : Nat} (hk : IsHeap k n) (hc : 0 < c)
    (hcn : c < n) (hp : parent c = a) : k a ≤ k c := by
  rw [← hp]
  exact hk c hc hcn

/-- A heap whose element at `i` changes is ready for `Fix` at `i`. -/
theorem FixReady.of_update {k k' : Nat → K} {n i : Nat} (hk : IsHeap k n)
    (he : ∀ a, a < n → a ≠ i → k' a = k a) : FixReady k' n i where
  except a ha han hai hpi := by
    have hpa := parent_lt ha
    rw [he a han hai, he (parent a) (by omega) hpi]
    exact hk a ha han
  grand hi c hc hcn hpc := by
    have hpi : parent i ≠ i := by have := parent_lt hi; omega
    have hic := lt_of_parent_eq hc hpc
    have hci : c ≠ i := by omega
    have hpn : parent i < n := by have := parent_lt hi; omega
    rw [he _ hpn hpi, he c hcn hci]
    exact le_trans (hk i hi (by omega)) (hk.le_of_parent hc hcn hpc)

theorem DownReady.fixReady {k : Nat → K} {n i : Nat} (hr : DownReady k n i) : FixReady k n i where
  except a ha han _ hpi := hr.except a ha han hpi
  grand := hr.grand

variable {H X : Type}

/-- An implementation of `heap.Interface` whose `Less` compares keys in a linear order,
whose `Swap` exchanges the keys of its two indices and whose `Pop` keeps the other keys. -/
structure Keyed (I : Interface H X) (K : Type) [LinearOrder K] extends LenLaws I where
  key : H → Nat → K
  less : ∀ h a b, a < I.Len h → b < I.Len h → (I.Less h a b = true ↔ key h a < key h b)
  key_swap : ∀ h i j a, i < I.Len h → j < I.Len h →
    key (I.Swap h i j) a = key h (Equiv.swap i j a)
  key_pop : ∀ h a, a + 1 < I.Len h → key (I.Pop h).1 a = key h a

namespace Keyed

variable {I : Interface H X} (Kd : Keyed I K)

theorem key_swap_left {h : H} {i j : Nat} (hi : i < I.Len h) (hj : j < I.Len h) :
    Kd.key (I.Swap h i j) i = Kd.key h j := by
  rw [Kd.key_swap h i j i hi hj, Equiv.swap_apply_left]

theorem key_swap_right {h : H} {i j : Nat} (hi : i < I.Len h) (hj : j < I.Len h) :
    Kd.key (I.Swap h i j) j = Kd.key h i := by
  rw [Kd.key_swap h i j j hi hj, Equiv.swap_apply_right]

theorem key_swap_of_ne {h : H} {i j a : Nat} (hi : i < I.Len h) (hj : j < I.Len h)
    (hai : a ≠ i) (haj : a ≠ j) : Kd.key (I.Swap h i j) a = Kd.key h a := by
  rw [Kd.key_swap h i j a hi hj, Equiv.swap_apply_of_ne_of_ne hai haj]

theorem not_less {h : H} {a b : Nat} (ha : a < I.Len h) (hb : b < I.Len h)
    (hl : ¬ I.Less h a b = true) : Kd.key h b ≤ Kd.key h a :=
  not_lt.mp (fun hlt => hl ((Kd.less h a b ha hb).mpr hlt))

/-- The child `down` picks is at most every child of `i` below `n`. -/
theorem child_le {h : H} {i n a : Nat} (hn : n ≤ I.Len h) (ha : 0 < a) (han : a < n)
    (hpa : parent a = i) : Kd.key h (child I h i n) ≤ Kd.key h a := by
  have hlr := (parent_eq_iff ha).mp hpa
  unfold child
  split
  · next hc =>
    have hle : Kd.key h (2 * i + 2) ≤ Kd.key h (2 * i + 1) :=
      Kd.not_less (by omega) (by omega) (by simp [hc.2])
    rcases hlr with rfl | rfl
    · exact hle
    · exact le_rfl
  · next hc =>
    rcases hlr with rfl | rfl
    · exact le_rfl
    · have hl : I.Less h (2 * i + 1) (2 * i + 2) = true := by
        simp only [not_and, Bool.not_eq_false] at hc
        exact hc han
      exact le_of_lt ((Kd.less h _ _ (by omega) (by omega)).mp hl)

/-- One swap of `up` keeps it up-ready, one level higher. -/
theorem upReady_swap {h : H} {n j : Nat} (hn : n ≤ I.Len h) (hjn : j < n) (hj : 0 < j)
    (hr : UpReady (Kd.key h) n j) (hl : Kd.key h j < Kd.key h (parent j)) :
    UpReady (Kd.key (I.Swap h (parent j) j)) n (parent j) := by
  have hp := parent_lt hj
  have hpl : parent j < I.Len h := by omega
  have hjl : j < I.Len h := by omega
  constructor
  · intro a ha han hap
    by_cases haj : a = j
    · subst haj
      rw [Kd.key_swap_left hpl hjl, Kd.key_swap_right hpl hjl]
      exact le_of_lt hl
    · rw [Kd.key_swap_of_ne hpl hjl hap haj]
      by_cases hpa : parent a = j
      · rw [hpa, Kd.key_swap_right hpl hjl]
        exact hr.grand hj a ha han hpa
      · by_cases hpp : parent a = parent j
        · rw [hpp, Kd.key_swap_left hpl hjl]
          have hle := hr.except a ha han haj
          rw [hpp] at hle
          exact le_trans (le_of_lt hl) hle
        · rw [Kd.key_swap_of_ne hpl hjl hpp hpa]
          exact hr.except a ha han haj
  · intro hp0 c hc hcn hpc
    have hgp := parent_lt hp0
    rw [Kd.key_swap_of_ne hpl hjl (by omega) (by omega)]
    have hpe := hr.except (parent j) hp0 (by omega) (by omega)
    by_cases hcj : c = j
    · subst hcj
      rw [Kd.key_swap_right hpl hjl]
      exact hpe
    · have hcp : c ≠ parent j := by have := lt_of_parent_eq hc hpc; omega
      rw [Kd.key_swap_of_ne hpl hjl hcp hcj]
      have hce := hr.except c hc hcn hcj
      rw [hpc] at hce
      exact le_trans hpe hce

/-- `up` from an up-ready state ends in a heap. -/
theorem up_heap (h : H) (j n : Nat) (hn : n ≤ I.Len h) (hjn : j < n)
    (hr : UpReady (Kd.key h) n j) : IsHeap (Kd.key (up I h j)) n := by
  induction h, j using up.induct I with
  | case1 h j hpj =>
    rw [up, if_pos hpj]
    have hj0 := (parent_eq_self_iff j).mp hpj
    intro a ha han
    exact hr.except a ha han (by omega)
  | case2 h j hpj hl ih =>
    rw [up, if_neg hpj, if_pos hl]
    have hj : 0 < j := by have := (parent_eq_self_iff j).not.mp hpj; omega
    have hp := parent_lt hj
    have hlen := Kd.swap h (parent j) j (by omega) (by omega)
    have hlt := (Kd.less h j (parent j) (by omega) (by omega)).mp hl
    exact ih (by rw [hlen]; exact hn) (by omega) (Kd.upReady_swap hn hjn hj hr hlt)
  | case3 h j hpj hl =>
    rw [up, if_neg hpj, if_neg hl]
    intro a ha han
    by_cases haj : a = j
    · subst haj
      exact Kd.not_less (by omega) (by have := parent_lt ha; omega) hl
    · exact hr.except a ha han haj

/-- `up` does nothing on a heap. -/
theorem up_eq_of_heap (h : H) (j n : Nat) (hn : n ≤ I.Len h) (hjn : j < n)
    (hk : IsHeap (Kd.key h) n) : up I h j = h := by
  apply up_of_not_less
  rcases Nat.eq_zero_or_pos j with rfl | hj
  · have hlt := (Kd.less h 0 (parent 0) (by omega) (by simp [parent]; omega)).not
    simpa [parent] using hlt
  · have hlt := (Kd.less h j (parent j) (by omega) (by have := parent_lt hj; omega)).not
    simpa [not_lt.mpr (hk j hj hjn)] using hlt

/-- One swap of `down` from a fix-ready index leaves the heap down-ready at the child. -/
theorem downReady_swap {h : H} {n i : Nat} (hn : n ≤ I.Len h) (hi : 2 * i + 1 < n)
    (hr : FixReady (Kd.key h) n i) (hl : Kd.key h (child I h i n) < Kd.key h i) :
    DownReady (Kd.key (I.Swap h i (child I h i n))) n (child I h i n) := by
  have hic := lt_child I h i n
  have hcn := child_lt I h i n hi
  have hpc := parent_child I h i n
  generalize hc : child I h i n = c at hic hcn hpc hl ⊢
  have hmin : ∀ a, 0 < a → a < n → parent a = i → Kd.key h c ≤ Kd.key h a := by
    intro a ha han hpa
    rw [← hc]
    exact Kd.child_le hn ha han hpa
  have hil : i < I.Len h := by omega
  have hcl : c < I.Len h := by omega
  constructor
  · intro a ha han hpa
    by_cases hac : a = c
    · subst hac
      rw [hpc, Kd.key_swap_left hil hcl, Kd.key_swap_right hil hcl]
      exact le_of_lt hl
    · by_cases hai : a = i
      · subst hai
        have hpi := parent_lt ha
        rw [Kd.key_swap_left hil hcl, Kd.key_swap_of_ne hil hcl (by omega) (by omega)]
        exact hr.grand ha c (by omega) hcn hpc
      · rw [Kd.key_swap_of_ne hil hcl hai hac]
        by_cases hpi : parent a = i
        · rw [hpi, Kd.key_swap_left hil hcl]
          exact hmin a ha han hpi
        · rw [Kd.key_swap_of_ne hil hcl hpi hpa]
          exact hr.except a ha han hai hpi
  · intro _ g hg hgn hpg
    have hcg := lt_of_parent_eq hg hpg
    rw [hpc, Kd.key_swap_left hil hcl, Kd.key_swap_of_ne hil hcl (by omega) (by omega)]
    have hge := hr.except g hg hgn (by omega) (by omega)
    rw [hpg] at hge
    exact hge

/-- `down` from a down-ready state ends in a heap. -/
theorem down_heap (h : H) (i n : Nat) (hn : n ≤ I.Len h) (hr : DownReady (Kd.key h) n i) :
    IsHeap (Kd.key (down I h i n)) n := by
  induction h, i using down.induct I n with
  | case1 h i hi hl ih =>
    rw [down_of_less I h i n hi hl]
    have hic := lt_child I h i n
    have hcn := child_lt I h i n hi
    have hlen := Kd.swap h i (child I h i n) (by omega) (by omega)
    have hlt := (Kd.less h _ i (by omega) (by omega)).mp hl
    exact ih (by rw [hlen]; exact hn) (Kd.downReady_swap hn hi hr.fixReady hlt)
  | case2 h i hi hl =>
    rw [down_of_not_less I h i n (fun _ => by simpa using hl)]
    have hcn := child_lt I h i n hi
    intro a ha han
    by_cases hpa : parent a = i
    · rw [hpa]
      exact le_trans (Kd.not_less (by omega) (by omega) hl) (Kd.child_le hn ha han hpa)
    · exact hr.except a ha han hpa
  | case3 h i hi =>
    rw [down_of_not_less I h i n (fun hn' => absurd hn' hi)]
    intro a ha han
    have hpa : parent a ≠ i := by
      intro hpa
      rcases (parent_eq_iff ha).mp hpa with rfl | rfl <;> omega
    exact hr.except a ha han hpa

/-- `down` from a fix-ready state either does nothing, leaving the state up-ready, or ends in a
heap. -/
theorem down_fix (h : H) (i n : Nat) (hn : n ≤ I.Len h) (hr : FixReady (Kd.key h) n i) :
    (down I h i n = h ∧ UpReady (Kd.key h) n i) ∨ IsHeap (Kd.key (down I h i n)) n := by
  by_cases hs : 2 * i + 1 < n ∧ I.Less h (child I h i n) i = true
  · right
    obtain ⟨hi, hl⟩ := hs
    rw [down_of_less I h i n hi hl]
    have hic := lt_child I h i n
    have hcn := child_lt I h i n hi
    have hlen := Kd.swap h i (child I h i n) (by omega) (by omega)
    have hlt := (Kd.less h _ i (by omega) (by omega)).mp hl
    exact Kd.down_heap _ _ _ (by rw [hlen]; exact hn) (Kd.downReady_swap hn hi hr hlt)
  · left
    refine ⟨down_of_not_less I h i n (fun hi => by simpa [hi] using hs), ?_, hr.grand⟩
    intro a ha han hai
    by_cases hpa : parent a = i
    · have hi : 2 * i + 1 < n := by rcases (parent_eq_iff ha).mp hpa with rfl | rfl <;> omega
      have hl : ¬ I.Less h (child I h i n) i = true := fun hl => hs ⟨hi, hl⟩
      have hcn := child_lt I h i n hi
      rw [hpa]
      exact le_trans (Kd.not_less (by omega) (by omega) hl) (Kd.child_le hn ha han hpa)
    · exact hr.except a ha han hai hpa

/-- `down` and then `up` from a fix-ready index end in a heap: the common tail of `heap.Fix` and
`heap.Remove`. -/
theorem up_down_heap (h : H) (i n : Nat) (hn : n ≤ I.Len h) (hi : i < n)
    (hr : FixReady (Kd.key h) n i) : IsHeap (Kd.key (up I (down I h i n) i)) n := by
  have hlen := (down_swaps I h i n).len_eq Kd.toLenLaws hn
  rcases Kd.down_fix h i n hn hr with ⟨he, hu⟩ | hd
  · rw [he]
    exact Kd.up_heap h i n hn hi hu
  · rw [Kd.up_eq_of_heap _ i n (by rw [hlen]; exact hn) hi hd]
    exact hd

/-- `heap.Push` keeps the heap, given that the implementation's `Push` keeps the keys already
in the heap. -/
theorem Push_heap (h : H) (x : X) (hk : IsHeap (Kd.key h) (I.Len h))
    (hkeep : ∀ a, a < I.Len h → Kd.key (I.Push h x) a = Kd.key h a) :
    IsHeap (Kd.key (Push I h x)) (I.Len h + 1) := by
  have hlen := Kd.push h x
  have hlast : I.Len (I.Push h x) - 1 = I.Len h := by omega
  simp only [Push, hlast]
  apply Kd.up_heap _ _ _ (by omega) (by omega)
  constructor
  · intro a ha han hane
    have hpa := parent_lt ha
    rw [hkeep a (by omega), hkeep (parent a) (by omega)]
    exact hk a ha (by omega)
  · intro _ c hc hcn hpc
    have := lt_of_parent_eq hc hpc
    have := (parent_eq_iff hc).mp hpc
    omega

/-- `heap.Pop` keeps the heap on the indices that remain. -/
theorem Pop_heap (h : H) (hpos : 0 < I.Len h) (hk : IsHeap (Kd.key h) (I.Len h)) :
    IsHeap (Kd.key (Pop I h).1) (I.Len h - 1) := by
  have h0 : 0 < I.Len h := hpos
  have hnl : I.Len h - 1 < I.Len h := by omega
  have hlen1 := Kd.swap h 0 (I.Len h - 1) h0 hnl
  have hr : DownReady (Kd.key (I.Swap h 0 (I.Len h - 1))) (I.Len h - 1) 0 := by
    constructor
    · intro a ha han hpa
      have hp := parent_lt ha
      rw [Kd.key_swap_of_ne h0 hnl hpa (by omega),
        Kd.key_swap_of_ne h0 hnl (by omega : a ≠ 0) (by omega)]
      exact hk a ha (by omega)
    · intro h0' _ _ _ _
      omega
  have hd := Kd.down_heap _ 0 (I.Len h - 1) (by rw [hlen1]; omega) hr
  have hlen2 := (down_swaps I (I.Swap h 0 (I.Len h - 1)) 0 (I.Len h - 1)).len_eq Kd.toLenLaws
    (by rw [hlen1]; omega)
  apply hd.congr
  intro a ha
  exact Kd.key_pop _ a (by rw [hlen2, hlen1]; omega)

/-- `heap.Remove` keeps the heap on the indices that remain. -/
theorem Remove_heap (h : H) (i : Nat) (hi : i < I.Len h) (hk : IsHeap (Kd.key h) (I.Len h)) :
    IsHeap (Kd.key (Remove I h i).1) (I.Len h - 1) := by
  dsimp only [Remove]
  split
  · next hni =>
    have hin : i < I.Len h - 1 := by omega
    have hnl : I.Len h - 1 < I.Len h := by omega
    have hlen1 := Kd.swap h i (I.Len h - 1) hi hnl
    have hr : FixReady (Kd.key (I.Swap h i (I.Len h - 1))) (I.Len h - 1) i := by
      constructor
      · intro a ha han hai hpa
        have hp := parent_lt ha
        rw [Kd.key_swap_of_ne hi hnl hai (by omega), Kd.key_swap_of_ne hi hnl hpa (by omega)]
        exact hk a ha (by omega)
      · intro hi0 c hc hcn hpc
        have hic := lt_of_parent_eq hc hpc
        have hpi := parent_lt hi0
        rw [Kd.key_swap_of_ne hi hnl (by omega : parent i ≠ i) (by omega),
          Kd.key_swap_of_ne hi hnl (by omega : c ≠ i) (by omega)]
        exact le_trans (hk i hi0 hi) (hk.le_of_parent hc (by omega) hpc)
    have hu := Kd.up_down_heap _ i (I.Len h - 1) (by rw [hlen1]; omega) hin hr
    have hlen2 : I.Len (up I (down I (I.Swap h i (I.Len h - 1)) i (I.Len h - 1)) i) = I.Len h := by
      rw [((down_swaps I _ i _).trans (up_swaps I _ i (I.Len h - 1) hin)).len_eq Kd.toLenLaws
        (by rw [hlen1]; omega), hlen1]
    apply hu.congr
    intro a ha
    exact Kd.key_pop _ a (by rw [hlen2]; omega)
  · apply (hk.mono (Nat.sub_le _ 1)).congr
    intro a ha
    exact Kd.key_pop _ a (by omega)

/-- `heap.Fix` at an index whose element changed in a heap restores the heap. -/
theorem Fix_heap (h : H) (i : Nat) (hi : i < I.Len h) (hr : FixReady (Kd.key h) (I.Len h) i) :
    IsHeap (Kd.key (Fix I h i)) (I.Len h) :=
  Kd.up_down_heap h i (I.Len h) (Nat.le_refl _) hi hr

end Keyed

end ContainerHeap
