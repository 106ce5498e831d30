import GoQuic.Registry.Ptr
import GoQuic.TaskRunner.Invariant

/-!
# `goQuicAlarmPtr` under the loop

The loop keeps of `goQuicAlarmPtr` only which keys are live (`alarmPtr`) and the next key
(`index`): `CreateGoQuicAlarm` (`alarm.go:62–73`) takes `index` with no search, and
`GoQuicAlarmDestroy` drops the key. Here the pool of `ptr.go` runs beside the loop. Its pointer
under a key is the alarm the loop names by that key, so `HoldsPtr` says that `Get` finds alarm
`k` under each live key `k`, nothing under the others, and that the pool's `index` is the loop's.

On every run that has created at most `math.MaxInt64` alarms, the pool run from its creation on
the loop's calls holds the loop's keys in this sense, and the keys it handed out are the loop's,
`0, 1, 2, …` (`alarmPtr_refines`): each `CreateGoQuicAlarm` is a `Set` that returns the loop's key
at the first turn of its loop, and the exported functions find the alarm the loop acts on
(`HoldsPtr.Get`).
-/

namespace GoQuic

namespace Loop

open Ptr

variable {s s' : Loop} {p : Ptr Nat}

/-- `p` is `goQuicAlarmPtr` for the loop `s`. -/
structure HoldsPtr (s : Loop) (p : Ptr Nat) : Prop where
  below : p.Below
  index : p.index.toInt = s.index
  get : ∀ k < s.index, p.Get (Int64.ofNat k) = if s.alarmPtr k then some k else none

/-- `s'` has the keys of `s`. -/
structure SamePtr (s s' : Loop) : Prop where
  alarmPtr : s'.alarmPtr = s.alarmPtr
  index : s'.index = s.index

theorem SamePtr.refl (s : Loop) : SamePtr s s := ⟨rfl, rfl⟩

theorem HoldsPtr.of_samePtr (hp : HoldsPtr s p) (h : SamePtr s s') : HoldsPtr s' p where
  below := hp.below
  index := by rw [h.index, hp.index]
  get k hk := by
    rw [h.alarmPtr]
    exact hp.get k (h.index ▸ hk)

theorem holdsPtr_init (now : Int) : HoldsPtr (init now) Ptr.new where
  below := below_new
  index := by simp [init, Ptr.new]
  get k hk := by simp [init] at hk

/-- The exported functions find the loop's alarm under each live key, and `nil` elsewhere. -/
theorem HoldsPtr.Get (hp : HoldsPtr s p) (hi : s.Inv) {k : Nat} (hk : k < 2 ^ 63) :
    p.Get (Int64.ofNat k) = if s.alarmPtr k then some k else none := by
  by_cases hlt : k < s.index
  · exact hp.get k hlt
  · -- no key at or above `index` is live, in the loop or in the pool
    rw [hi.ptr_fresh k (by omega), if_neg Bool.false_ne_true, Ptr.Get, AList.lookup_eq_none]
    intro hm
    have := (hp.below.lt _ hm).2
    rw [toInt_ofNat_of_lt hk, hp.index] at this
    omega

/-- `CreateGoQuicAlarm` is a `Set` that returns the loop's key at the first turn of its loop. -/
theorem HoldsPtr.CreateGoQuicAlarm (hp : HoldsPtr s p) (hn : s.index < 2 ^ 63 - 1) :
    p.Set s.index = some (⟨p.pool.insert p.index s.index, p.index + 1⟩,
        Int64.ofNat s.CreateGoQuicAlarm.2) ∧
      HoldsPtr s.CreateGoQuicAlarm.1 ⟨p.pool.insert p.index s.index, p.index + 1⟩ := by
  have hidx : p.index = Int64.ofNat s.index := by
    rw [← Int64.toInt_inj, toInt_ofNat_of_lt (by omega), hp.index]
  have hi : p.index.toInt < 2 ^ 63 - 1 := by
    rw [hp.index]
    omega
  refine ⟨by rw [hp.below.Set_eq, hidx]; rfl, hp.below.Set hi _, ?_, ?_⟩
  · rw [toInt_add_one hi, hp.index, CreateGoQuicAlarm_index]
    push_cast
    rfl
  · intro k hk
    rw [CreateGoQuicAlarm_index] at hk
    simp only [Ptr.Get, CreateGoQuicAlarm_alarmPtr, hidx]
    by_cases hks : k = s.index
    · subst hks
      simp only [AList.lookup_insert, Function.update_self, if_pos]
    · -- an older key: the pool and the loop have it as before
      have hne : Int64.ofNat k ≠ Int64.ofNat s.index := fun he =>
        hks (ofNat_inj_of_lt (by omega) (by omega) he)
      simp only [AList.lookup_insert_ne hne, Function.update_of_ne hks]
      exact hp.get k (by omega)

/-- `GoQuicAlarmDestroy` is a `Del` of a live key. -/
theorem HoldsPtr.destroy (hp : HoldsPtr s p) {key : Nat} (hk : key < s.index)
    (hptr : s'.alarmPtr = Function.update s.alarmPtr key false) (hidx : s'.index = s.index) :
    HoldsPtr s' (p.Del (Int64.ofNat key)) where
  below := hp.below.Del _
  index := by rw [hidx]; exact hp.index
  get k hk' := by
    rw [hidx] at hk'
    -- the loop's keys are `int64` keys of the pool
    have hb : s.index < 2 ^ 63 := by
      have := Int64.toInt_lt p.index
      rw [hp.index] at this
      omega
    simp only [Ptr.Get, Ptr.Del, hptr]
    by_cases hks : k = key
    · subst hks
      simp only [AList.lookup_erase, Function.update_self]
      rfl
    · have hne : Int64.ofNat k ≠ Int64.ofNat key := fun he =>
        hks (ofNat_inj_of_lt (by omega) (by omega) he)
      simp only [AList.lookup_erase_ne hne, Function.update_of_ne hks]
      exact hp.get k hk'

/-! ### Which steps touch the keys -/

variable {a : Nat} {now : Int} {evs : List Event}

theorem SetImpl_samePtr (h : s.SetImpl a = some s') : SamePtr s s' := by
  rcases SetImpl_cases h with ⟨-, rfl⟩ | ⟨-, t, -, rfl⟩
  · exact SamePtr.refl _
  · exact ⟨rfl, rfl⟩

theorem OnAlarm_samePtr (h : s.OnAlarm a now = some (s', evs)) : SamePtr s s' := by
  rcases OnAlarm_cases h with ⟨-, hs, -⟩ | ⟨-, -, rfl, -⟩ | ⟨-, -, rfl, -⟩
  · exact SetImpl_samePtr hs
  · exact SamePtr.refl _
  · exact SamePtr.refl _

theorem startDoTasks_samePtr (s : Loop) (now : Int) : SamePtr s (s.startDoTasks now) := by
  unfold startDoTasks
  split
  · exact SamePtr.refl _
  · exact ⟨rfl, rfl⟩

/-- What a call does to the keys: `create` takes `index`, `destroy` drops a live key, and the
others leave them alone. -/
theorem call_keys {c : Call} (h : s.call c = some (s', evs)) :
    (c = .create ∧ s' = s.CreateGoQuicAlarm.1) ∨
      (∃ key, s.alarmPtr key = true ∧ s'.alarmPtr = Function.update s.alarmPtr key false ∧
        s'.index = s.index) ∨
      SamePtr s s' := by
  rcases call_cases h with ⟨rfl, rfl, -⟩ | ⟨key, d, -, h₁, -⟩ | ⟨key, -, h₁, -⟩ | ⟨key, -, h₁, -⟩
  · exact .inl ⟨rfl, rfl⟩
  · rcases (GoQuicAlarmSetImpl_cases h₁).2 with ⟨-, rfl⟩ | ⟨-, t, -, rfl⟩
    · exact .inr (.inr ⟨rfl, rfl⟩)
    · exact .inr (.inr ⟨rfl, rfl⟩)
  · obtain ⟨-, t, -, rfl⟩ := GoQuicAlarmCancelImpl_eq_some h₁
    exact .inr (.inr ⟨rfl, rfl⟩)
  · obtain ⟨hk, t, u, -, -, rfl⟩ := GoQuicAlarmDestroy_eq_some h₁
    exact .inr (.inl ⟨key, hk, rfl, rfl⟩)

/-! ### The pool beside every run -/

/-- Some run of the pool from its creation holds the loop's keys and has handed out `0, 1, …`
up to the loop's `index`. -/
def PtrRun (s : Loop) : Prop :=
  ∃ (p : Ptr Nat) (ptrTr : List PtrEvent), Ptr.system.Reach p ptrTr ∧ HoldsPtr s p ∧
    handedOut ptrTr = (List.range s.index).map Int64.ofNat

/-- The loop's invariant, and a pool beside it while at most `math.MaxInt64` alarms exist. -/
structure Matched (s : Loop) : Prop where
  inv : s.Inv
  run : s.index ≤ 2 ^ 63 - 1 → PtrRun s

theorem matched_init (now : Int) : (init now).Matched where
  inv := inv_init now
  run _ := ⟨Ptr.new, [], Lts.Reach.init, holdsPtr_init now, rfl⟩

theorem Matched.of_samePtr (hm : s.Matched) (hi : s'.Inv) (h : SamePtr s s') : s'.Matched where
  inv := hi
  run hn := by
    obtain ⟨p, ptrTr, hr, hp, hk⟩ := hm.run (h.index ▸ hn)
    exact ⟨p, ptrTr, hr, hp.of_samePtr h, h.index ▸ hk⟩

theorem Matched.call (hm : s.Matched) {c : Call} (h : s.call c = some (s', evs)) : s'.Matched := by
  have hi' := hm.inv.call h
  rcases call_keys h with ⟨-, rfl⟩ | ⟨key, hk, hptr, hidx⟩ | hs
  · -- `goQuicAlarmPtr.Set` on the new alarm
    refine ⟨hi', fun hn => ?_⟩
    rw [CreateGoQuicAlarm_index] at hn
    obtain ⟨p, ptrTr, hr, hp, hkeys⟩ := hm.run (by omega)
    obtain ⟨hset, hp'⟩ := hp.CreateGoQuicAlarm (by omega)
    have hstep : Ptr.system.step p (.set s.index) =
        some (⟨p.pool.insert p.index s.index, p.index + 1⟩,
          [.set (Int64.ofNat s.CreateGoQuicAlarm.2)]) := by
      simp only [Ptr.system, Ptr.step, hset, Option.map_some]
    refine ⟨_, _, hr.step hstep, hp', ?_⟩
    rw [handedOut_append, hkeys, CreateGoQuicAlarm_index, List.range_succ, List.map_append]
    rfl
  · -- `goQuicAlarmPtr.Del` of a live key
    refine ⟨hi', fun hn => ?_⟩
    have hlt : key < s.index := by
      by_contra hge
      rw [hm.inv.ptr_fresh key (by omega)] at hk
      cases hk
    obtain ⟨p, ptrTr, hr, hp, hkeys⟩ := hm.run (hidx ▸ hn)
    have hstep : Ptr.system.step p (.del (Int64.ofNat key)) =
        some (p.Del (Int64.ofNat key), [.del (Int64.ofNat key)]) := rfl
    refine ⟨_, _, hr.step hstep, hp.destroy hlt hptr hidx, ?_⟩
    rw [handedOut_append, hkeys, hidx]
    simp [handedOut]
  · exact hm.of_samePtr hi' hs

theorem Matched.step (hm : s.Matched) {l : Label} (h : s.step l = some (s', evs)) :
    s'.Matched := by
  have hi' := hm.inv.step h
  cases step_moves h with
  | call _ hc => exact hm.call hc
  | expire _ => exact hm.of_samePtr hi' ⟨rfl, rfl⟩
  | @waitTimer tm now _ _ =>
    -- a new timer and a batch leave the keys alone
    have hs := startDoTasks_samePtr { s with runner := { s.runner with timer := tm } } now
    exact hm.of_samePtr hi' ⟨hs.alarmPtr, hs.index⟩
  | doTasks now _ => exact hm.of_samePtr hi' (startDoTasks_samePtr s now)
  | onAlarmFire _ ho _ hcs =>
    -- the alarm itself keeps the keys; its callback's calls are calls like any other
    have hs := OnAlarm_samePtr ho
    have hm₁ := hm.of_samePtr ((hm.inv.withBatch _).OnAlarm ho) ⟨hs.alarmPtr, hs.index⟩
    exact calls_invariant (fun _ _ _ _ hm' hc => hm'.call hc) hm₁ hcs
  | onAlarmQuiet _ ho _ =>
    have hs := OnAlarm_samePtr ho
    exact hm.of_samePtr hi' ⟨hs.alarmPtr, hs.index⟩
  | finish _ => exact hm.of_samePtr hi' ⟨rfl, rfl⟩

/-- On every run that has created at most `math.MaxInt64` alarms, the pool of `ptr.go`, run from
its creation on the loop's calls, holds the loop's keys: `Get` finds alarm `k` under every live
key `k` and `nil` under every other key, and the keys it handed out are the loop's
`0, 1, …, index - 1` in order. -/
theorem alarmPtr_refines {tr : List Event} (h : (system now).Reach s tr)
    (hn : s.index ≤ 2 ^ 63 - 1) :
    ∃ (p : Ptr Nat) (ptrTr : List PtrEvent), Ptr.system.Reach p ptrTr ∧ HoldsPtr s p ∧
      (∀ k < 2 ^ 63, p.Get (Int64.ofNat k) = if s.alarmPtr k then some k else none) ∧
      handedOut ptrTr = (List.range s.index).map Int64.ofNat := by
  have hm : s.Matched := h.invariant (matched_init now) fun _ _ _ _ hm hs => hm.step hs
  obtain ⟨p, ptrTr, hr, hp, hk⟩ := hm.run hn
  exact ⟨p, ptrTr, hr, hp, fun _ hlt => hp.Get hm.inv hlt, hk⟩

/-- Three alarms created and the first destroyed: the pool handed out `0, 1, 2` and holds the
last two. -/
theorem alarmPtr_refines_after_destroy :
    ∃ s tr, (system 0).run (system 0).init
        [.call .create, .call .create, .call (.destroy 0), .call .create] = some (s, tr) ∧
      s.index = 3 ∧
      ∃ (p : Ptr Nat) (ptrTr : List PtrEvent), Ptr.system.Reach p ptrTr ∧ HoldsPtr s p ∧
        (∀ k < 2 ^ 63, p.Get (Int64.ofNat k) = if s.alarmPtr k then some k else none) ∧
        handedOut ptrTr = (List.range s.index).map Int64.ofNat := by
  have hidx : ((system 0).run (system 0).init
      [.call .create, .call .create, .call (.destroy 0), .call .create]).map
        (fun r => r.1.index) = some 3 := by
    decide +kernel
  obtain ⟨⟨s, tr⟩, hr, hi⟩ := Option.map_eq_some_iff.mp hidx
  exact ⟨s, tr, hr, hi, alarmPtr_refines (Lts.Reach.of_run hr) (by rw [hi]; norm_num)⟩

end Loop

end GoQuic
