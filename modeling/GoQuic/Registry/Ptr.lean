import Mathlib
import GoQuic.Trace.Reach

/-!
# The pointer pools

C++ holds the Go objects it calls back into by `int64` keys. `ptr.go`, generated by `ptr_gen.py`
from one template, gives each such type `T` a pool `TPtr`: a `map[int64]*T` and the `index` where
the search for a free key starts. `Set` (`ptr.go:26–41`) looks from `index` on for a key the map
does not hold, going back to 0 at `math.MaxInt64`, stores the object under it and moves `index`
past it; `Get` and `Del` read and delete. The generated types differ only in `T`, so one pool over
a type `α` models them all; the lock changes nothing the pool holds and is left out.

On every run the pool holds exactly the keys handed out and not deleted since
(`mem_pool_iff_live`), and `Set` never hands out a key that is live (`set_fresh`), so two live
objects never share a key. The loop of `Set` ends whenever fewer than `math.MaxInt64` objects are
live (`Set_isSome`). While every key lies below `index`, `Set` takes `index` at the first turn
of its loop (`Below.Set_eq`).
-/

namespace GoQuic

/-- A pool `TPtr` of `ptr.go` for the objects `α`: the objects by key, and where `Set` starts. -/
structure Ptr (α : Type) where
  pool : AList fun _ : Int64 => α
  index : Int64

namespace Ptr

variable {α : Type}

/-- `&TPtr{pool: make(map[int64]*T)}`. -/
def new : Ptr α := ⟨∅, 0⟩

/-- `Get` (`ptr.go:20–24`); `none` is Go's `nil`. -/
def Get (p : Ptr α) (key : Int64) : Option α := p.pool.lookup key

/-- The index after a turn of the loop of `Set` on a taken key (`ptr.go:33–36`). -/
def nextIndex (index : Int64) : Int64 :=
  if index + 1 = Int64.maxValue then 0 else index + 1

/-- The loop of `Set` (`ptr.go:29–37`) for at most `fuel` turns: the first index from `index` on
that the pool does not hold. -/
def searchLoop (pool : AList fun _ : Int64 => α) : Nat → Int64 → Option Int64
  | 0, _ => none
  | fuel + 1, index =>
    match pool.lookup index with
    | none => some index
    | some _ => searchLoop pool fuel (nextIndex index)

/-- `Set` (`ptr.go:26–41`): store `pt` under the first free key from `index` on, move `index`
past it, and return the key. The loop's only state is `index`, so a loop that has found no free
key in `2 ^ 64` turns has met some index twice and goes round forever: `Set` is then `none`. -/
def Set (p : Ptr α) (pt : α) : Option (Ptr α × Int64) :=
  (searchLoop p.pool (2 ^ 64) p.index).map fun index =>
    let pool := p.pool.insert index pt
    let index := index + 1
    (⟨pool, index⟩, index - 1)

/-- `Del` (`ptr.go:43–47`). -/
def Del (p : Ptr α) (key : Int64) : Ptr α := { p with pool := p.pool.erase key }

/-- A call on a pool. -/
inductive Op (α : Type)
  | set (pt : α)
  | del (key : Int64)

/-- What a call reports: the key `Set` handed out, or the key `Del` deleted. -/
inductive PtrEvent
  | set (key : Int64)
  | del (key : Int64)
  deriving DecidableEq, Repr

/-- One call on the pool. -/
def step (p : Ptr α) : Op α → Option (Ptr α × List PtrEvent)
  | .set pt => (p.Set pt).map fun r => (r.1, [.set r.2])
  | .del key => some (p.Del key, [.del key])

/-- A pool from its creation, under any sequence of calls. -/
def system : Lts (Ptr α) (Op α) PtrEvent := ⟨new, step⟩

/-! ### What the events say of a key -/

/-- What an event says of `key`: handed out, or deleted. -/
def PtrEvent.about (key : Int64) : PtrEvent → Option Bool
  | .set k => if k = key then some true else none
  | .del k => if k = key then some false else none

/-- `key` is live after the events `tr`: handed out, and not deleted since. -/
def live (tr : List PtrEvent) (key : Int64) : Bool :=
  Lts.lastSome (PtrEvent.about key) tr == some true

/-- The keys `Set` handed out along `tr`, in order. -/
def handedOut (tr : List PtrEvent) : List Int64 :=
  tr.filterMap fun e => match e with
    | .set k => some k
    | .del _ => none

theorem live_set (tr : List PtrEvent) (k key : Int64) :
    live (tr ++ [.set k]) key = (k = key || live tr key) := by
  by_cases h : k = key <;> simp [live, Lts.lastSome_append_singleton, PtrEvent.about, h]

theorem live_del (tr : List PtrEvent) (k key : Int64) :
    live (tr ++ [.del k]) key = (k != key && live tr key) := by
  by_cases h : k = key <;> simp [live, Lts.lastSome_append_singleton, PtrEvent.about, h]

/-! ### `int64` arithmetic of the loop -/

/-- `x + 1` does not wrap below `math.MaxInt64`. -/
theorem toInt_add_one {x : Int64} (h : x.toInt < 2 ^ 63 - 1) : (x + 1).toInt = x.toInt + 1 := by
  rw [Int64.toInt_add, Int64.toInt_one]
  have := Int64.le_toInt x
  exact Int.bmod_eq_of_le (by omega) (by omega)

theorem toInt_ofNat_of_lt {n : Nat} (h : n < 2 ^ 63) : (Int64.ofNat n).toInt = n := by
  rw [Int64.toInt_ofNat']
  have hs : ((Int64.size : Nat) : Int) = 2 ^ 64 := by norm_num [Int64.size]
  apply Int.bmod_eq_of_le <;> rw [hs] <;> omega

theorem ofNat_inj_of_lt {m n : Nat} (hm : m < 2 ^ 63) (hn : n < 2 ^ 63)
    (h : Int64.ofNat m = Int64.ofNat n) : m = n := by
  have := congrArg Int64.toInt h
  rw [toInt_ofNat_of_lt hm, toInt_ofNat_of_lt hn] at this
  exact_mod_cast this

theorem toInt_nextIndex {x : Int64} (h : x.toInt + 1 < 2 ^ 63 - 1) :
    (nextIndex x).toInt = x.toInt + 1 := by
  have hx : (x + 1).toInt = x.toInt + 1 := toInt_add_one (by omega)
  have hne : x + 1 ≠ Int64.maxValue := fun he => by
    rw [← Int64.toInt_inj, hx, Int64.toInt_maxValue] at he
    omega
  rw [nextIndex, if_neg hne, hx]

/-- The loop goes back to 0 from `math.MaxInt64 - 1`. -/
theorem nextIndex_of_toInt_eq {x : Int64} (h : x.toInt = 2 ^ 63 - 2) : nextIndex x = 0 := by
  have hx : (x + 1).toInt = x.toInt + 1 := toInt_add_one (by omega)
  have he : x + 1 = Int64.maxValue := by
    rw [← Int64.toInt_inj, hx, Int64.toInt_maxValue, h]
    norm_num
  rw [nextIndex, if_pos he]

/-- From `math.MaxInt64` itself, `index + 1` overflows. -/
theorem nextIndex_maxValue : nextIndex Int64.maxValue = Int64.minValue := by decide

theorem toInt_iterate_nextIndex (n : Nat) {x : Int64} (h : x.toInt + n < 2 ^ 63 - 1) :
    (nextIndex^[n] x).toInt = x.toInt + n := by
  induction n generalizing x with
  | zero => simp
  | succ n ih =>
    rw [Function.iterate_succ_apply, ih (by rw [toInt_nextIndex (by omega)]; omega),
      toInt_nextIndex (by omega)]
    push_cast
    ring

/-- From any index the loop comes to every key in `[0, math.MaxInt64)` within `2 ^ 64` turns. -/
theorem exists_iterate_nextIndex (x : Int64) {k : Int64} (hk₀ : 0 ≤ k.toInt)
    (hk : k.toInt < 2 ^ 63 - 1) : ∃ n < 2 ^ 64, nextIndex^[n] x = k := by
  -- from an index at or below `k`, the loop counts up to `k`
  have hup : ∀ y : Int64, y.toInt ≤ k.toInt → nextIndex^[(k.toInt - y.toInt).toNat] y = k := by
    intro y hy
    rw [← Int64.toInt_inj, toInt_iterate_nextIndex _ (by omega)]
    omega
  have hx₀ := Int64.le_toInt x
  by_cases hxk : x.toInt ≤ k.toInt
  · exact ⟨_, by omega, hup x hxk⟩
  by_cases hmax : x = Int64.maxValue
  · -- `index + 1` overflows to `math.MinInt64`, below every key
    subst hmax
    refine ⟨(k.toInt - Int64.minValue.toInt).toNat + 1, ?_, ?_⟩
    · rw [Int64.toInt_minValue]
      omega
    · rw [Function.iterate_succ_apply, nextIndex_maxValue]
      exact hup _ (by rw [Int64.toInt_minValue]; omega)
  · -- past `k`: up to `math.MaxInt64 - 1`, back to 0, and up to `k`
    have hx : x.toInt < 2 ^ 63 - 1 := by
      have hle := Int64.toInt_le x
      have hne : x.toInt ≠ Int64.maxValue.toInt := fun he => hmax (Int64.toInt_inj.mp he)
      rw [Int64.toInt_maxValue] at hle hne
      omega
    have hm : (nextIndex^[(2 ^ 63 - 2 - x.toInt).toNat] x).toInt = 2 ^ 63 - 2 := by
      rw [toInt_iterate_nextIndex _ (by omega)]
      omega
    refine ⟨(k.toInt - 0).toNat + 1 + (2 ^ 63 - 2 - x.toInt).toNat, by omega, ?_⟩
    rw [Function.iterate_add_apply, Function.iterate_succ_apply, nextIndex_of_toInt_eq hm]
    exact hup 0 (by simpa using hk₀)

/-! ### The loop of `Set` -/

variable {pool : AList fun _ : Int64 => α}

theorem searchLoop_of_lookup_eq_none {x : Int64} (h : pool.lookup x = none) (fuel : Nat) :
    searchLoop pool (fuel + 1) x = some x := by
  simp [searchLoop, h]

/-- The loop stops only at a key the pool does not hold. -/
theorem lookup_of_searchLoop {fuel : Nat} {x k : Int64} (h : searchLoop pool fuel x = some k) :
    pool.lookup k = none := by
  induction fuel generalizing x with
  | zero => cases h
  | succ fuel ih =>
    simp only [searchLoop] at h
    split at h
    · next hx =>
      cases h
      exact hx
    · exact ih h

/-- The loop stops if the `n`-th index it would visit is free and it may run more than `n` turns. -/
theorem searchLoop_isSome {n fuel : Nat} {x : Int64} (hn : n < fuel)
    (hfree : pool.lookup (nextIndex^[n] x) = none) : (searchLoop pool fuel x).isSome := by
  induction n generalizing fuel x with
  | zero =>
    obtain ⟨fuel, rfl⟩ : ∃ f, fuel = f + 1 := ⟨fuel - 1, by omega⟩
    rw [Function.iterate_zero_apply] at hfree
    rw [searchLoop_of_lookup_eq_none hfree]
    rfl
  | succ n ih =>
    obtain ⟨fuel, rfl⟩ : ∃ f, fuel = f + 1 := ⟨fuel - 1, by omega⟩
    simp only [searchLoop]
    split
    · rfl
    · exact ih (by omega) (by rwa [Function.iterate_succ_apply] at hfree)

/-- With fewer than `math.MaxInt64` keys, some key in `[0, math.MaxInt64)` is free. -/
theorem exists_free_key (h : pool.keys.length < 2 ^ 63 - 1) :
    ∃ k : Int64, 0 ≤ k.toInt ∧ k.toInt < 2 ^ 63 - 1 ∧ pool.lookup k = none := by
  by_contra hall
  push Not at hall
  -- otherwise the keys `0, …, math.MaxInt64 - 1` all lie in the pool
  have hsub : (Finset.range (2 ^ 63 - 1)).image (fun n : Nat => Int64.ofNat n) ⊆
      pool.keys.toFinset := by
    intro k hk
    obtain ⟨n, hn, rfl⟩ := Finset.mem_image.mp hk
    have hn' : n < 2 ^ 63 - 1 := Finset.mem_range.mp hn
    have hv := toInt_ofNat_of_lt (n := n) (by omega)
    rw [List.mem_toFinset, ← AList.mem_keys, ← AList.lookup_isSome]
    exact Option.isSome_iff_ne_none.mpr (hall _ (by omega) (by omega))
  have hinj : Set.InjOn (fun n : Nat => Int64.ofNat n) (Finset.range (2 ^ 63 - 1)) := by
    intro a ha b hb he
    have ha' : a < 2 ^ 63 - 1 := Finset.mem_range.mp ha
    have hb' : b < 2 ^ 63 - 1 := Finset.mem_range.mp hb
    exact ofNat_inj_of_lt (by omega) (by omega) he
  have hcard := Finset.card_le_card hsub
  rw [Finset.card_image_of_injOn hinj, Finset.card_range] at hcard
  have := List.toFinset_card_le pool.keys
  omega

variable {p p' : Ptr α} {pt : α} {key : Int64}

/-- `Set` ends whenever fewer than `math.MaxInt64` objects are live, from any index. -/
theorem Set_isSome (h : p.pool.keys.length < 2 ^ 63 - 1) : (p.Set pt).isSome := by
  obtain ⟨k, hk₀, hk, hfree⟩ := exists_free_key h
  obtain ⟨n, hn, hnk⟩ := exists_iterate_nextIndex p.index hk₀ hk
  rw [Set, Option.isSome_map]
  exact searchLoop_isSome hn (hnk ▸ hfree)

/-- What `Set` does: a key the pool does not hold takes the object, and `index` moves past it. -/
theorem Set_eq_some (h : p.Set pt = some (p', key)) :
    p.pool.lookup key = none ∧ p' = ⟨p.pool.insert key pt, key + 1⟩ := by
  obtain ⟨k, hk, he⟩ := Option.map_eq_some_iff.mp h
  obtain ⟨rfl, rfl⟩ := Prod.mk.inj he
  rw [Int64.add_sub_cancel]
  exact ⟨lookup_of_searchLoop hk, rfl⟩

/-- A pool whose `index` is taken searches on to the next key. -/
example : ((⟨AList.insert 0 5 ∅, 0⟩ : Ptr Nat).Set 6).map Prod.snd = some 1 := by
  decide +kernel

theorem step_cases {l : Op α} {evs : List PtrEvent} (h : p.step l = some (p', evs)) :
    (∃ pt key, l = .set pt ∧ p.Set pt = some (p', key) ∧ evs = [.set key]) ∨
      (∃ key, l = .del key ∧ p' = p.Del key ∧ evs = [.del key]) := by
  cases l with
  | set pt =>
    obtain ⟨⟨p₁, key⟩, hs, he⟩ := Option.map_eq_some_iff.mp h
    obtain ⟨rfl, rfl⟩ := Prod.mk.inj he
    exact .inl ⟨pt, key, rfl, hs, rfl⟩
  | del key =>
    obtain ⟨rfl, rfl⟩ := Prod.mk.inj (Option.some.inj h)
    exact .inr ⟨key, rfl, rfl, rfl⟩

/-! ### Every run -/

/-- On every run the pool holds exactly the live keys. -/
theorem mem_pool_iff_live {tr : List PtrEvent} (h : system.Reach p tr) :
    ∀ key, key ∈ p.pool ↔ live tr key = true := by
  refine h.induction_on (P := fun p tr => ∀ key, key ∈ p.pool ↔ live tr key = true) ?_ ?_
  · intro key
    simp [system, new, live, Lts.lastSome]
  · intro p tr l p' evs _ hp hs key
    rcases step_cases hs with ⟨pt, k, -, hset, rfl⟩ | ⟨k, -, rfl, rfl⟩
    · obtain ⟨-, rfl⟩ := Set_eq_some hset
      rw [live_set, AList.mem_insert, hp key, Bool.or_eq_true, decide_eq_true_eq,
        @eq_comm _ k key]
    · rw [live_del, Del, AList.mem_erase, hp key, Bool.and_eq_true, bne_iff_ne, ne_comm]

/-- On every run, `Set` never hands out a key that is live: two live objects never share a key. -/
theorem set_fresh {tr : List PtrEvent} (h : system.Reach p tr) :
    Lts.Allows (fun pre e => ∀ key, e = .set key → live pre key = false) tr := by
  refine h.induction_on (P := fun _ tr => Lts.Allows _ tr) (Lts.allows_nil _) ?_
  intro p tr l p' evs hr ha hs
  rcases step_cases hs with ⟨pt, k, -, hset, rfl⟩ | ⟨k, -, -, rfl⟩
  · refine Lts.allows_append_singleton.mpr ⟨ha, ?_⟩
    rintro key ⟨⟩
    have hfree := (Set_eq_some hset).1
    rw [AList.lookup_eq_none, mem_pool_iff_live hr] at hfree
    simpa using hfree
  · exact Lts.allows_append_singleton.mpr ⟨ha, fun _ he => by cases he⟩

/-- Two objects stored, the first deleted, a third stored: the keys handed out are `0, 1, 2`, none
of them live when handed out. -/
theorem set_fresh_after_del :
    ∃ p tr, (system : Lts (Ptr Nat) _ _).run system.init [.set 7, .set 8, .del 0, .set 9] =
        some (p, tr) ∧ tr = [.set 0, .set 1, .del 0, .set 2] ∧
      Lts.Allows (fun pre e => ∀ key, e = .set key → live pre key = false) tr := by
  have hrun : ((system : Lts (Ptr Nat) _ _).run system.init [.set 7, .set 8, .del 0, .set 9]).map
      Prod.snd = some [.set 0, .set 1, .del 0, .set 2] := by
    decide +kernel
  obtain ⟨⟨p, tr⟩, hr, rfl⟩ := Option.map_eq_some_iff.mp hrun
  exact ⟨p, _, hr, rfl, set_fresh (Lts.Reach.of_run hr)⟩

/-! ### Keys in order from the empty pool -/

/-- Every key of the pool lies in `[0, index)`. -/
structure Below (p : Ptr α) : Prop where
  nonneg : 0 ≤ p.index.toInt
  lt : ∀ k ∈ p.pool, 0 ≤ k.toInt ∧ k.toInt < p.index.toInt

theorem below_new : (new : Ptr α).Below where
  nonneg := by simp [new]
  lt k hk := by simp [new] at hk

theorem Below.lookup_index (hb : p.Below) : p.pool.lookup p.index = none := by
  rw [AList.lookup_eq_none]
  intro hm
  have := (hb.lt _ hm).2
  omega

/-- `Set` takes `index` at the first turn of its loop. -/
theorem Below.Set_eq (hb : p.Below) (pt : α) :
    p.Set pt = some (⟨p.pool.insert p.index pt, p.index + 1⟩, p.index) := by
  have hfuel : (2 : Nat) ^ 64 = 2 ^ 64 - 1 + 1 := by norm_num
  rw [Set, hfuel, searchLoop_of_lookup_eq_none hb.lookup_index, Option.map_some]
  simp only [Int64.add_sub_cancel]

theorem Below.Set (hb : p.Below) (hi : p.index.toInt < 2 ^ 63 - 1) (pt : α) :
    (⟨p.pool.insert p.index pt, p.index + 1⟩ : Ptr α).Below where
  nonneg := by
    rw [toInt_add_one hi]
    have := hb.nonneg
    omega
  lt k hk := by
    rw [toInt_add_one hi]
    rcases AList.mem_insert _ |>.mp hk with rfl | hk
    · exact ⟨hb.nonneg, by omega⟩
    · have := hb.lt k hk
      omega

theorem Below.Del (hb : p.Below) (key : Int64) : (p.Del key).Below where
  nonneg := hb.nonneg
  lt k hk := hb.lt k (AList.mem_erase.mp hk).2

theorem handedOut_append (tr evs : List PtrEvent) :
    handedOut (tr ++ evs) = handedOut tr ++ handedOut evs := by
  simp [handedOut, List.filterMap_append]

end Ptr

end GoQuic
