import Mathlib.Data.List.Nodup
import Mathlib.Data.List.Pairwise

/-!
# Maps that iterate in insertion order

A linked hash map: a map whose iteration order is the order in which its keys were inserted.
`emplace` appends an absent key and leaves a present one alone, `erase` removes a key wherever
it stands, `front?` is the oldest entry and `popFront` removes it. The entries are a list that
carries one entry per key as a field.

Every operation but `emplace` leaves the entries a sublist of what they were, so an order on
the entries (`List.Pairwise`) survives them, and `emplace` keeps it when the new entry comes
after every entry present. On entries so ordered, erasing the oldest entry while a predicate
closed under going back in the order holds removes exactly the entries that satisfy it
(`entries_popWhile`). `find?` reads the one entry of a key (`find?_eq_some_iff`), which a sublist
of the entries keeps.
-/

/-- A map from `K` to `V` in insertion order. -/
structure LinkedHashMap (K V : Type) where
  entries : List (K × V)
  nodup : (entries.map Prod.fst).Nodup

namespace LinkedHashMap

variable {K V : Type}

/-- The empty map. -/
def empty : LinkedHashMap K V := ⟨[], List.nodup_nil⟩

/-- The number of entries. -/
def size (m : LinkedHashMap K V) : Nat := m.entries.length

/-- The oldest entry. -/
def front? (m : LinkedHashMap K V) : Option (K × V) := m.entries.head?

/-- Remove the oldest entry. -/
def popFront (m : LinkedHashMap K V) : LinkedHashMap K V :=
  ⟨m.entries.tail, m.nodup.sublist ((List.tail_sublist _).map _)⟩

/-- Erase the oldest entry while there is one and `p` holds of it. -/
def popWhile (m : LinkedHashMap K V) (p : K × V → Bool) : LinkedHashMap K V :=
  ⟨m.entries.dropWhile p, m.nodup.sublist ((List.dropWhile_suffix _).sublist.map _)⟩

theorem size_popFront_lt {m : LinkedHashMap K V} (h : m.entries ≠ []) :
    m.popFront.size < m.size := by
  simp only [size, popFront, List.length_tail]
  have := List.length_pos_iff.mpr h
  omega

/-- Erasing while `p` holds, on entries ordered by `R` with `p` closed under going back along
`R`, removes exactly the entries that satisfy `p`. -/
theorem entries_popWhile {m : LinkedHashMap K V} {R : K × V → K × V → Prop}
    (hs : m.entries.Pairwise R) {p : K × V → Bool}
    (hp : ∀ a b, R a b → p b = true → p a = true) :
    (m.popWhile p).entries = m.entries.filter fun e => !p e := by
  obtain ⟨l, _⟩ := m
  simp only [popWhile] at hs ⊢
  induction l with
  | nil => rfl
  | cons e es ih =>
    rw [List.pairwise_cons] at hs
    by_cases he : p e = true
    · rw [List.dropWhile_cons_of_pos he, List.filter_cons_of_neg (by simp [he])]
      exact ih ((List.nodup_cons.mp ‹_›).2) hs.2
    · -- no later entry satisfies `p`, since `e` does not
      have hrest : ∀ b ∈ es, p b = false := fun b hb =>
        Bool.eq_false_iff.mpr fun hb' => he (hp e b (hs.1 b hb) hb')
      rw [List.dropWhile_cons_of_neg he, List.filter_cons_of_pos (by simpa using he),
        List.filter_eq_self.mpr (by simpa using hrest)]

variable [DecidableEq K]

/-- The value stored under `k`. -/
def find? (m : LinkedHashMap K V) (k : K) : Option V :=
  (m.entries.find? (·.1 = k)).map Prod.snd

/-- Remove the entry of `k`, keeping the order of the others. -/
def erase (m : LinkedHashMap K V) (k : K) : LinkedHashMap K V :=
  ⟨m.entries.filter (·.1 ≠ k), m.nodup.sublist (List.filter_sublist.map _)⟩

/-- Insert `k` at the end if it is absent; leave the map alone if it is present. -/
def emplace (m : LinkedHashMap K V) (k : K) (v : V) : LinkedHashMap K V :=
  if h : k ∈ m.entries.map Prod.fst then m
  else ⟨m.entries ++ [(k, v)], by
    rw [List.map_append, List.map_singleton, ← List.concat_eq_append]
    exact m.nodup.concat h⟩

/-- Apply `f` to the value of `k` in place. -/
def modify (m : LinkedHashMap K V) (k : K) (f : V → V) : LinkedHashMap K V :=
  ⟨m.entries.map fun e => if e.1 = k then (e.1, f e.2) else e, by
    have hkeys : (m.entries.map fun e => if e.1 = k then (e.1, f e.2) else e).map Prod.fst =
        m.entries.map Prod.fst := by
      rw [List.map_map]
      apply List.map_congr_left
      intro e _
      by_cases h : e.1 = k <;> simp [h]
    rw [hkeys]
    exact m.nodup⟩

variable {m m' : LinkedHashMap K V} {k k' : K} {v : V}

theorem entries_modify (f : V → V) :
    (m.modify k f).entries = m.entries.map fun e => if e.1 = k then (e.1, f e.2) else e := rfl

/-! ### Looking a key up -/

/-- The value under `k` is that of the entry of `k`: there is one entry per key. -/
theorem find?_eq_some_iff : m.find? k = some v ↔ (k, v) ∈ m.entries := by
  constructor
  · intro h
    obtain ⟨e, he, rfl⟩ := Option.map_eq_some_iff.mp h
    have hk : e.1 = k := by simpa using List.find?_some he
    rw [← hk]
    exact List.mem_of_find?_eq_some he
  · intro h
    obtain ⟨e, he⟩ : ∃ e, m.entries.find? (·.1 = k) = some e := by
      cases hf : m.entries.find? (·.1 = k) with
      | none => exact absurd (List.find?_eq_none.mp hf (k, v) h) (by simp)
      | some e => exact ⟨e, rfl⟩
    have hk : e.1 = k := by simpa using List.find?_some he
    have heq : e = (k, v) :=
      List.inj_on_of_nodup_map m.nodup (List.mem_of_find?_eq_some he) h hk
    simp [find?, he, heq]

theorem find?_eq_none_iff : m.find? k = none ↔ k ∉ m.entries.map Prod.fst := by
  rw [← not_iff_not, ← ne_eq, Option.ne_none_iff_exists', not_not, List.mem_map]
  constructor
  · rintro ⟨v, hv⟩
    exact ⟨(k, v), find?_eq_some_iff.mp hv, rfl⟩
  · rintro ⟨⟨k₀, v⟩, hm, rfl⟩
    exact ⟨v, find?_eq_some_iff.mpr hm⟩

/-- An entry of a map whose entries are among those of another is an entry of that one. -/
theorem find?_of_sublist (h : List.Sublist m'.entries m.entries) (hv : m'.find? k = some v) :
    m.find? k = some v :=
  find?_eq_some_iff.mpr (h.subset (find?_eq_some_iff.mp hv))

/-- So the two maps agree on every key the smaller one holds. -/
theorem find?_eq_of_sublist (h : List.Sublist m'.entries m.entries) (hk : (m'.find? k).isSome) :
    m'.find? k = m.find? k := by
  obtain ⟨v, hv⟩ := Option.isSome_iff_exists.mp hk
  rw [hv, find?_of_sublist h hv]

theorem find?_modify_self (f : V → V) : (m.modify k f).find? k = (m.find? k).map f := by
  simp only [find?, entries_modify, List.find?_map, Option.map_map]
  have hp : ((fun e : K × V => decide (e.1 = k)) ∘ fun e => if e.1 = k then (e.1, f e.2) else e) =
      fun e => decide (e.1 = k) := by
    funext e
    by_cases he : e.1 = k <;> simp [he]
  rw [hp]
  cases hf : m.entries.find? (·.1 = k) with
  | none => rfl
  | some e =>
    have hk : e.1 = k := by simpa using List.find?_some hf
    simp [hk]

theorem find?_modify_of_ne (f : V → V) (h : k' ≠ k) : (m.modify k f).find? k' = m.find? k' := by
  simp only [find?, entries_modify, List.find?_map, Option.map_map]
  have hp : ((fun e : K × V => decide (e.1 = k')) ∘ fun e => if e.1 = k then (e.1, f e.2) else e) =
      fun e => decide (e.1 = k') := by
    funext e
    by_cases he : e.1 = k <;> simp [he]
  rw [hp]
  cases hf : m.entries.find? (·.1 = k') with
  | none => rfl
  | some e =>
    -- the entry found is that of `k'`, which `f` does not touch
    have hk : e.1 = k' := by simpa using List.find?_some hf
    have hne : ¬e.1 = k := hk ▸ h
    simp [hne]

theorem find?_emplace_self (h : k ∉ m.entries.map Prod.fst) : (m.emplace k v).find? k = some v := by
  rw [find?_eq_some_iff, emplace, dif_neg h]
  simp

theorem find?_emplace_of_ne (h : k' ≠ k) : (m.emplace k v).find? k' = m.find? k' := by
  unfold emplace
  split
  · rfl
  · apply Option.ext
    intro v'
    rw [find?_eq_some_iff, find?_eq_some_iff]
    simp [h]

theorem entries_erase_sublist : List.Sublist (m.erase k).entries m.entries := List.filter_sublist

theorem find?_erase_self : (m.erase k).find? k = none := by
  rw [find?_eq_none_iff]
  simp [erase]

/-- Erasing an absent key changes nothing. -/
theorem erase_of_find?_eq_none (h : m.find? k = none) : m.erase k = m := by
  have hk := find?_eq_none_iff.mp h
  obtain ⟨es, hnodup⟩ := m
  simp only [erase, mk.injEq]
  apply List.filter_eq_self.mpr
  intro e he
  have : e.1 ≠ k := fun hek => hk (List.mem_map.mpr ⟨e, he, hek⟩)
  simpa using this

/-- `emplace` of an absent key appends its entry. -/
theorem entries_emplace_of_not_mem (h : k ∉ m.entries.map Prod.fst) :
    (m.emplace k v).entries = m.entries ++ [(k, v)] := by
  rw [emplace, dif_neg h]

end LinkedHashMap
