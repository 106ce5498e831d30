import Mathlib.Logic.Basic

/-!
# Systems that emit events

A deterministic labelled transition system whose steps may be refused and emit events: the
reachable states come with the trace of events that led to them. A safety property of the
traces is proved with `Reach.induction_on`, from an invariant of the pair of state and trace
that every step keeps; a run on an explicit list of labels is computed by `run` and reached by
`Reach.of_run`. A measure gives the two halves of progress: a run that reaches a goal, when some
step always lowers it (`exists_run_of_progress`), and no run that changes the state for ever,
when each step keeps the state or lowers it (`run_eq_or_lt`). A run that stays where a predicate
holds (`Within`) raises a counter once per label of a kind (`run_countP`). `restrict`
keeps the steps on the labels a predicate allows, and `beside` runs a second component that each
step updates.

The safety properties are of one shape, `Allows`: every event of the trace is allowed by the
events before it. What the past says is read with `lastSome` (the latest event that carries a
value) and `afterLast` (the events since the latest one of a kind).
-/

/-- A system over states `Q`, labels `L` and events `E`: a step on a label is refused (`none`)
or reaches a state and emits events. -/
structure Lts (Q L E : Type) where
  init : Q
  step : Q → L → Option (Q × List E)

namespace Lts

variable {Q L E : Type} (S : Lts Q L E)

/-- The states the system reaches, each with the trace of events that led to it. -/
inductive Reach : Q → List E → Prop
  | init : Reach S.init []
  | step {q : Q} {tr : List E} {l : L} {q' : Q} {evs : List E} :
      Reach q tr → S.step q l = some (q', evs) → Reach q' (tr ++ evs)

/-- Take the labels in order, stopping at the first refused step. -/
def run (q : Q) : List L → Option (Q × List E)
  | [] => some (q, [])
  | l :: ls =>
    match S.step q l with
    | none => none
    | some (q', evs) => (run q' ls).map fun r => (r.1, evs ++ r.2)

variable {S}

/-- The induction rule: a property of state and trace that holds initially and that every step
keeps holds of everything reached. -/
theorem Reach.induction_on {P : Q → List E → Prop} {q : Q} {tr : List E} (h : Reach S q tr)
    (h0 : P S.init [])
    (hs : ∀ q tr l q' evs, Reach S q tr → P q tr → S.step q l = some (q', evs) →
      P q' (tr ++ evs)) : P q tr := by
  induction h with
  | init => exact h0
  | step hr hstep ih => exact hs _ _ _ _ _ hr ih hstep

/-- An invariant of the states alone. -/
theorem Reach.invariant {I : Q → Prop} {q : Q} {tr : List E} (h : Reach S q tr) (h0 : I S.init)
    (hs : ∀ q l q' evs, I q → S.step q l = some (q', evs) → I q') : I q :=
  h.induction_on (P := fun q _ => I q) h0 fun _ _ l _ _ _ hi hstep => hs _ l _ _ hi hstep

/-- A run on `l :: ls` is a step on `l`, then a run on `ls`. -/
theorem run_cons_eq_some {q q' : Q} {l : L} {ls : List L} {tr : List E}
    (hr : S.run q (l :: ls) = some (q', tr)) :
    ∃ q₁ evs tr₂, S.step q l = some (q₁, evs) ∧ S.run q₁ ls = some (q', tr₂) ∧
      tr = evs ++ tr₂ := by
  simp only [run] at hr
  split at hr
  · cases hr
  · next q₁ evs hstep =>
    obtain ⟨⟨q₂, tr₂⟩, hrest, he⟩ := Option.map_eq_some_iff.mp hr
    cases he
    exact ⟨q₁, evs, tr₂, hstep, hrest, rfl⟩

/-- A run on `ls ++ ls'` is a run on `ls`, then a run on `ls'` from where it ends. -/
theorem run_append_eq_some {q q' : Q} {ls ls' : List L} {tr : List E}
    (hr : S.run q (ls ++ ls') = some (q', tr)) :
    ∃ q₁ tr₁ tr₂, S.run q ls = some (q₁, tr₁) ∧ S.run q₁ ls' = some (q', tr₂) ∧
      tr = tr₁ ++ tr₂ := by
  induction ls generalizing q tr with
  | nil => exact ⟨q, [], tr, rfl, hr, rfl⟩
  | cons l ls ih =>
    obtain ⟨q₂, evs, tr₂, hstep, hrest, rfl⟩ := run_cons_eq_some hr
    obtain ⟨q₁, tr₁, tr₃, h₁, h₂, rfl⟩ := ih hrest
    refine ⟨q₁, evs ++ tr₁, tr₃, ?_, h₂, (List.append_assoc _ _ _).symm⟩
    simp [run, hstep, h₁]

theorem Reach.run {q : Q} {tr : List E} (h : Reach S q tr) {ls : List L} {q' : Q}
    {tr' : List E} (hr : S.run q ls = some (q', tr')) : Reach S q' (tr ++ tr') := by
  induction ls generalizing q tr tr' with
  | nil =>
    simp only [Lts.run, Option.some.injEq, Prod.mk.injEq] at hr
    obtain ⟨rfl, rfl⟩ := hr
    rw [List.append_nil]
    exact h
  | cons l ls ih =>
    obtain ⟨q₁, evs, tr₂, hstep, hrest, rfl⟩ := run_cons_eq_some hr
    rw [← List.append_assoc]
    exact ih (h.step hstep) hrest

/-- A run from the initial state reaches its end. -/
theorem Reach.of_run {ls : List L} {q : Q} {tr : List E} (hr : S.run S.init ls = some (q, tr)) :
    Reach S q tr := by
  simpa using Reach.init.run hr

/-- The rule of a measure: if from every state where `I` holds some step either ends in the goal
`G` or keeps `I` and lowers `μ`, then from every such state some run ends with a step into the
goal. -/
theorem exists_run_of_progress {I : Q → Prop} {G : Q → List E → Prop} (μ : Q → Nat)
    (hp : ∀ q, I q → ∃ l q' evs, S.step q l = some (q', evs) ∧ (G q' evs ∨ I q' ∧ μ q' < μ q))
    {q : Q} (hq : I q) : ∃ ls q' tr evs, S.run q ls = some (q', tr ++ evs) ∧ G q' evs := by
  induction hm : μ q using Nat.strongRecOn generalizing q with
  | _ n ih =>
    obtain ⟨l, q₁, evs, hs, hg | ⟨hq₁, hlt⟩⟩ := hp q hq
    · exact ⟨[l], q₁, [], evs, by simp [run, hs], hg⟩
    · -- the rest of the run, from a state of lower measure
      obtain ⟨ls, q', tr, evs', hr, hg⟩ := ih _ (hm ▸ hlt) hq₁ rfl
      exact ⟨l :: ls, q', evs ++ tr, evs', by simp [run, hs, hr], hg⟩

/-- If every step from a state where `I` holds keeps `I` and leaves the state as it is or lowers
`μ`, then so does every run: no run from such a state changes it more than `μ` times. -/
theorem run_eq_or_lt {I : Q → Prop} (μ : Q → Nat)
    (hs : ∀ q l q' evs, I q → S.step q l = some (q', evs) → I q' ∧ (q' = q ∨ μ q' < μ q))
    {q : Q} (hq : I q) {ls : List L} {q' : Q} {tr : List E} (hr : S.run q ls = some (q', tr)) :
    q' = q ∨ μ q' < μ q := by
  induction ls generalizing q tr with
  | nil =>
    simp only [run, Option.some.injEq, Prod.mk.injEq] at hr
    exact .inl hr.1.symm
  | cons l ls ih =>
    obtain ⟨q₁, evs, tr₂, hstep, hrest, -⟩ := run_cons_eq_some hr
    obtain ⟨hq₁, h₁⟩ := hs q l q₁ evs hq hstep
    -- the first step and the rest of the run each stay put or go down
    rcases ih hq₁ hrest with rfl | hlt
    · exact h₁
    · rcases h₁ with rfl | hlt₁
      · exact .inr hlt
      · exact .inr (Nat.lt_trans hlt hlt₁)

variable (S) in
/-- Every state the run from `q` on `ls` passes through satisfies `p`, the first and the last
included, up to the first refused step. -/
def Within (p : Q → Bool) (q : Q) : List L → Bool
  | [] => p q
  | l :: ls =>
    p q && match S.step q l with
      | none => true
      | some (q', _) => Within p q' ls

theorem Within.head {p : Q → Bool} {q : Q} {ls : List L} (h : S.Within p q ls = true) :
    p q = true := by
  cases ls with
  | nil => exact h
  | cons l ls => exact (Bool.and_eq_true_iff.mp h).1

theorem Within.tail {p : Q → Bool} {q q' : Q} {l : L} {ls : List L} {evs : List E}
    (h : S.Within p q (l :: ls) = true) (hs : S.step q l = some (q', evs)) :
    S.Within p q' ls = true := by
  simp only [Within, hs, Bool.and_eq_true] at h
  exact h.2

/-- Along a run that stays where `p` holds, a counter that each step raises by one on the labels
`b` picks, and leaves alone on the others, ends up raised by the number of those labels. -/
theorem run_countP {p : Q → Bool} (f : Q → Nat) (b : L → Bool)
    (hs : ∀ q l q' evs, p q = true → p q' = true → S.step q l = some (q', evs) →
      f q' = f q + if b l then 1 else 0)
    {q q' : Q} {ls : List L} {tr : List E} (hw : S.Within p q ls = true)
    (hr : S.run q ls = some (q', tr)) : f q' = f q + ls.countP b := by
  induction ls generalizing q tr with
  | nil =>
    simp only [run, Option.some.injEq, Prod.mk.injEq] at hr
    rw [← hr.1]
    simp
  | cons l ls ih =>
    obtain ⟨q₁, evs, tr₂, hstep, hrest, -⟩ := run_cons_eq_some hr
    have hw₁ := Within.tail hw hstep
    -- the first step, then the rest of the run from where it lands
    rw [ih hw₁ hrest, hs q l q₁ evs (Within.head hw) (Within.head hw₁) hstep, List.countP_cons]
    omega

variable (S) in
/-- The system that takes only the labels `p` allows. -/
def restrict (p : L → Prop) [DecidablePred p] : Lts Q L E :=
  ⟨S.init, fun q l => if p l then S.step q l else none⟩

theorem restrict_step_eq_some {p : L → Prop} [DecidablePred p] {q q' : Q} {l : L} {evs : List E}
    (h : (S.restrict p).step q l = some (q', evs)) : p l ∧ S.step q l = some (q', evs) := by
  simp only [restrict] at h
  split at h
  · next hp => exact ⟨hp, h⟩
  · cases h

/-- The runs of the system restricted to some labels are runs of the system. -/
theorem Reach.of_restrict {p : L → Prop} [DecidablePred p] {q : Q} {tr : List E}
    (h : (S.restrict p).Reach q tr) : S.Reach q tr :=
  h.induction_on (P := fun q tr => S.Reach q tr) .init
    fun _ _ _ _ _ _ hr hs => hr.step (restrict_step_eq_some hs).2

/-! ### A component beside a system -/

section Beside

variable {R : Type}

variable (S) in
/-- `S` with a second component, which each step of `S` updates from its label and events; the
update may refuse the step. -/
def beside (r₀ : R) (update : R → L → List E → Option R) : Lts (Q × R) L E :=
  ⟨(S.init, r₀), fun q l =>
    (S.step q.1 l).bind fun r => (update q.2 l r.2).map fun x => ((r.1, x), r.2)⟩

variable {r₀ : R} {update : R → L → List E → Option R}

theorem beside_step_eq_some {q q' : Q × R} {l : L} {evs : List E}
    (h : (S.beside r₀ update).step q l = some (q', evs)) :
    S.step q.1 l = some (q'.1, evs) ∧ update q.2 l evs = some q'.2 := by
  obtain ⟨⟨q₁, evs₁⟩, hs, hu⟩ := Option.bind_eq_some_iff.mp h
  obtain ⟨x, hx, he⟩ := Option.map_eq_some_iff.mp hu
  cases he
  exact ⟨hs, hx⟩

/-- The runs of `S` with a component beside it are runs of `S`. -/
theorem Reach.fst {q : Q × R} {tr : List E} (h : (S.beside r₀ update).Reach q tr) :
    S.Reach q.1 tr :=
  h.induction_on (P := fun q tr => S.Reach q.1 tr) .init
    fun _ _ _ _ _ _ hr hs => hr.step (beside_step_eq_some hs).1

end Beside

/-! ### Traces and their past -/

section History

variable {E : Type} {P : List E → E → Prop} {tr evs : List E} {e : E}

/-- Every event of `tr` is allowed by `P`, given the events before it. -/
def Allows (P : List E → E → Prop) (tr : List E) : Prop :=
  ∀ pre e post, tr = pre ++ e :: post → P pre e

theorem allows_nil (P : List E → E → Prop) : Allows P [] := by
  intro pre e post h
  simp at h

theorem allows_append_singleton : Allows P (tr ++ [e]) ↔ Allows P tr ∧ P tr e := by
  constructor
  · intro h
    refine ⟨fun pre e' post ht => h pre e' (post ++ [e]) (by rw [ht]; simp), h tr e [] rfl⟩
  · rintro ⟨h, he⟩ pre e' post ht
    rcases List.eq_nil_or_concat post with rfl | ⟨post', y, rfl⟩
    · -- the last event
      obtain ⟨rfl, h₂⟩ := List.append_inj' ht rfl
      obtain rfl := List.singleton_inj.mp h₂
      exact he
    · have ht' : tr ++ [e] = (pre ++ e' :: post') ++ [y] := by simpa using ht
      exact h pre e' post' (List.append_inj' ht' rfl).1

/-- Events that every history allows may be appended. -/
theorem Allows.append (h : Allows P tr) (hevs : ∀ e ∈ evs, ∀ pre, P pre e) :
    Allows P (tr ++ evs) := by
  induction evs generalizing tr with
  | nil => simpa using h
  | cons e evs ih =>
    have h' : Allows P (tr ++ [e]) := allows_append_singleton.mpr ⟨h, hevs e (by simp) _⟩
    have := ih h' fun e' he' => hevs e' (List.mem_cons_of_mem _ he')
    simpa using this

/-- The value of the latest event of `tr` that carries one. -/
def lastSome {α : Type} (f : E → Option α) (tr : List E) : Option α := tr.reverse.findSome? f

theorem lastSome_append_singleton {α : Type} (f : E → Option α) :
    lastSome f (tr ++ [e]) = (f e).or (lastSome f tr) := by
  simp only [lastSome, List.reverse_append, List.reverse_singleton, List.singleton_append,
    List.findSome?_cons]
  cases f e <;> rfl

/-- Events that carry no value leave the latest value as it was. -/
theorem lastSome_append_of_none {α : Type} {f : E → Option α} (h : ∀ e ∈ evs, f e = none) :
    lastSome f (tr ++ evs) = lastSome f tr := by
  simp only [lastSome, List.reverse_append, List.findSome?_append]
  rw [List.findSome?_eq_none_iff.mpr fun e he => h e (List.mem_reverse.mp he)]
  rfl

/-- The events of `tr` after the latest one that satisfies `p`; all of `tr` when none does. -/
def afterLast (p : E → Bool) (tr : List E) : List E :=
  (tr.reverse.takeWhile fun e => !p e).reverse

theorem afterLast_append_singleton (p : E → Bool) :
    afterLast p (tr ++ [e]) = if p e then [] else afterLast p tr ++ [e] := by
  simp only [afterLast, List.reverse_append, List.reverse_singleton, List.singleton_append,
    List.takeWhile_cons]
  cases p e <;> simp

theorem afterLast_subset (p : E → Bool) (tr : List E) : ∀ e ∈ afterLast p tr, e ∈ tr := by
  intro e he
  simp only [afterLast, List.mem_reverse] at he
  exact List.mem_reverse.mp (List.takeWhile_subset _ he)

end History

end Lts
