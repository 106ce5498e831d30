import GoQuic.Trace.Reach

/-!
# The ephemeral key source

`GoEphemeralKeySource` (`go_ephemeral_key_source.cc:9–27`) is the key source that
`init_crypto_config` (`adaptor.cc:149–151`) installs in every dispatcher's crypto config. For each
handshake `CalculateForwardSecureKey` hands out a forward-secure key pair: it keeps one pair, and
draws a new one with `key_exchange->NewKeyPair(rand)` when it has none or when the one it has is
more than 10 seconds old. The key exchange, its key pairs and `QuicRandom` are libquic's, and
only what the key source asks of them is modelled (`KeyExchange`), with the one assumption that
`NewKeyPair` returns a pair of its own algorithm. Times are `QuicTime` microseconds.

Each call gets a pair at most 10 seconds old (`age_le_ten`), and a run whose calls all ask for one
algorithm gets pairs of that algorithm (`keyPair_tag_of_single_algorithm`). But the cache is kept
by age alone (`forwardSecureKey_of_fresh`): a call that asks for another algorithm within 10
seconds gets the cached pair of the first (`key_algorithm_mismatch`).
-/

namespace GoQuic

/-- What the key source asks of libquic's `KeyExchange`: its algorithm (`tag()`), `public_value()`,
`CalculateSharedKey` with a peer's public value, and `NewKeyPair`, which draws a new pair from the
random source. `NewKeyPair` returns a pair of its own algorithm. -/
structure KeyExchange (K R T : Type) where
  tag : K → T
  publicValue : K → List UInt8
  calculateSharedKey : K → List UInt8 → List UInt8
  newKeyPair : K → R → K
  tag_newKeyPair : ∀ k rand, tag (newKeyPair k rand) = tag k

/-- `QuicTime::Delta::ToSeconds`: microseconds to whole seconds, truncated toward zero. -/
def ToSeconds (delta : Int) : Int := delta.tdiv 1000000

/-- `GoEphemeralKeySource` (`go_ephemeral_key_source.h:11–24`). -/
structure GoEphemeralKeySource (K : Type) where
  forwardSecureKeyExchange : Option K
  keyCreatedTime : Int

/-- A call of `CalculateForwardSecureKey`: the key exchange of the algorithm the handshake
negotiated, the random source, the time, and the peer's public value. -/
inductive KeySourceCall (K R : Type) where
  | calculateForwardSecureKey (keyExchange : K) (rand : R) (now : Int)
      (peerPublicValue : List UInt8)

/-- The key exchange a call is given. -/
def KeySourceCall.keyExchange {K R : Type} : KeySourceCall K R → K
  | .calculateForwardSecureKey keyExchange _ _ _ => keyExchange

/-- What a call hands out: the public value and the premaster secret it returns, with the key
pair that computed them, the time that pair was drawn, and what the call asked for. -/
structure ForwardSecureKey (K : Type) where
  keyExchange : K
  now : Int
  keyPair : K
  keyCreatedTime : Int
  publicValue : List UInt8
  premasterSecret : List UInt8

namespace GoEphemeralKeySource

variable {K R T : Type} (kx : KeyExchange K R T)

/-- The constructor (`go_ephemeral_key_source.cc:5–7`): no pair, created at `QuicTime::Zero()`. -/
def new : GoEphemeralKeySource K := ⟨none, 0⟩

/-- The cache of `CalculateForwardSecureKey` (`15–19`): the pair the call uses, and the source
after it. A new pair is drawn when there is none or the one kept is more than 10 seconds old. -/
def forwardSecureKey (s : GoEphemeralKeySource K) (keyExchange : K) (rand : R) (now : Int) :
    K × GoEphemeralKeySource K :=
  match s.forwardSecureKeyExchange with
  | some k =>
    if ToSeconds (now - s.keyCreatedTime) > 10 then
      (kx.newKeyPair keyExchange rand, ⟨some (kx.newKeyPair keyExchange rand), now⟩)
    else (k, s)
  -- `forward_secure_key_exchange_.get() == nullptr`
  | none => (kx.newKeyPair keyExchange rand, ⟨some (kx.newKeyPair keyExchange rand), now⟩)

/-- `CalculateForwardSecureKey` (`9–27`): the source after the call, the public value it writes
to `public_value`, and the premaster secret it returns. -/
def CalculateForwardSecureKey (s : GoEphemeralKeySource K) (keyExchange : K) (rand : R)
    (now : Int) (peerPublicValue : List UInt8) :
    GoEphemeralKeySource K × List UInt8 × List UInt8 :=
  let r := s.forwardSecureKey kx keyExchange rand now
  (r.2, kx.publicValue r.1, kx.calculateSharedKey r.1 peerPublicValue)

/-- One call on the key source. -/
def step (s : GoEphemeralKeySource K) :
    KeySourceCall K R → Option (GoEphemeralKeySource K × List (ForwardSecureKey K))
  | .calculateForwardSecureKey keyExchange rand now peerPublicValue =>
    let r := s.CalculateForwardSecureKey kx keyExchange rand now peerPublicValue
    some (r.1, [⟨keyExchange, now, (s.forwardSecureKey kx keyExchange rand now).1,
      r.1.keyCreatedTime, r.2.1, r.2.2⟩])

/-- The key source of a dispatcher, from its construction under any calls. -/
def system : Lts (GoEphemeralKeySource K) (KeySourceCall K R) (ForwardSecureKey K) :=
  ⟨new, step kx⟩

/-! ### One call -/

variable {kx} {s : GoEphemeralKeySource K} {keyExchange : K} {rand : R} {now : Int}

variable (kx) in
/-- A call keeps the pair it has, when that pair is at most 10 seconds old, or draws a new one
from the key exchange it is given. -/
theorem forwardSecureKey_cases (s : GoEphemeralKeySource K) (keyExchange : K) (rand : R)
    (now : Int) :
    (∃ k, s.forwardSecureKeyExchange = some k ∧ ToSeconds (now - s.keyCreatedTime) ≤ 10 ∧
      s.forwardSecureKey kx keyExchange rand now = (k, s)) ∨
    s.forwardSecureKey kx keyExchange rand now =
      (kx.newKeyPair keyExchange rand, ⟨some (kx.newKeyPair keyExchange rand), now⟩) := by
  unfold forwardSecureKey
  cases hk : s.forwardSecureKeyExchange with
  | none => exact .inr rfl
  | some k =>
    by_cases hage : ToSeconds (now - s.keyCreatedTime) > 10
    · exact .inr (if_pos hage)
    · exact .inl ⟨k, rfl, Int.not_lt.mp hage, if_neg hage⟩

/-- The cache is kept by age alone: a pair at most 10 seconds old is handed out whatever key
exchange the call is given. -/
theorem forwardSecureKey_of_fresh {k : K} (hk : s.forwardSecureKeyExchange = some k)
    (hage : ToSeconds (now - s.keyCreatedTime) ≤ 10) :
    s.forwardSecureKey kx keyExchange rand now = (k, s) := by
  unfold forwardSecureKey
  rw [hk]
  exact if_neg (Int.not_lt.mpr hage)

/-- The pair a call uses is at most 10 seconds old, and it is the one kept after the call. -/
theorem forwardSecureKey_kept :
    ToSeconds (now - (s.forwardSecureKey kx keyExchange rand now).2.keyCreatedTime) ≤ 10 ∧
      (s.forwardSecureKey kx keyExchange rand now).2.forwardSecureKeyExchange =
        some (s.forwardSecureKey kx keyExchange rand now).1 := by
  rcases forwardSecureKey_cases kx s keyExchange rand now with ⟨k, hk, hage, he⟩ | he
  · rw [he]
    exact ⟨hage, hk⟩
  · rw [he]
    exact ⟨by simp [ToSeconds], rfl⟩

/-- A call whose key exchange and cached pair are of one algorithm uses, and keeps, a pair of that
algorithm: `NewKeyPair` draws pairs of its own algorithm. -/
theorem tag_forwardSecureKey {τ : T} (hs : ∀ k ∈ s.forwardSecureKeyExchange, kx.tag k = τ)
    (hkx : kx.tag keyExchange = τ) :
    kx.tag (s.forwardSecureKey kx keyExchange rand now).1 = τ := by
  rcases forwardSecureKey_cases kx s keyExchange rand now with ⟨k, hk, -, he⟩ | he
  · rw [he]
    exact hs k hk
  · rw [he, kx.tag_newKeyPair]
    exact hkx

theorem step_calculateForwardSecureKey (peerPublicValue : List UInt8) :
    step kx s (.calculateForwardSecureKey keyExchange rand now peerPublicValue) =
      some ((s.forwardSecureKey kx keyExchange rand now).2,
        [⟨keyExchange, now, (s.forwardSecureKey kx keyExchange rand now).1,
          (s.forwardSecureKey kx keyExchange rand now).2.keyCreatedTime,
          kx.publicValue (s.forwardSecureKey kx keyExchange rand now).1,
          kx.calculateSharedKey (s.forwardSecureKey kx keyExchange rand now).1 peerPublicValue⟩]) :=
  rfl

@[simp] theorem system_init : (system (R := R) kx).init = new := rfl

@[simp] theorem system_step : (system (R := R) kx).step = step kx := rfl

/-- A key exchange whose pairs are the tag of their algorithm and the bytes drawn for them. -/
def taggedKeyExchange : KeyExchange (UInt32 × List UInt8) (List UInt8) UInt32 where
  tag k := k.1
  publicValue k := k.2
  calculateSharedKey k peer := k.2 ++ peer
  newKeyPair k rand := (k.1, rand)
  tag_newKeyPair _ _ := rfl

/-! ### Every run -/

section SingleAlgorithm

variable [DecidableEq T] (τ : T)

variable (kx) in
/-- The cached pair, if any, and every pair handed out are of algorithm `τ`. -/
def OfAlgorithm (s : GoEphemeralKeySource K) (tr : List (ForwardSecureKey K)) : Prop :=
  (∀ k ∈ s.forwardSecureKeyExchange, kx.tag k = τ) ∧ ∀ e ∈ tr, kx.tag e.keyPair = τ

/-- On a run whose calls all ask for algorithm `τ`, every pair handed out is of algorithm `τ`. -/
theorem keyPair_tag_of_single_algorithm {tr : List (ForwardSecureKey K)}
    (h : ((system (R := R) kx).restrict fun l => kx.tag l.keyExchange = τ).Reach s tr) :
    ∀ e ∈ tr, kx.tag e.keyPair = τ := by
  refine (h.induction_on (P := OfAlgorithm kx τ) ⟨by simp [Lts.restrict, new], by simp⟩ ?_).2
  intro q tr l q' evs _ hi hs
  obtain ⟨hl, hs⟩ := Lts.restrict_step_eq_some hs
  obtain ⟨keyExchange, rand, now, peer⟩ := l
  rw [system_step, step_calculateForwardSecureKey, Option.some.injEq] at hs
  obtain ⟨rfl, rfl⟩ := Prod.mk.inj hs
  -- the pair used is of algorithm `τ`, and it is the one kept
  have hused : kx.tag (q.forwardSecureKey kx keyExchange rand now).1 = τ :=
    tag_forwardSecureKey hi.1 hl
  refine ⟨?_, ?_⟩
  · intro k hk
    rw [forwardSecureKey_kept.2, Option.mem_some_iff] at hk
    rw [← hk]
    exact hused
  · intro e he
    rcases List.mem_append.mp he with he | he
    · exact hi.2 e he
    · rw [List.mem_singleton.mp he]
      exact hused

/-- Two Curve25519 handshakes more than 10 seconds apart: both pairs are Curve25519 pairs. -/
theorem keyPair_tag_of_single_algorithm_c255 :
    let S := (system taggedKeyExchange).restrict
      fun l => taggedKeyExchange.tag l.keyExchange = 0x35353243
    ∃ s tr, S.run S.init
        [.calculateForwardSecureKey (0x35353243, []) [1] 0 [],
          .calculateForwardSecureKey (0x35353243, []) [2] 12000000 []] = some (s, tr) ∧
      tr.length = 2 ∧ ∀ e ∈ tr, taggedKeyExchange.tag e.keyPair = 0x35353243 := by
  intro S
  have hrun : (S.run S.init
      [.calculateForwardSecureKey (0x35353243, []) [1] 0 [],
        .calculateForwardSecureKey (0x35353243, []) [2] 12000000 []]).map
      (fun r => r.2.length) = some 2 := by
    decide +kernel
  obtain ⟨⟨s, tr⟩, hr, hl⟩ := Option.map_eq_some_iff.mp hrun
  exact ⟨s, tr, hr, hl, keyPair_tag_of_single_algorithm 0x35353243 (Lts.Reach.of_run hr)⟩

end SingleAlgorithm

/-! ### Two algorithms -/

/-- Two calls within 10 seconds of each other that ask for different algorithms (Curve25519 and
P-256, which the generated server config both offers): the second gets the pair drawn for the
first, of the first's algorithm, and its public value. -/
theorem key_algorithm_mismatch (kx : KeyExchange K R T) {k₁ k₂ : K} (r₁ r₂ : R) {t₁ t₂ : Int}
    (p₁ p₂ : List UInt8) (hage : ToSeconds (t₂ - t₁) ≤ 10) (htag : kx.tag k₁ ≠ kx.tag k₂) :
    ∃ s e₁ e₂, (system kx).run (system kx).init
        [.calculateForwardSecureKey k₁ r₁ t₁ p₁, .calculateForwardSecureKey k₂ r₂ t₂ p₂] =
          some (s, [e₁, e₂]) ∧
      e₂.keyExchange = k₂ ∧ e₂.keyPair = kx.newKeyPair k₁ r₁ ∧ kx.tag e₂.keyPair ≠ kx.tag k₂ ∧
      e₂.publicValue = kx.publicValue (kx.newKeyPair k₁ r₁) := by
  -- the first call draws a pair from `k₁`; the second, within 10 seconds, keeps it
  have h₁ : (new : GoEphemeralKeySource K).forwardSecureKey kx k₁ r₁ t₁ =
      (kx.newKeyPair k₁ r₁, ⟨some (kx.newKeyPair k₁ r₁), t₁⟩) := rfl
  have h₂ : (⟨some (kx.newKeyPair k₁ r₁), t₁⟩ : GoEphemeralKeySource K).forwardSecureKey kx k₂ r₂
      t₂ = (kx.newKeyPair k₁ r₁, ⟨some (kx.newKeyPair k₁ r₁), t₁⟩) :=
    forwardSecureKey_of_fresh rfl hage
  refine ⟨⟨some (kx.newKeyPair k₁ r₁), t₁⟩,
    ⟨k₁, t₁, kx.newKeyPair k₁ r₁, t₁, kx.publicValue (kx.newKeyPair k₁ r₁),
      kx.calculateSharedKey (kx.newKeyPair k₁ r₁) p₁⟩,
    ⟨k₂, t₂, kx.newKeyPair k₁ r₁, t₁, kx.publicValue (kx.newKeyPair k₁ r₁),
      kx.calculateSharedKey (kx.newKeyPair k₁ r₁) p₂⟩, ?_, rfl, rfl, ?_, rfl⟩
  · simp only [Lts.run, system_init, system_step, step_calculateForwardSecureKey]
    rw [h₁, h₂]
    rfl
  · rw [kx.tag_newKeyPair]
    exact htag

/-- A Curve25519 handshake (tag `C255`) at 0 and a P-256 one (tag `P256`) 5 seconds later: the
second gets the Curve25519 pair. -/
theorem key_algorithm_mismatch_c255_p256 :
    ∃ s e₁ e₂, (system taggedKeyExchange).run (system taggedKeyExchange).init
        [.calculateForwardSecureKey (0x35353243, []) [1] 0 [],
          .calculateForwardSecureKey (0x36353250, []) [2] 5000000 []] = some (s, [e₁, e₂]) ∧
      taggedKeyExchange.tag e₂.keyPair ≠ 0x36353250 := by
  have hage : ToSeconds (5000000 - 0) ≤ 10 := by decide
  have htag : taggedKeyExchange.tag (0x35353243, []) ≠ taggedKeyExchange.tag (0x36353250, []) := by
    decide
  obtain ⟨s, e₁, e₂, hrun, -, -, hne, -⟩ :=
    key_algorithm_mismatch taggedKeyExchange [1] [2] [] [] hage htag
  exact ⟨s, e₁, e₂, hrun, hne⟩

end GoEphemeralKeySource

end GoQuic
