import Mathlib
import GoQuic.Server.Writer

/-!
# The server config between libquic, C and Go

Every dispatcher must load the same server config for 0-RTT to work across them
(`adaptor.cc:53–54`). `ListenAndServe` (`server.go:70–72`) has libquic generate one
(`generate_goquic_crypto_config`, `adaptor.cc:55–86`), which copies the config and its private
keys into the C struct `GoQuicServerConfig` (`go_structs.h:68–76`) with `int` lengths; Go copies
that into a `SerializedServerConfig` (`GenerateSerializedServerConfig`, `server_config.go:40–62`).
Each `Serve` loop then builds its crypto config from it (`NewCryptoServerConfig`,
`server_config.go:24–34`): a new C struct (`create_goquic_crypto_config`), one
`goquic_crypto_config_set_key` per key, and `init_crypto_config`, whose
`parse_goquic_crypto_config` (`adaptor.cc:123–132`) gives libquic's `AddConfig` the config back.

A server started without a `ServerConfig` loads in each dispatcher exactly the config libquic
generated, when the config and every key are non-empty and shorter than `2^31` bytes and there are
at most `2^30` keys (`serveCryptoConfig_of_generated`). A `SerializedServerConfig` from anywhere
else, such as the `-scfg` file, is loaded exactly when its lengths fit an `int`, and `Serve`
panics when the config, a key or the secret is empty (`NewCryptoServerConfig_eq`). The proofs
follow the C struct through the key loop: after the first keys are set, it is `keysSet`.
-/

namespace GoQuic

/-- A private key of `QuicServerConfigProtobuf`. -/
structure PrivateKey where
  tag : UInt32
  private_key : List UInt8
  deriving DecidableEq, Repr

/-- `QuicServerConfigProtobuf`: the serialized config and its private keys. -/
structure QuicServerConfigProtobuf where
  config : List UInt8
  key : List PrivateKey
  deriving DecidableEq, Repr

/-- `struct GoQuicServerConfig` (`go_structs.h:68–76`). An array is the list of its entries; an
entry that `new` left unset is `none`. -/
structure GoQuicServerConfig where
  Server_config : List UInt8
  Server_config_len : Int32
  Private_keys : List (Option (List UInt8))
  Private_keys_len : List (Option Int32)
  Private_keys_tag : List (Option UInt32)
  Num_of_keys : Int32
  deriving DecidableEq, Repr

/-- `ServerConfigPrivateKey` (`server_config.go:14–17`). -/
structure ServerConfigPrivateKey where
  Key : List UInt8
  Tag : UInt32
  deriving DecidableEq, Repr

/-- `SerializedServerConfig` (`server_config.go:9–12`). -/
structure SerializedServerConfig where
  ServerConfig : List UInt8
  Keys : List ServerConfigPrivateKey
  deriving DecidableEq, Repr

/-- `std::string(p, n)` over a C buffer that holds `bytes`, with the `int` `n` as its count: the
first `n` bytes; a count past the buffer, a negative one among them, reads what is not there. -/
def stdString (bytes : List UInt8) (n : Int32) : Option (List UInt8) :=
  if 0 ≤ n.toInt ∧ n.toInt ≤ bytes.length then some (bytes.take n.toInt.toNat) else none

/-! ### libquic to Go -/

/-- `generate_goquic_crypto_config` (`adaptor.cc:55–86`) of the config `GenerateConfig` made: the
`size_t` lengths and key count are stored in `int` fields. -/
def generate_goquic_crypto_config (scfg : QuicServerConfigProtobuf) : GoQuicServerConfig where
  Server_config := scfg.config
  Server_config_len := Int32.ofNat scfg.config.length
  Private_keys := scfg.key.map fun k => some k.private_key
  Private_keys_len := scfg.key.map fun k => some (Int32.ofNat k.private_key.length)
  Private_keys_tag := scfg.key.map fun k => some k.tag
  Num_of_keys := Int32.ofNat scfg.key.length

/-- `GenerateSerializedServerConfig` (`server_config.go:40–62`) after the C call: Go panics on a
negative length and when `N` does not fit the `[1 << 30]` arrays it slices. -/
def GenerateSerializedServerConfig (c : GoQuicServerConfig) : Option SerializedServerConfig := do
  let N := c.Num_of_keys.toInt
  let serverConfig ← GoBytes c.Server_config c.Server_config_len
  -- `(*[1 << 30]C.uint32_t)(...)[:N:N]`
  if N < 0 ∨ 2 ^ 30 < N then none
  else
    let keys ← (List.range N.toNat).mapM fun i => do
      let key ← c.Private_keys[i]?.join
      let len ← c.Private_keys_len[i]?.join
      let tag ← c.Private_keys_tag[i]?.join
      let k ← GoBytes key len
      pure (⟨k, tag⟩ : ServerConfigPrivateKey)
    pure ⟨serverConfig, keys⟩

/-! ### Go to libquic -/

/-- `create_goquic_crypto_config` (`adaptor.cc:88–99`): `new char*[key_size]` throws on a
negative size, and leaves the entries unset. -/
def create_goquic_crypto_config (server_config : List UInt8) (key_size : Int32) :
    Option GoQuicServerConfig :=
  if key_size.toInt < 0 then none
  else some
    { Server_config := server_config
      Server_config_len := Int32.ofNat server_config.length
      Private_keys := List.replicate key_size.toInt.toNat none
      Private_keys_len := List.replicate key_size.toInt.toNat none
      Private_keys_tag := List.replicate key_size.toInt.toNat none
      Num_of_keys := key_size }

/-- `goquic_crypto_config_set_key` (`adaptor.cc:101–108`): an index at or past `Num_of_keys` is
ignored; a negative one passes the check and writes before the arrays. -/
def goquic_crypto_config_set_key (c : GoQuicServerConfig) (index : Int32) (tag : UInt32)
    (key : List UInt8) : Option GoQuicServerConfig :=
  if c.Num_of_keys.toInt ≤ index.toInt then some c
  else if index.toInt < 0 then none
  else some
    { c with
      Private_keys_tag := c.Private_keys_tag.set index.toInt.toNat (some tag)
      Private_keys_len := c.Private_keys_len.set index.toInt.toNat (some (Int32.ofNat key.length))
      Private_keys := c.Private_keys.set index.toInt.toNat (some key) }

/-- `parse_goquic_crypto_config` (`adaptor.cc:123–132`): the config `init_crypto_config` gives
`AddConfig`. Reading an unset entry is undefined. -/
def parse_goquic_crypto_config (c : GoQuicServerConfig) : Option QuicServerConfigProtobuf := do
  let config ← stdString c.Server_config c.Server_config_len
  -- `for(int i = 0; i < go_config->Num_of_keys; i++)`
  let key ← (List.range c.Num_of_keys.toInt.toNat).mapM fun i => do
    let tag ← c.Private_keys_tag[i]?.join
    let bytes ← c.Private_keys[i]?.join
    let len ← c.Private_keys_len[i]?.join
    let k ← stdString bytes len
    pure (⟨tag, k⟩ : PrivateKey)
  pure ⟨config, key⟩

/-- What Go gives the C++ `QuicCryptoServerConfig`: its source address token secret, and the
config it adds. -/
structure QuicCryptoServerConfig where
  source_address_token_secret : String
  config : QuicServerConfigProtobuf
  deriving DecidableEq, Repr

/-- `init_crypto_config` (`adaptor.cc:135–160`) with the proof source and key source left out. -/
def init_crypto_config (go_config : GoQuicServerConfig) (source_address_token_secret : String) :
    Option QuicCryptoServerConfig := do
  let config ← parse_goquic_crypto_config go_config
  pure ⟨source_address_token_secret, config⟩

/-- The key loop of `NewCryptoServerConfig` (`server_config.go:28–30`) from index `idx` on: Go
panics on an empty key at `&key.Key[0]`. -/
def setKeys (c : GoQuicServerConfig) : List ServerConfigPrivateKey → Nat → Option GoQuicServerConfig
  | [], _ => some c
  | key :: keys, idx =>
    if key.Key = [] then none
    else (goquic_crypto_config_set_key c (Int32.ofNat idx) key.Tag key.Key).bind fun c =>
      setKeys c keys (idx + 1)

/-- `NewCryptoServerConfig` (`server_config.go:24–34`) with the proof source left out. Go panics
on an empty config at `&cfg.ServerConfig[0]` and on an empty secret at `&[]byte(stkSecret)[0]`. -/
def NewCryptoServerConfig (stkSecret : String) (cfg : SerializedServerConfig) :
    Option QuicCryptoServerConfig :=
  if cfg.ServerConfig = [] then none
  else do
    let c ← create_goquic_crypto_config cfg.ServerConfig (Int32.ofNat cfg.Keys.length)
    let c ← setKeys c cfg.Keys 0
    if stkSecret = "" then none else init_crypto_config c stkSecret

/-- The crypto config of every `Serve` loop of `ListenAndServe` (`server.go:70–76, 173`): the
server's `ServerConfig`, or the config libquic generated (`generated`) when it has none, and the
secret `"secret"` when it has none. -/
def serveCryptoConfig (Secret : String) (ServerConfig : Option SerializedServerConfig)
    (generated : QuicServerConfigProtobuf) : Option QuicCryptoServerConfig := do
  let cfg ← match ServerConfig with
    | some cfg => some cfg
    | none => GenerateSerializedServerConfig (generate_goquic_crypto_config generated)
  NewCryptoServerConfig (if Secret = "" then "secret" else Secret) cfg

/-! ### Reading the arrays -/

/-- A loop over the indices of `l` whose step `i` reads `g l[i]` returns `l` mapped by `g`. -/
theorem mapM_range_eq_some {α β : Type} {l : List α} {f : Nat → Option β} {g : α → β}
    (h : ∀ i (hi : i < l.length), f i = some (g l[i])) :
    (List.range l.length).mapM f = some (l.map g) := by
  -- on the list, with the loop's step shifted by one index at each element
  induction l generalizing f with
  | nil => rfl
  | cons a l ih =>
    have h0 : f 0 = some (g a) := h 0 (Nat.succ_pos _)
    have hs : (List.range l.length).mapM (f ∘ Nat.succ) = some (l.map g) :=
      ih fun i hi => h (i + 1) (Nat.succ_lt_succ hi)
    rw [List.length_cons, List.range_succ_eq_map, List.mapM_cons, List.mapM_map, h0, hs]
    rfl

/-- A `std::string` of a length up to `INT_MAX` passed as an `int` is the whole buffer. -/
theorem stdString_length {bytes : List UInt8} (h : bytes.length ≤ INT_MAX) :
    stdString bytes (Int32.ofNat bytes.length) = some bytes := by
  have hv : (Int32.ofNat bytes.length).toInt = bytes.length :=
    Int32.toInt_ofNat_of_lt (by simp only [INT_MAX] at h; omega)
  rw [stdString, hv, if_pos ⟨Int.natCast_nonneg _, le_refl _⟩, Int.toNat_natCast,
    List.take_length]

/-! ### libquic to Go -/

/-- Go copies the config libquic generated exactly, when its lengths fit an `int` and its keys
fit the arrays Go slices. -/
theorem GenerateSerializedServerConfig_generate {scfg : QuicServerConfigProtobuf}
    (hc : scfg.config.length ≤ INT_MAX) (hk : ∀ k ∈ scfg.key, k.private_key.length ≤ INT_MAX)
    (hn : scfg.key.length ≤ 2 ^ 30) :
    GenerateSerializedServerConfig (generate_goquic_crypto_config scfg) =
      some ⟨scfg.config, scfg.key.map fun k => ⟨k.private_key, k.tag⟩⟩ := by
  have hN : (Int32.ofNat scfg.key.length).toInt = scfg.key.length :=
    Int32.toInt_ofNat_of_lt (by omega)
  have hfit : ¬ ((scfg.key.length : Int) < 0 ∨ 2 ^ 30 < (scfg.key.length : Int)) := by omega
  simp only [GenerateSerializedServerConfig, generate_goquic_crypto_config, hN, GoBytes_length hc,
    hfit, if_false, Int.toNat_natCast]
  -- the key loop reads entry `i` of the three arrays libquic filled from key `i`
  rw [mapM_range_eq_some (g := fun k => ⟨k.private_key, k.tag⟩)]
  · rfl
  · intro i hi
    simp [hi, GoBytes_length (hk _ (List.getElem_mem hi))]

/-! ### Go to libquic -/

/-- The C struct `NewCryptoServerConfig` fills for a config with `K` keys, once the keys `done`
are set: the entries past them are still unset. -/
def keysSet (server_config : List UInt8) (K : Nat) (done : List ServerConfigPrivateKey) :
    GoQuicServerConfig where
  Server_config := server_config
  Server_config_len := Int32.ofNat server_config.length
  Private_keys := done.map (fun k => some k.Key) ++ List.replicate (K - done.length) none
  Private_keys_len :=
    done.map (fun k => some (Int32.ofNat k.Key.length)) ++ List.replicate (K - done.length) none
  Private_keys_tag := done.map (fun k => some k.Tag) ++ List.replicate (K - done.length) none
  Num_of_keys := Int32.ofNat K

theorem create_goquic_crypto_config_eq {K : Nat} (hK : K ≤ INT_MAX) (server_config : List UInt8) :
    create_goquic_crypto_config server_config (Int32.ofNat K) = some (keysSet server_config K []) := by
  have hv : (Int32.ofNat K).toInt = K := Int32.toInt_ofNat_of_lt (by simp only [INT_MAX] at hK; omega)
  simp [create_goquic_crypto_config, keysSet, hv]

/-- Setting the entry after the last one set. -/
theorem set_append_replicate {α : Type} (l : List α) (m : Nat) (a b : α) :
    (l ++ List.replicate (m + 1) a).set l.length b = l ++ b :: List.replicate m a := by
  rw [List.set_append_right _ _ (le_refl _), Nat.sub_self, List.replicate_succ, List.set_cons_zero]

theorem set_key_keysSet {K : Nat} (hK : K ≤ INT_MAX) {server_config : List UInt8}
    {done : List ServerConfigPrivateKey} (hd : done.length < K) (key : ServerConfigPrivateKey) :
    goquic_crypto_config_set_key (keysSet server_config K done) (Int32.ofNat done.length) key.Tag
      key.Key = some (keysSet server_config K (done ++ [key])) := by
  have hK' : K < 2 ^ 31 := by simp only [INT_MAX] at hK; omega
  have hv : (Int32.ofNat K).toInt = K := Int32.toInt_ofNat_of_lt hK'
  have hi : (Int32.ofNat done.length).toInt = done.length := Int32.toInt_ofNat_of_lt (by omega)
  -- each array gets entry `done.length` from `key`
  have hset : ∀ {β : Type} (f : ServerConfigPrivateKey → β),
      (done.map (fun k => some (f k)) ++ List.replicate (K - done.length) none).set done.length
        (some (f key)) =
      (done ++ [key]).map (fun k => some (f k)) ++
        List.replicate (K - (done ++ [key]).length) none := by
    intro β f
    have h := set_append_replicate (done.map fun k => some (f k)) (K - (done.length + 1)) none
      (some (f key))
    rw [List.length_map] at h
    rw [show K - done.length = (K - (done.length + 1)) + 1 by omega, h]
    simp
  have hfit : ¬ (K : Int) ≤ done.length ∧ ¬ (done.length : Int) < 0 := by omega
  simp only [goquic_crypto_config_set_key, keysSet, hv, hi, hfit, if_false, Int.toNat_natCast, hset]

/-- The key loop sets every key of a config whose keys are all non-empty. -/
theorem setKeys_keysSet {K : Nat} (hK : K ≤ INT_MAX) {server_config : List UInt8} :
    ∀ (rest done : List ServerConfigPrivateKey), done.length + rest.length = K →
      (∀ k ∈ rest, k.Key ≠ []) →
      setKeys (keysSet server_config K done) rest done.length =
        some (keysSet server_config K (done ++ rest))
  -- on the keys still to set; `done` grows by the key each step sets
  | [], done, _, _ => by rw [setKeys, List.append_nil]
  | key :: rest, done, hlen, hne => by
    have hkey : key.Key ≠ [] := hne key List.mem_cons_self
    have hd : done.length < K := by simp only [List.length_cons] at hlen; omega
    have hlen' : (done ++ [key]).length + rest.length = K := by
      simp only [List.length_append, List.length_cons, List.length_nil] at hlen ⊢; omega
    have ih := @setKeys_keysSet K hK server_config rest (done ++ [key]) hlen'
      fun k hk => hne k (List.mem_cons_of_mem _ hk)
    rw [List.length_append, List.length_singleton] at ih
    rw [setKeys, if_neg hkey, set_key_keysSet hK hd, Option.bind_some, ih, List.append_assoc,
      List.singleton_append]

/-- Go panics in the key loop when a key is empty. -/
theorem setKeys_eq_none : ∀ (c : GoQuicServerConfig) (keys : List ServerConfigPrivateKey)
    (idx : Nat), (∃ k ∈ keys, k.Key = []) → setKeys c keys idx = none
  | _, [], _, ⟨_, hk, _⟩ => absurd hk List.not_mem_nil
  | c, key :: keys, idx, ⟨k, hk, he⟩ => by
    rw [setKeys]
    split_ifs with hkey
    · rfl
    · -- the empty key is a later one, whatever the current key's set did
      have hk' : k ∈ keys := by
        rcases List.mem_cons.mp hk with rfl | hk
        · exact absurd he hkey
        · exact hk
      cases goquic_crypto_config_set_key c (Int32.ofNat idx) key.Tag key.Key with
      | none => rfl
      | some c' => exact setKeys_eq_none c' keys (idx + 1) ⟨k, hk', he⟩

/-- `parse_goquic_crypto_config` reads back every key that was set, when the lengths fit an
`int`. -/
theorem parse_keysSet {server_config : List UInt8} (hc : server_config.length ≤ INT_MAX)
    {keys : List ServerConfigPrivateKey} (hk : ∀ k ∈ keys, k.Key.length ≤ INT_MAX)
    (hK : keys.length ≤ INT_MAX) :
    parse_goquic_crypto_config (keysSet server_config keys.length keys) =
      some ⟨server_config, keys.map fun k => ⟨k.Tag, k.Key⟩⟩ := by
  have hv : (Int32.ofNat keys.length).toInt = keys.length :=
    Int32.toInt_ofNat_of_lt (by simp only [INT_MAX] at hK; omega)
  simp only [parse_goquic_crypto_config, keysSet, stdString_length hc, hv, Int.toNat_natCast,
    Nat.sub_self, List.replicate_zero, List.append_nil]
  -- the loop reads entry `i` of the three arrays, all set from key `i`
  rw [mapM_range_eq_some (g := fun k => ⟨k.Tag, k.Key⟩)]
  · rfl
  · intro i hi
    simp [hi, stdString_length (hk _ (List.getElem_mem hi))]

/-! ### What a crypto config loads -/

/-- A crypto config built from a `SerializedServerConfig` whose lengths fit an `int` loads exactly
that config and the secret; Go panics instead when the config, a key or the secret is empty. -/
theorem NewCryptoServerConfig_eq (stkSecret : String) {cfg : SerializedServerConfig}
    (hc : cfg.ServerConfig.length ≤ INT_MAX) (hk : ∀ k ∈ cfg.Keys, k.Key.length ≤ INT_MAX)
    (hn : cfg.Keys.length ≤ INT_MAX) :
    NewCryptoServerConfig stkSecret cfg =
      if cfg.ServerConfig ≠ [] ∧ (∀ k ∈ cfg.Keys, k.Key ≠ []) ∧ stkSecret ≠ "" then
        some ⟨stkSecret, ⟨cfg.ServerConfig, cfg.Keys.map fun k => ⟨k.Tag, k.Key⟩⟩⟩
      else none := by
  rw [NewCryptoServerConfig, create_goquic_crypto_config_eq hn, Option.bind_eq_bind,
    Option.bind_some]
  by_cases hsc : cfg.ServerConfig = []
  case pos => rw [if_pos hsc, if_neg fun h => h.1 hsc]
  case neg =>
  rw [if_neg hsc]
  by_cases hkeys : ∀ k ∈ cfg.Keys, k.Key ≠ []
  case neg =>
    -- the key loop panics at the first empty key
    have hempty : ∃ k ∈ cfg.Keys, k.Key = [] := by simpa using hkeys
    rw [setKeys_eq_none _ _ _ hempty, if_neg fun h => hkeys h.2.1]
    rfl
  case pos =>
    have hset := @setKeys_keysSet _ hn cfg.ServerConfig cfg.Keys [] (by simp) hkeys
    rw [List.length_nil, List.nil_append] at hset
    rw [hset, Option.bind_some]
    by_cases hs : stkSecret = ""
    · rw [if_pos hs, if_neg fun h => h.2.2 hs]
    · rw [if_neg hs, if_pos ⟨hsc, hkeys, hs⟩, init_crypto_config, parse_keysSet hc hk hn]
      rfl

/-- A config with a curve25519 and a P-256 key, tagged `C255` and `P256`. -/
def sampleServerConfig : QuicServerConfigProtobuf :=
  ⟨[0x53, 0x43, 0x46, 0x47], [⟨0x35353243, [1, 2, 3]⟩, ⟨0x36353250, [4, 5]⟩]⟩

/-- Its Go copy with the second key emptied, as a hand-written `-scfg` file might have it. -/
def emptyKeyServerConfig : SerializedServerConfig :=
  ⟨[0x53, 0x43, 0x46, 0x47], [⟨[1, 2, 3], 0x35353243⟩, ⟨[], 0x36353250⟩]⟩

theorem NewCryptoServerConfig_eq_emptyKey :
    emptyKeyServerConfig.ServerConfig.length ≤ INT_MAX ∧
      (∀ k ∈ emptyKeyServerConfig.Keys, k.Key.length ≤ INT_MAX) ∧
      emptyKeyServerConfig.Keys.length ≤ INT_MAX ∧
      NewCryptoServerConfig "secret" emptyKeyServerConfig = none :=
  ⟨by decide, by decide, by decide,
    (NewCryptoServerConfig_eq "secret" (by decide) (by decide) (by decide)).trans
      (if_neg (by decide))⟩

/-- A server started without a `ServerConfig` loads, in every `Serve` loop, exactly the config
libquic generated, with its `Secret` or the default one: the copy from C to Go and back to C
loses nothing when the config and every key are non-empty and fit an `int`, and there are at most
`2^30` keys. -/
theorem serveCryptoConfig_of_generated (Secret : String) {generated : QuicServerConfigProtobuf}
    (hc : generated.config ≠ [] ∧ generated.config.length ≤ INT_MAX)
    (hk : ∀ k ∈ generated.key, k.private_key ≠ [] ∧ k.private_key.length ≤ INT_MAX)
    (hn : generated.key.length ≤ 2 ^ 30) :
    serveCryptoConfig Secret none generated =
      some ⟨if Secret = "" then "secret" else Secret, generated⟩ := by
  have hgo := GenerateSerializedServerConfig_generate hc.2 (fun k hm => (hk k hm).2) hn
  -- the Go copy, as `NewCryptoServerConfig` reads it
  have hkeys : ∀ k ∈ generated.key.map (fun k => (⟨k.private_key, k.tag⟩ : ServerConfigPrivateKey)),
      k.Key ≠ [] ∧ k.Key.length ≤ INT_MAX := by
    simp only [List.mem_map]
    rintro _ ⟨k, hm, rfl⟩
    exact hk k hm
  have hlen : (generated.key.map (fun k => (⟨k.private_key, k.tag⟩ : ServerConfigPrivateKey))).length
      ≤ INT_MAX := by
    simp only [List.length_map, INT_MAX]
    omega
  have hsecret : (if Secret = "" then "secret" else Secret) ≠ "" := by
    split_ifs <;> simp_all
  rw [serveCryptoConfig, Option.bind_eq_bind, hgo, Option.bind_some]
  dsimp only
  rw [NewCryptoServerConfig_eq _ hc.2 (fun k hm => (hkeys k hm).2) hlen,
    if_pos ⟨hc.1, fun k hm => (hkeys k hm).1, hsecret⟩, List.map_map]
  -- a key's two copies differ only in the order of their fields
  have hid : ((fun k : ServerConfigPrivateKey => (⟨k.Tag, k.Key⟩ : PrivateKey)) ∘
      fun k : PrivateKey => (⟨k.private_key, k.tag⟩ : ServerConfigPrivateKey)) = id := rfl
  rw [hid, List.map_id]

theorem serveCryptoConfig_of_generated_sample :
    (sampleServerConfig.config ≠ [] ∧ sampleServerConfig.config.length ≤ INT_MAX) ∧
      (∀ k ∈ sampleServerConfig.key, k.private_key ≠ [] ∧ k.private_key.length ≤ INT_MAX) ∧
      sampleServerConfig.key.length ≤ 2 ^ 30 ∧
      serveCryptoConfig "" none sampleServerConfig = some ⟨"secret", sampleServerConfig⟩ :=
  ⟨by decide, by decide, by decide,
    serveCryptoConfig_of_generated "" (by decide) (by decide) (by decide)⟩

end GoQuic
