import GoQuic.Http.Header

/-!
# The server's proof and the client's check of it

`ProofSource.GetProof` (`proof_source.go:24–72`) signs the SHA-256 digest of a buffer: for QUIC
versions above 30, `ProofSignatureLabel`, the little-endian 32-bit length of the CHLO hash, the
CHLO hash and the server config; otherwise `ProofSignatureLabelOld` and the server config. RSA keys
sign with PSS, salt length equal to the hash, and ECDSA keys sign the digest as it is.
`ProofVerifyJob.CheckSignature` (`proof_verifier.go:44–77`) hashes the same bytes for an RSA key
(`verifierBytes_eq_bufferToSign`). For an ECDSA key it calls `x509.Certificate.CheckSignature` on
the server config alone.

The primitives are ideal: a signature records the key pair and the digest it signs, and the
verifiers accept exactly a signature of that key over that digest; the hash is a parameter
`sha256`, and SHA-256's collision resistance is its injectivity. So RSA proofs are accepted, and
verified on a chain that checks out (`CheckSignature_GetProof_rsa`), and an ECDSA proof is
accepted only if the server config and the signed buffer collide, which an injective hash never
lets happen (`ecdsa_proof_rejected`).
`Verify` (`proof_verifier.go:79–119`) then ends the process through `log.Fatal`.
-/

namespace GoQuic

open GoString

/-- The key types `GetProof` and `CheckSignature` handle. -/
inductive KeyType where
  | rsa
  | ecdsa
  deriving DecidableEq, Repr

/-- A certificate's key pair: its type, and which pair it is. -/
structure KeyPair where
  type : KeyType
  id : Nat
  deriving DecidableEq, Repr

/-- A signature made by an ideal primitive: the key pair that made it, the digest it signs, and
for RSA-PSS its salt length. -/
structure Signature (Digest : Type) where
  key : KeyPair
  digest : Digest
  saltLength : Option Nat
  deriving DecidableEq

/-- `ProofSignatureLabelOld` (`proof_verifier.go:41`). -/
def ProofSignatureLabelOld : GoString := ascii "QUIC server config signature" ++ [0]

/-- `ProofSignatureLabel` (`proof_verifier.go:42`). -/
def ProofSignatureLabel : GoString := ascii "QUIC CHLO and server config signature" ++ [0]

/-- `binary.LittleEndian.PutUint32`. -/
def PutUint32 (v : UInt32) : GoString :=
  [v.toUInt8, (v >>> 8).toUInt8, (v >>> 16).toUInt8, (v >>> 24).toUInt8]

/-- The size of a SHA-256 digest, which `rsa.PSSSaltLengthEqualsHash` makes the salt length. -/
def sha256Size : Nat := 32

section Proof

variable {Digest : Type} [DecidableEq Digest] (sha256 : GoString → Digest)

/-- The buffer `GetProof` signs (`proof_source.go:28–41`). -/
def bufferToSign (quicVersion : Int) (serverConfig chloHash : GoString) : GoString :=
  if quicVersion > 30 then
    ProofSignatureLabel ++ PutUint32 (UInt32.ofNat chloHash.length) ++ chloHash ++ serverConfig
  else ProofSignatureLabelOld ++ serverConfig

/-- `ProofSource.GetProof` with the certificate's key pair `key`. Randomness does not matter to
an ideal signature. -/
def GetProof (key : KeyPair) (quicVersion : Int) (serverConfig chloHash : GoString) :
    Signature Digest :=
  let hashSum := sha256 (bufferToSign quicVersion serverConfig chloHash)
  match key.type with
  | .rsa => ⟨key, hashSum, some sha256Size⟩
  | .ecdsa => ⟨key, hashSum, none⟩

/-- `rsa.VerifyPSS` with nil options, whose salt length is detected: a PSS signature of `pub`
over `digest`, with any salt length. -/
def VerifyPSS (pub : KeyPair) (digest : Digest) (sig : Signature Digest) : Bool :=
  sig.key = pub && sig.digest = digest && sig.saltLength.isSome

/-- `x509.Certificate.CheckSignature` with `ECDSAWithSHA256`: an ECDSA signature of `pub` over
the SHA-256 digest of `signed`. -/
def CheckSignatureECDSA (pub : KeyPair) (signed : GoString) (sig : Signature Digest) : Bool :=
  sig.key = pub && sig.digest = sha256 signed

/-- The bytes `CheckSignature` hashes for an RSA key (`proof_verifier.go:48–60`). -/
def verifierBytes (quicVersion : Int) (serverConfig chloHash : GoString) : GoString :=
  (if quicVersion > 30 then
      ProofSignatureLabel ++ PutUint32 (UInt32.ofNat chloHash.length) ++ chloHash
    else ProofSignatureLabelOld) ++ serverConfig

/-- `ProofVerifyJob.CheckSignature` on a leaf certificate with key pair `pub`. -/
def CheckSignature (pub : KeyPair) (quicVersion : Int) (serverConfig chloHash : GoString)
    (signature : Signature Digest) : Bool :=
  match pub.type with
  | .rsa => VerifyPSS pub (sha256 (verifierBytes quicVersion serverConfig chloHash)) signature
  | .ecdsa => CheckSignatureECDSA sha256 pub serverConfig signature

/-- What `Verify` ends in. -/
inductive VerifyOutcome where
  | verified
  /-- `log.Fatal`: the process exits. -/
  | fatal
  deriving DecidableEq, Repr

/-- `ProofVerifyJob.Verify`, with the results of parsing the leaf certificate (its key pair) and
of checking the chain against the hostname as inputs. -/
def Verify (leaf : Option KeyPair) (chainOk : Bool) (quicVersion : Int)
    (serverConfig chloHash : GoString) (signature : Signature Digest) : VerifyOutcome :=
  match leaf with
  | none => .fatal
  | some pub =>
    if CheckSignature sha256 pub quicVersion serverConfig chloHash signature then
      if chainOk then .verified else .fatal
    else .fatal

end Proof

/-! ### The bytes signed and the bytes checked -/

/-- For an RSA key, the verifier hashes exactly the bytes the signer signed, in both version
branches. -/
theorem verifierBytes_eq_bufferToSign (quicVersion : Int) (serverConfig chloHash : GoString) :
    verifierBytes quicVersion serverConfig chloHash =
      bufferToSign quicVersion serverConfig chloHash := by
  unfold verifierBytes bufferToSign
  split <;> simp

/-- For an ECDSA key, the verifier checks the server config alone, which is never the signed
buffer: the buffer starts with a label. -/
theorem serverConfig_ne_bufferToSign (quicVersion : Int) (serverConfig chloHash : GoString) :
    serverConfig ≠ bufferToSign quicVersion serverConfig chloHash := by
  intro h
  have hlen := congrArg List.length h
  unfold bufferToSign at hlen
  split at hlen
  · simp [ProofSignatureLabel, ascii] at hlen
    omega
  · simp [ProofSignatureLabelOld, ascii] at hlen
    omega

section Agreement

variable {Digest : Type} [DecidableEq Digest] (sha256 : GoString → Digest)

/-- An RSA proof is accepted by the check on the matching certificate, in both version branches,
and `Verify` succeeds exactly when the chain checks out. -/
theorem CheckSignature_GetProof_rsa {key : KeyPair} (hkey : key.type = .rsa) (quicVersion : Int)
    (serverConfig chloHash : GoString) (chainOk : Bool) :
    CheckSignature sha256 key quicVersion serverConfig chloHash
        (GetProof sha256 key quicVersion serverConfig chloHash) = true ∧
      Verify sha256 (some key) chainOk quicVersion serverConfig chloHash
        (GetProof sha256 key quicVersion serverConfig chloHash) =
        if chainOk then .verified else .fatal := by
  have hacc : CheckSignature sha256 key quicVersion serverConfig chloHash
      (GetProof sha256 key quicVersion serverConfig chloHash) = true := by
    simp [CheckSignature, GetProof, hkey, VerifyPSS, verifierBytes_eq_bufferToSign]
  refine ⟨hacc, ?_⟩
  simp only [Verify, hacc, if_true]

/-- An ECDSA proof is accepted exactly when the server config and the signed buffer have the same
digest. -/
theorem CheckSignature_GetProof_ecdsa_iff {key : KeyPair} (hkey : key.type = .ecdsa)
    (quicVersion : Int) (serverConfig chloHash : GoString) :
    CheckSignature sha256 key quicVersion serverConfig chloHash
        (GetProof sha256 key quicVersion serverConfig chloHash) = true ↔
      sha256 serverConfig = sha256 (bufferToSign quicVersion serverConfig chloHash) := by
  simp [CheckSignature, GetProof, hkey, CheckSignatureECDSA, eq_comm]

/-- With a collision-free hash, the check rejects every ECDSA proof, in both version branches,
and `Verify` ends the process. -/
theorem ecdsa_proof_rejected (hinj : Function.Injective sha256) {key : KeyPair}
    (hkey : key.type = .ecdsa) (quicVersion : Int) (serverConfig chloHash : GoString)
    (chainOk : Bool) :
    CheckSignature sha256 key quicVersion serverConfig chloHash
        (GetProof sha256 key quicVersion serverConfig chloHash) = false ∧
      Verify sha256 (some key) chainOk quicVersion serverConfig chloHash
        (GetProof sha256 key quicVersion serverConfig chloHash) = .fatal := by
  have hrej : CheckSignature sha256 key quicVersion serverConfig chloHash
      (GetProof sha256 key quicVersion serverConfig chloHash) = false := by
    rw [Bool.eq_false_iff]
    intro hacc
    exact serverConfig_ne_bufferToSign quicVersion serverConfig chloHash
      (hinj ((CheckSignature_GetProof_ecdsa_iff sha256 hkey _ _ _).mp hacc))
  refine ⟨hrej, ?_⟩
  simp only [Verify, hrej, Bool.false_eq_true, if_false]

end Agreement

/-- An RSA server's proof for version 31, on a chain that checks out, is verified. -/
theorem CheckSignature_GetProof_rsa_v31 :
    (⟨.rsa, 0⟩ : KeyPair).type = .rsa ∧
      CheckSignature id ⟨.rsa, 0⟩ 31 [1] [2] (GetProof id ⟨.rsa, 0⟩ 31 [1] [2]) = true ∧
      Verify id (some ⟨.rsa, 0⟩) true 31 [1] [2] (GetProof id ⟨.rsa, 0⟩ 31 [1] [2]) = .verified :=
  ⟨rfl, CheckSignature_GetProof_rsa id rfl 31 [1] [2] true⟩

/-- An ECDSA server's proof for version 31, with an injective hash, is rejected. -/
theorem ecdsa_proof_rejected_v31 :
    Function.Injective (id : GoString → GoString) ∧ (⟨.ecdsa, 0⟩ : KeyPair).type = .ecdsa ∧
      CheckSignature id ⟨.ecdsa, 0⟩ 31 [1] [2] (GetProof id ⟨.ecdsa, 0⟩ 31 [1] [2]) = false ∧
      Verify id (some ⟨.ecdsa, 0⟩) true 31 [1] [2] (GetProof id ⟨.ecdsa, 0⟩ 31 [1] [2]) = .fatal :=
  ⟨Function.injective_id, rfl, ecdsa_proof_rejected id Function.injective_id rfl 31 [1] [2] true⟩

end GoQuic
