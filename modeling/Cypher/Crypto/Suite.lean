import Cypher.Common

/-!
# The cryptographic functions the ratchet calls

`Suite` collects the functions `ratchet.rs` and `x3dh.rs` call: the two key-derivation steps, X25519
and the authenticated cipher. The ratchet is written over an arbitrary suite, so that it can be read
both over the byte-level functions of `cypher-crypto` (`Primitives.suite`) and over symbolic keys
(`Cypher.Crypto.Symbolic`).

`Primitives` is what the crates outside the repository provide: HKDF-SHA256, X25519 and AES-256-GCM.
`kdf_chain`, `dh_ratchet`, `aead_encrypt`, `aead_decrypt` and the X3DH `kdf` are written over it as
in the source.
-/

namespace Cypher.Crypto

/-- `X25519PublicKey`: a 32-byte array, compared by its bytes. -/
abbrev PublicKey := Array32

/-- The functions the ratchet and the handshake are built on, over an arbitrary type of symmetric
keys, of X25519 secrets and of ciphertexts. -/
structure Suite (Key Secret Ct : Type) where
  asBytes : Key → Bytes
  /-- `kdf_chain`: the next chain key and the message key. -/
  kdfChain : Key → Key × Key
  /-- `dh_ratchet`: the next root key and a chain key, from a root key and a DH output. -/
  dhRatchet : Key → Key → Key × Key
  /-- `kdf` of `x3dh.rs`, on the concatenated DH outputs. -/
  x3dhKdf : Bytes → Key
  publicKey : Secret → PublicKey
  diffieHellman : Secret → PublicKey → Key
  /-- `aead_encrypt(key, nonce_material, plaintext, aad)`. -/
  aeadEncrypt : Key → Bytes → Bytes → Bytes → Result Ct
  /-- `aead_decrypt(key, nonce_material, ciphertext, aad)`. -/
  aeadDecrypt : Key → Bytes → Ct → Bytes → Result Bytes

namespace Suite

variable {Key Secret Ct : Type} (S : Suite Key Secret Ct)

def DhCommutes : Prop :=
  ∀ a b : Secret, S.diffieHellman a (S.publicKey b) = S.diffieHellman b (S.publicKey a)

def AeadInverts : Prop :=
  ∀ {key : Key} {nonce plaintext aad : Bytes} {ct : Ct},
    S.aeadEncrypt key nonce plaintext aad = .ok ct →
      S.aeadDecrypt key nonce ct aad = .ok plaintext

/-- `message_key || msg_no`, the nonce material of a message. -/
def nonceMaterial (messageKey : Key) (msgNo : Nat) : Bytes :=
  S.asBytes messageKey ++ toBeBytes32 msgNo

end Suite

/-- The primitives of the crates `hkdf`, `x25519_dalek` and `aes_gcm`. `none` is the opaque error of
`aes_gcm`. -/
structure Primitives where
  /-- `Hkdf::<Sha256>::new(Some(salt), ikm)` expanded with `info` to `len` bytes. -/
  hkdf : (salt ikm info : Bytes) → (len : Nat) → Bytes
  hkdf_length : ∀ salt ikm info len, (hkdf salt ikm info len).length = len
  x25519Public : Array32 → PublicKey
  x25519 : Array32 → PublicKey → Array32
  /-- AES-256-GCM under a key and a 12-byte nonce. -/
  aesGcmEncrypt : Array32 → (nonce msg aad : Bytes) → Option Bytes
  aesGcmDecrypt : Array32 → (nonce msg aad : Bytes) → Option Bytes

/-- The primitives with what the crate `aes_gcm` says of its ciphertexts: only messages and associated
data of more than `2^36` bytes are refused, and the tag takes 16 bytes. -/
structure GcmPrimitives extends Primitives where
  encrypt_isSome : ∀ key nonce msg aad, msg.length ≤ 2 ^ 36 → aad.length ≤ 2 ^ 36 →
    (aesGcmEncrypt key nonce msg aad).isSome
  encrypt_length : ∀ key nonce msg aad ct, aesGcmEncrypt key nonce msg aad = some ct →
    ct.length = msg.length + 16

namespace Primitives

variable (P : Primitives)

def expand32 (salt ikm info : Bytes) : Array32 :=
  ⟨P.hkdf salt ikm info 32, P.hkdf_length salt ikm info 32⟩

def kdfChain (chainKey : Array32) : Array32 × Array32 :=
  let newChainKey := P.expand32 chainKey.val [0x01] (ascii "chain-key")
  let messageKey := P.expand32 chainKey.val [0x02] (ascii "message-key")
  (newChainKey, messageKey)

def dhRatchet (rootKey dhOutput : Array32) : Array32 × Array32 :=
  let newRootKey := P.expand32 rootKey.val dhOutput.val (ascii "dh-ratchet-root")
  let newChainKey := P.expand32 rootKey.val dhOutput.val (ascii "dh-ratchet-chain")
  (newRootKey, newChainKey)

/-- `kdf` (`x3dh.rs`). -/
def x3dhKdf (dhConcat : Bytes) : Array32 :=
  P.expand32 (ascii "x3dh-salt") dhConcat (ascii "x3dh-shared-secret")

def deriveNonce (nonceMaterial : Bytes) : Bytes :=
  P.hkdf (ascii "cypher-aead-nonce") nonceMaterial (ascii "aes-gcm-nonce") 12

def aeadEncrypt (key : Array32) (nonceMaterial plaintext aad : Bytes) : Result Bytes :=
  match P.aesGcmEncrypt key (P.deriveNonce nonceMaterial) plaintext aad with
  | some ct => .ok ct
  | none => .error (.crypto "AES-GCM encryption failed: aead::Error")

def aeadDecrypt (key : Array32) (nonceMaterial ciphertext aad : Bytes) : Result Bytes :=
  match P.aesGcmDecrypt key (P.deriveNonce nonceMaterial) ciphertext aad with
  | some plaintext => .ok plaintext
  | none => .error (.crypto "AES-GCM decryption failed: aead::Error")

def suite : Suite Array32 Array32 Bytes where
  asBytes := Subtype.val
  kdfChain := P.kdfChain
  dhRatchet := P.dhRatchet
  x3dhKdf := P.x3dhKdf
  publicKey := P.x25519Public
  diffieHellman := P.x25519
  aeadEncrypt := P.aeadEncrypt
  aeadDecrypt := P.aeadDecrypt

def X25519Commutes : Prop :=
  ∀ a b : Array32, P.x25519 a (P.x25519Public b) = P.x25519 b (P.x25519Public a)

/-- AES-GCM decryption inverts encryption under one key, nonce and associated data. -/
def AesGcmInverts : Prop :=
  ∀ key nonce msg aad ct, P.aesGcmEncrypt key nonce msg aad = some ct →
    P.aesGcmDecrypt key nonce ct aad = some msg

variable {P}

theorem X25519Commutes.suite (h : P.X25519Commutes) : P.suite.DhCommutes := h

/-- `aead_decrypt` inverts `aead_encrypt`: both derive one nonce from one nonce material. -/
theorem AesGcmInverts.suite (h : P.AesGcmInverts) : P.suite.AeadInverts := by
  intro key nonce plaintext aad ct hct
  change P.aeadEncrypt key nonce plaintext aad = .ok ct at hct
  change P.aeadDecrypt key nonce ct aad = .ok plaintext
  unfold aeadEncrypt at hct
  unfold aeadDecrypt
  cases hc : P.aesGcmEncrypt key (P.deriveNonce nonce) plaintext aad with
  | none => rw [hc] at hct; cases hct
  | some c =>
    rw [hc] at hct
    simp only [Except.ok.injEq] at hct
    subst hct
    rw [h _ _ _ _ _ hc]

/-! ## An instance that can be run

Bytewise addition in place of X25519, a polynomial hash in place of HKDF and a keyed tag in place of
the cipher. It meets both assumptions, so statements that make them are not empty, and runs of the
ratchet can be evaluated over it. -/

def polyHash (bytes : Bytes) : Nat :=
  bytes.foldl (fun h b => h * 257 + b.toNat + 1) 7

def addBytes (a b : Array32) : Array32 :=
  ⟨List.zipWith (· + ·) a.val b.val, by rw [List.length_zipWith, a.property, b.property]; rfl⟩

def additive : Primitives where
  hkdf salt ikm info len := Lib.leBytes len (polyHash (salt ++ ikm ++ info))
  hkdf_length _ _ _ _ := Lib.leBytes_length _ _
  x25519Public a := a
  x25519 := addBytes
  aesGcmEncrypt key nonce msg aad :=
    some (Lib.leBytes 16 (polyHash (key.val ++ nonce ++ aad)) ++ msg)
  aesGcmDecrypt key nonce ct aad :=
    if ct.take 16 = Lib.leBytes 16 (polyHash (key.val ++ nonce ++ aad)) then some (ct.drop 16)
    else none

theorem additive_commutes : additive.X25519Commutes := by
  intro a b
  exact Subtype.ext (List.zipWith_comm_of_comm (by intro x y; exact UInt8.add_comm x y))

theorem additive_inverts : additive.AesGcmInverts := by
  intro key nonce msg aad ct hct
  simp only [additive, Option.some.injEq] at hct ⊢
  subst hct
  rw [List.take_left' (Lib.leBytes_length _ _), List.drop_left' (Lib.leBytes_length _ _), if_pos rfl]

def additiveGcm : GcmPrimitives where
  toPrimitives := additive
  encrypt_isSome _ _ _ _ _ _ := rfl
  encrypt_length key nonce msg aad ct hct := by
    simp only [additive, Option.some.injEq] at hct
    rw [← hct, List.length_append, Lib.leBytes_length, Nat.add_comm]

end Primitives

end Cypher.Crypto
