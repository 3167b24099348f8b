import Cypher.Crypto.Ratchet
import Cypher.Lib.OneWayChain
import Mathlib.Data.Sym.Sym2

/-!
# The ratchet over symbolic keys

Keys are terms: `kdf_chain` and `dh_ratchet` are free constructors, a DH output is named by the
unordered pair of its two public keys, and `aead_decrypt` opens exactly what `aead_encrypt` sealed
under the same key, nonce material and associated data. What is left open (which public key a secret
has, the bytes of a key, the largest plaintext the cipher takes) is the `Alphabet`.
-/

namespace Cypher.Crypto

inductive SymKey where
  | atom (n : Nat)
  | x3dh (dhConcat : Bytes)
  | dh (ends : Sym2 PublicKey)
  | root (rootKey dhOutput : SymKey)
  | chain (rootKey dhOutput : SymKey)
  | next (chainKey : SymKey)
  | message (chainKey : SymKey)

-- A derived instance would not evaluate on DH outputs: their equality is one of quotients.
def SymKey.same : SymKey → SymKey → Bool
  | atom m, atom n => decide (m = n)
  | x3dh a, x3dh b => decide (a = b)
  | dh p, dh q => decide (p = q)
  | root k d, root k' d' => same k k' && same d d'
  | chain k d, chain k' d' => same k k' && same d d'
  | next k, next k' => same k k'
  | message k, message k' => same k k'
  | _, _ => false

theorem SymKey.same_iff {k k' : SymKey} : k.same k' = true ↔ k = k' := by
  induction k generalizing k' with
  | atom | x3dh | dh => cases k' <;> simp [same]
  | root k d ihk ihd | chain k d ihk ihd => cases k' <;> simp [same, ihk, ihd]
  | next k ih | message k ih => cases k' <;> simp [same, ih]

instance : DecidableEq SymKey := fun _ _ => decidable_of_iff _ SymKey.same_iff

inductive SymCt where
  | sealed (key : SymKey) (nonceMaterial plaintext aad : Bytes)
  | junk (bytes : Bytes)
  deriving DecidableEq

structure Alphabet (Secret : Type) where
  publicKey : Secret → PublicKey
  asBytes : SymKey → Bytes
  maxPlaintext : Nat

def Alphabet.suite {Secret : Type} (A : Alphabet Secret) : Suite SymKey Secret SymCt where
  asBytes := A.asBytes
  kdfChain ck := (.next ck, .message ck)
  dhRatchet rootKey dhOutput := (.root rootKey dhOutput, .chain rootKey dhOutput)
  x3dhKdf := .x3dh
  publicKey := A.publicKey
  diffieHellman secret pk := .dh s(A.publicKey secret, pk)
  aeadEncrypt key nonceMaterial plaintext aad :=
    if plaintext.length ≤ A.maxPlaintext then .ok (.sealed key nonceMaterial plaintext aad)
    else .error (.crypto "AES-GCM encryption failed: aead::Error")
  aeadDecrypt key nonceMaterial ciphertext aad :=
    match ciphertext with
    | .sealed key' nonceMaterial' plaintext aad' =>
      if key' = key ∧ nonceMaterial' = nonceMaterial ∧ aad' = aad then .ok plaintext
      else .error (.crypto "AES-GCM decryption failed: aead::Error")
    | .junk _ => .error (.crypto "AES-GCM decryption failed: aead::Error")

/-- Public keys are the secrets themselves, and keys have no bytes. -/
def Alphabet.plain : Alphabet Array32 where
  publicKey secret := secret
  asBytes _ := []
  maxPlaintext := 100

variable {Secret : Type} {A : Alphabet Secret}

theorem Alphabet.aeadDecrypt_ok {key : SymKey} {nonceMaterial plaintext aad : Bytes} {ct : SymCt}
    (h : A.suite.aeadDecrypt key nonceMaterial ct aad = .ok plaintext) :
    ct = .sealed key nonceMaterial plaintext aad := by
  cases ct with
  | sealed key' nonceMaterial' plaintext' aad' =>
    simp only [suite] at h
    split at h
    · next heq =>
      obtain ⟨rfl, rfl, rfl⟩ := heq
      simp only [Except.ok.injEq] at h
      rw [h]
    · cases h
  | junk bytes => cases h

namespace SymKey

def origin : SymKey → SymKey
  | next ck => origin ck
  | key => key

@[simp] theorem origin_next (ck : SymKey) : (next ck).origin = ck.origin := rfl

/-- How many DH ratchet derivations lie under a root key. -/
def depth : SymKey → Nat
  | root rootKey _ => depth rootKey + 1
  | _ => 0

def generation (ck : SymKey) : Nat :=
  match ck.origin with
  | chain rootKey _ => depth rootKey
  | _ => 0

theorem origin_iterate_next (ck : SymKey) (j : Nat) : (next^[j] ck).origin = ck.origin := by
  induction j with
  | zero => rfl
  | succ j ih => rw [Function.iterate_succ_apply', origin_next, ih]

theorem noReturn_next : Lib.NoReturn next := by
  have hsize : ∀ (ck : SymKey) (j : Nat), sizeOf (next^[j] ck) = sizeOf ck + j := by
    intro ck j
    induction j with
    | zero => rfl
    | succ j ih => rw [Function.iterate_succ_apply', next.sizeOf_spec, ih]; omega
  intro ck j heq
  have := hsize ck (j + 1)
  rw [heq] at this
  omega

end SymKey

end Cypher.Crypto
