import Cypher.Crypto.Identity
import Cypher.Pwa.Identity
import Mathlib.Data.List.DropRight

/-!
# What is published of a seed, and what is secret

Both clients derive their values from one seed by label. A label of which one client publishes the
output must not be one of which the other keeps it. `Label` is the set of labels in use;
`Published.label?` and `Secret.label` say of which of them a value is the output, and a published value
is a secret exactly if they agree (`Separates.value_eq_iff`).
-/

namespace Cypher.Pwa

open Crypto
open Signaling (Ed25519)

inductive Label where
  | ed25519
  | x25519
  | storageKey
  | inbox
  deriving DecidableEq

def Label.info : Label → Bytes
  | ed25519 => ascii "cypher-ed25519"
  | x25519 => ascii "cypher-x25519"
  | storageKey => ascii "cypher-storage-key"
  | inbox => ascii "cypher-inbox"

/-- What leaves the clients. The web client has no X25519 identity key. -/
inductive Published where
  | rustPeerId
  | rustIdentityKey
  | rustInboxId
  | pwaPeerId
  | pwaInboxId
  deriving DecidableEq

inductive Secret where
  | rustSigningSeed
  | rustDhSecret
  | rustStorageKey
  | pwaStorageKey
  deriving DecidableEq

section Values

variable (P : Primitives) (E : Ed25519) (seed : IdentitySeed)

def Published.value : Published → Array32
  | rustPeerId => (IdentitySeed.deriveIdentity P seed).peerId E
  | rustIdentityKey => (IdentitySeed.deriveIdentity P seed).dhPublicKey P
  | rustInboxId => IdentitySeed.deriveInboxId P seed
  | pwaPeerId => (deriveIdentity P seed "").peerId
  | pwaInboxId => deriveInboxId P seed

def Secret.value : Secret → Array32
  | rustSigningSeed => (IdentitySeed.deriveIdentity P seed).signingKey
  | rustDhSecret => (IdentitySeed.deriveIdentity P seed).dhSecret
  | rustStorageKey => IdentitySeed.deriveStorageKey P seed
  | pwaStorageKey => deriveStorageKey P seed

/-- What is assumed of HKDF and of the public keys, for one seed. -/
structure Separates : Prop where
  /-- HMAC fills its key up with zeros, so no salt and an empty one are the same. -/
  salt : ∀ info, IdentitySeed.expand P seed info = hkdfDerive P seed info
  /-- Different labels have different outputs. -/
  labels : ∀ l l' : Label, hkdfDerive P seed l.info = hkdfDerive P seed l'.info → l = l'
  /-- No Ed25519 key is an output. -/
  verifyingKey : ∀ key (l : Label), E.verifyingKey key ≠ hkdfDerive P seed l.info
  /-- No X25519 key is an output. -/
  publicKey : ∀ secret (l : Label), P.x25519Public secret ≠ hkdfDerive P seed l.info

end Values

/-- The label of which a value is the output; public keys have none. -/
def Published.label? : Published → Option Label
  | rustPeerId => none
  | rustIdentityKey => none
  | rustInboxId => some .inbox
  | pwaPeerId => some .ed25519
  | pwaInboxId => some .inbox

def Secret.label : Secret → Label
  | rustSigningSeed => .ed25519
  | rustDhSecret => .x25519
  | rustStorageKey => .storageKey
  | pwaStorageKey => .storageKey

namespace Separates

variable {P : Primitives} {E : Ed25519} {seed : IdentitySeed}

theorem secret_value (h : Separates P E seed) (s : Secret) :
    s.value P seed = hkdfDerive P seed s.label.info := by
  cases s with
  | rustSigningSeed => exact h.salt _
  | rustDhSecret => exact h.salt _
  | rustStorageKey => exact h.salt _
  | pwaStorageKey => rfl

theorem published_value (h : Separates P E seed) {v : Published} {l : Label}
    (hl : v.label? = some l) : v.value P E seed = hkdfDerive P seed l.info := by
  cases v with
  | rustPeerId => cases hl
  | rustIdentityKey => cases hl
  | rustInboxId =>
    obtain rfl := Option.some.inj hl
    exact h.salt _
  | pwaPeerId =>
    obtain rfl := Option.some.inj hl
    rfl
  | pwaInboxId =>
    obtain rfl := Option.some.inj hl
    rfl

theorem published_ne (h : Separates P E seed) {v : Published} (hl : v.label? = none) (l : Label) :
    v.value P E seed ≠ hkdfDerive P seed l.info := by
  cases v with
  | rustPeerId => exact h.verifyingKey _ l
  | rustIdentityKey => exact h.publicKey _ l
  | rustInboxId => cases hl
  | pwaPeerId => cases hl
  | pwaInboxId => cases hl

/-- A published value is a secret exactly if both are the output of one label. -/
theorem value_eq_iff (h : Separates P E seed) (v : Published) (s : Secret) :
    v.value P E seed = s.value P seed ↔ v.label? = some s.label := by
  rw [h.secret_value s]
  cases hl : v.label? with
  | none =>
    constructor
    · intro heq
      exact absurd heq (h.published_ne hl s.label)
    · intro hnone
      cases hnone
  | some l =>
    rw [h.published_value hl, Option.some.injEq]
    exact ⟨h.labels l s.label, fun heq => by rw [heq]⟩

end Separates

/-- **Which published value is a secret of the same seed.** Of all pairs of a published value and a
secret, over both clients, the one pair that is equal is the peer id of the web client and the signing
seed of the Rust client. -/
theorem published_ne_secret_iff (P : Primitives) (E : Ed25519) (seed : IdentitySeed)
    (h : Separates P E seed) (v : Published) (s : Secret) :
    v.value P E seed ≠ s.value P seed ↔ ¬ (v = .pwaPeerId ∧ s = .rustSigningSeed) := by
  rw [ne_eq, h.value_eq_iff v s]
  cases v <;> cases s <;> decide

/-- Whoever sees the peer id of the web client can sign for the Rust client of the same seed. -/
theorem pwaPeerId_signs (P : Primitives) (E : Ed25519) (seed : IdentitySeed)
    (h : Separates P E seed) (hsign : E.VerifiesSigned) (msg : Bytes) :
    E.verify (Published.rustPeerId.value P E seed) msg
      (E.sign (Published.pwaPeerId.value P E seed) msg) = .ok () := by
  have hpeer : Published.rustPeerId.value P E seed =
      E.verifyingKey (Published.pwaPeerId.value P E seed) :=
    congrArg E.verifyingKey (h.salt _)
  rw [hpeer]
  exact hsign _ msg

/-! ## An instance

HKDF by a polynomial hash, with the zeros at the end of the salt ignored and the first byte 0; public
keys with another first byte. -/

theorem length_set_head (a : Array32) (b : UInt8) : (a.val.set 0 b).length = 32 := by
  rw [List.length_set, a.property]

def setHead (a : Array32) (b : UInt8) : Array32 := ⟨a.val.set 0 b, length_set_head a b⟩

def taggedPrimitives : Primitives :=
  { Primitives.additive with
    hkdf := fun salt ikm info len =>
      Lib.leBytes len (256 * Primitives.polyHash (salt.rdropWhile (· = 0) ++ ikm ++ info))
    hkdf_length := fun _ _ _ _ => Lib.leBytes_length _ _
    x25519Public := fun secret => setHead secret 1 }

def taggedEd25519 : Ed25519 := { Ed25519.digest with verifyingKey := fun key => setHead key 2 }

theorem head?_setHead (a : Array32) (b : UInt8) : (setHead a b).val.head? = some b := by
  obtain ⟨bytes, hlen⟩ := a
  cases bytes with
  | nil => cases hlen
  | cons x xs => rfl

theorem head?_hkdfDerive (seed : Array32) (info : Bytes) :
    (hkdfDerive taggedPrimitives seed info).val.head? = some 0 := by
  have hmod : ∀ n, UInt8.ofNat (256 * n) = 0 := by
    intro n
    rw [← UInt8.toNat_inj, UInt8.toNat_ofNat', Nat.mul_mod_right]
    rfl
  exact congrArg some (hmod _)

theorem setHead_ne_hkdfDerive {b : UInt8} (hb : b ≠ 0) (a seed : Array32) (info : Bytes) :
    setHead a b ≠ hkdfDerive taggedPrimitives seed info := by
  intro heq
  have hhead := head?_setHead a b
  rw [heq, head?_hkdfDerive] at hhead
  exact hb (Option.some.inj hhead).symm

theorem tagged_separates : Separates taggedPrimitives taggedEd25519 (.ofNat 7) where
  salt _ := rfl
  labels l l' h := by
    cases l <;> cases l' <;> first | rfl | exact absurd h (by decide +kernel)
  verifyingKey key l := setHead_ne_hkdfDerive (by decide) key _ _
  publicKey secret l := setHead_ne_hkdfDerive (by decide) secret _ _

/-- The other values of that seed are apart: here the inbox id and the storage key. -/
theorem published_ne_secret_inbox :
    Separates taggedPrimitives taggedEd25519 (.ofNat 7) ∧
      Published.pwaInboxId.value taggedPrimitives taggedEd25519 (.ofNat 7) ≠
        Secret.rustStorageKey.value taggedPrimitives (.ofNat 7) :=
  ⟨tagged_separates,
    (published_ne_secret_iff taggedPrimitives taggedEd25519 (.ofNat 7) tagged_separates .pwaInboxId
      .rustStorageKey).mpr (by decide)⟩

/-- The peer id that the web client announces is the signing seed of the Rust client. -/
theorem pwa_peerId_is_signing_seed :
    Separates taggedPrimitives taggedEd25519 (.ofNat 7) ∧
      (deriveIdentity taggedPrimitives (.ofNat 7) "alice").peerId =
        (IdentitySeed.deriveIdentity taggedPrimitives (.ofNat 7)).signingKey :=
  ⟨tagged_separates, by decide +kernel⟩

end Cypher.Pwa
