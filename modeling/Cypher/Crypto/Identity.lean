import Cypher.Crypto.Suite
import Cypher.Signaling.Signing

/-!
# Identities from a seed (`cypher-crypto/src/identity.rs`)

Every key of a persistent identity is an HKDF output of the 32-byte seed, told apart by the `info`
label. `SigningKey` and `X25519StaticSecret` are their 32 secret bytes; the functions from them to
public keys are those of `ed25519_dalek` and `x25519_dalek`.
-/

namespace Cypher.Crypto

open Signaling (Ed25519)

/-- The salt of `Hkdf::new(None, _)`: as many zeros as SHA-256 has bytes. -/
def defaultSalt : Bytes := List.replicate 32 0

abbrev IdentitySeed := Array32

structure IdentityKeyPair where
  signingKey : Array32
  dhSecret : Array32

namespace IdentitySeed

variable (P : Primitives)

/-- 32 bytes of `Hkdf::<Sha256>::new(None, seed)` for a label. -/
def expand (seed : IdentitySeed) (info : Bytes) : Array32 := P.expand32 defaultSalt seed.val info

def deriveStorageKey (seed : IdentitySeed) : Array32 := expand P seed (ascii "cypher-storage-key")

def deriveInboxId (seed : IdentitySeed) : Array32 := expand P seed (ascii "cypher-inbox")

/-- `derive_identity` and `IdentityKeyPair::from_seed`. -/
def deriveIdentity (seed : IdentitySeed) : IdentityKeyPair :=
  { signingKey := expand P seed (ascii "cypher-ed25519")
    dhSecret := expand P seed (ascii "cypher-x25519") }

end IdentitySeed

namespace IdentityKeyPair

def dhPublicKey (P : Primitives) (identity : IdentityKeyPair) : PublicKey :=
  P.x25519Public identity.dhSecret

def peerId (E : Ed25519) (identity : IdentityKeyPair) : Array32 :=
  E.verifyingKey identity.signingKey

end IdentityKeyPair

end Cypher.Crypto
