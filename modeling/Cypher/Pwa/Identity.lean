import Cypher.Crypto.Suite
import Cypher.Signaling.Hex

/-!
# The identity of the web client (`clients/pwa/src/storage/identity.ts`, `crypto.ts`)

The labels are those of `identity.rs`, but no key pair is made of an output: the bytes that the Rust
client takes as its Ed25519 signing key are the peer id here.
-/

namespace Cypher.Pwa

open Crypto

variable (P : Primitives)

/-- `hkdfDerive`: HKDF with an empty salt, 256 bits. -/
def hkdfDerive (seed : Array32) (info : Bytes) : Array32 := P.expand32 [] seed.val info

structure IdentityData where
  seed : Array32
  nickname : String
  peerId : Array32
  peerIdHex : List Char

def deriveIdentity (seed : Array32) (nickname : String) : IdentityData :=
  let edBytes := hkdfDerive P seed (ascii "cypher-ed25519")
  { seed := seed
    nickname := nickname
    peerId := edBytes
    peerIdHex := Signaling.hexEncode edBytes.val }

def deriveStorageKey (seed : Array32) : Array32 := hkdfDerive P seed (ascii "cypher-storage-key")

def deriveInboxId (seed : Array32) : Array32 := hkdfDerive P seed (ascii "cypher-inbox")

end Cypher.Pwa
