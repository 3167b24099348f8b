import Cypher.Common

/-!
# Signatures and claim tokens of the inbox (`services/signaling/src/signing.rs`)

`Ed25519` and `HmacSha256` stand for the crates `ed25519_dalek` and `hmac`. A claim token is the
timestamp of a fetch followed by an HMAC over inbox id and timestamp, so it depends on nothing else.
-/

namespace Cypher.Signaling

/-- The functions of `ed25519_dalek`; verification fails with the text of its error. -/
structure Ed25519 where
  verifyingKey : Array32 → Array32
  sign : Array32 → Bytes → Array64
  verify : Array32 → Bytes → Array64 → Except String Unit

/-- `verify` accepts what `sign` produced. -/
def Ed25519.VerifiesSigned (E : Ed25519) : Prop :=
  ∀ seed msg, E.verify (E.verifyingKey seed) msg (E.sign seed msg) = .ok ()

abbrev HmacSha256 := Bytes → Bytes → Array32

structure ServerSigner where
  signingSeed : Array32
  hmacSecret : Array32

/-- The bytes under an inbox signature: `messages || count || inbox_id || timestamp`. -/
def signedData (messagesBlob : Bytes) (count : UInt32) (inboxId : Bytes) (timestamp : UInt64) :
    Bytes :=
  messagesBlob ++ Lib.leBytes 4 count.toNat ++ inboxId ++ Lib.leBytes 8 timestamp.toNat

namespace ServerSigner

def signInboxResponse (E : Ed25519) (signer : ServerSigner) (messagesBlob : Bytes) (count : UInt32)
    (inboxId : Bytes) (timestamp : UInt64) : Array64 :=
  E.sign signer.signingSeed (signedData messagesBlob count inboxId timestamp)

def generateClaimToken (hmac : HmacSha256) (signer : ServerSigner) (inboxId : Bytes)
    (timestamp : UInt64) : Bytes :=
  Lib.leBytes 8 timestamp.toNat ++
    (hmac signer.hmacSecret.val (inboxId ++ Lib.leBytes 8 timestamp.toNat)).val

/-- Bytewise difference, accumulated without an early exit. -/
def constantTimeEq (a b : Bytes) : Bool :=
  if a.length ≠ b.length then false
  else (a.zip b).foldl (fun (diff : UInt8) xy => diff ||| (xy.1 ^^^ xy.2)) 0 == 0

/-- `now` is the server's clock in seconds. -/
def verifyClaimToken (hmac : HmacSha256) (signer : ServerSigner) (inboxId token : Bytes)
    (maxAgeSecs now : Nat) : Bool :=
  if token.length ≠ 40 then false
  else
    let timestamp := Lib.leNat (token.take 8)
    if now - timestamp > maxAgeSecs then false
    else if timestamp > now + 60 then false
    else constantTimeEq (signer.generateClaimToken hmac inboxId (UInt64.ofNat timestamp)) token

@[simp] theorem generateClaimToken_length (hmac : HmacSha256) (signer : ServerSigner)
    (inboxId : Bytes) (timestamp : UInt64) :
    (signer.generateClaimToken hmac inboxId timestamp).length = 40 := by
  simp [generateClaimToken, (hmac _ _).property]

end ServerSigner

/-! ## A runnable instance -/

/-- The bytes as digits of a number; no two byte strings have the same one. -/
def byteDigest (data : Bytes) : Nat :=
  data.foldl (fun acc byte => 257 * acc + byte.toNat + 1) 0

def HmacSha256.digest : HmacSha256 :=
  fun key data => Array32.ofNat (byteDigest (key ++ data))

/-- A key is its own verifying key. -/
def Ed25519.digest : Ed25519 where
  verifyingKey := id
  sign seed msg := ⟨Lib.leBytes 64 (byteDigest (seed.val ++ msg)), Lib.leBytes_length _ _⟩
  verify key msg sig :=
    if sig.val = Lib.leBytes 64 (byteDigest (key.val ++ msg)) then .ok ()
    else .error "signature error: Verification equation was not satisfied"

theorem Ed25519.digest_verifiesSigned : Ed25519.digest.VerifiesSigned := by
  intro seed msg
  exact if_pos rfl

end Cypher.Signaling
