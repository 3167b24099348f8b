import Cypher.Crypto.Suite
import Cypher.Proto.Codec

/-!
# Circuits of the client (`onion/circuit.rs`, `encoder.rs`, `decoder.rs`)

A circuit is a key shared with one relay, made from a fresh X25519 key pair. Its messages are
encrypted under nonces made of the circuit id and a counter; a response takes the number of its
request with the top bit set. What `Circuit::new` samples, the ephemeral secret and the circuit id, is
a parameter.
-/

namespace Cypher.Onion

open Crypto Proto

abbrev CircuitId := {b : Bytes // b.length = 16}

def onionPrefix : UInt8 := 0x02
def subtypeRelayRequest : UInt8 := 0x02
def subtypeRelayResponse : UInt8 := 0x03

structure Circuit where
  circuitId : CircuitId
  circuitKey : Array32
  ephemeralPublic : PublicKey
  /-- The `AtomicU64` counter. -/
  seq : Nat

/-- The key of a circuit, from the output of the key exchange. -/
def circuitKeyOf (P : Primitives) (dhShared : Array32) : Array32 :=
  P.expand32 (ascii "cypher-circuit-v1") dhShared.val (ascii "circuit-key")

def nonceMaterial (circuitId : CircuitId) (seqNo : Nat) : Bytes :=
  circuitId.val ++ Lib.leBytes 8 seqNo

theorem nonceMaterial_inj {c c' : CircuitId} {n n' : Nat} (hn : n < u64Size) (hn' : n' < u64Size) :
    nonceMaterial c n = nonceMaterial c' n' ↔ c = c' ∧ n = n' := by
  constructor
  · intro heq
    obtain ⟨hid, hseq⟩ := List.append_inj heq (c.property.trans c'.property.symm)
    exact ⟨Subtype.ext hid, Lib.leBytes_inj (k := 8) hn hn' hseq⟩
  · rintro ⟨rfl, rfl⟩
    rfl

def responseNonceMaterial (circuitId : CircuitId) (seqNo : Nat) : Bytes :=
  circuitId.val ++ Lib.leBytes 8 (seqNo ||| 2 ^ 63)

/-- What is encrypted, for either direction. The length is cut to a `u32`. -/
def relayInner (subtype : UInt8) (circuitId : CircuitId) (payload : Bytes) : Bytes :=
  subtype :: (circuitId.val ++ Lib.leBytes 4 payload.length ++ payload)

namespace Circuit

def new (P : Primitives) (ek : Array32) (circuitId : CircuitId) (relayStaticPk : PublicKey) :
    Circuit where
  circuitId
  circuitKey := circuitKeyOf P (P.x25519 ek relayStaticPk)
  ephemeralPublic := P.x25519Public ek
  seq := 0

/-- `fetch_add` wraps. -/
def nextNonceMaterial (circuit : Circuit) : Circuit × Bytes :=
  ({ circuit with seq := (circuit.seq + 1) % u64Size },
    nonceMaterial circuit.circuitId circuit.seq)

end Circuit

variable (P : Primitives)

/-- The counter advances also if the encryption fails. -/
def encodeRelayRequest (circuit : Circuit) (requestPayload : Bytes) : Circuit × Result Bytes :=
  let (circuit, nonce) := circuit.nextNonceMaterial
  let seqNo := slice nonce 16 24
  let inner := relayInner subtypeRelayRequest circuit.circuitId requestPayload
  (circuit, (P.aeadEncrypt circuit.circuitKey nonce inner circuit.circuitId.val).map fun ciphertext =>
    onionPrefix :: (circuit.ephemeralPublic.val ++ circuit.circuitId.val ++ seqNo ++ ciphertext))

def encodeRelayRequests : Circuit → List Bytes → Circuit × List (Result Bytes)
  | circuit, [] => (circuit, [])
  | circuit, payload :: rest =>
    let (circuit, wire) := encodeRelayRequest P circuit payload
    let (circuit, wires) := encodeRelayRequests circuit rest
    (circuit, wire :: wires)

def decodeRelayResponse (circuitKey : Array32) (circuitId : CircuitId) (data : Bytes) :
    Result Bytes :=
  if data.length < 9 ∨ data.head? ≠ some onionPrefix then
    .error (.protocol "missing onion prefix in response")
  else
    let seqNo := Lib.leNat (slice data 1 9)
    let ciphertext := data.drop 9
    let nonce := responseNonceMaterial circuitId seqNo
    match P.aeadDecrypt circuitKey nonce ciphertext circuitId.val with
    | .error err => .error err
    | .ok inner =>
      if inner.head? ≠ some subtypeRelayResponse then
        .error (.protocol "unexpected onion response subtype")
      else if inner.length < 1 + 16 + 4 then
        .error (.protocol "onion response inner too short")
      else
        let payloadLen := Lib.leNat (slice inner 17 21)
        if 21 + payloadLen > inner.length then
          .error (.protocol "onion response payload length invalid")
        else .ok (slice inner 21 (21 + payloadLen))

end Cypher.Onion
