import Cypher.Nats
import Cypher.Onion.Circuit
import Cypher.Proto.Schema
import Mathlib.Data.List.AList

/-!
# The relay's side of a circuit (`relay/src/onion.rs`)

`process_onion_request` is cut where it waits for signaling: `decryptRequest` and `forwardRequest` are
what comes before, `answerRequest` what comes after. The cache of circuits belongs to one connection
and has the highest sequence number of each; it is updated before the ciphertext is checked. The
reply of signaling is a parameter. The relay has constants and layouts of its own, which have to be
those of the client (`Onion.Circuit`).
-/

namespace Cypher.Relay

open Crypto Onion Proto

def onionPrefix : UInt8 := 0x02
def subtypeRelayRequest : UInt8 := 0x02
def subtypeRelayResponse : UInt8 := 0x03
def maxCircuits : Nat := 16

inductive OnionError where
  | requestTooShort
  | replayed (seqNo last : Nat)
  | circuitLimit
  | decrypt (err : Error)
  | innerTooShort
  | subtype (byte : UInt8)
  | payloadLength
  | dispatch (err : Error)
  | unsupported (m : Message)
  | timedOut
  | natsFailed (msg : String)
  | encrypt (err : Error)

/-- The texts. `debug` is the `Debug` form of a message. -/
def OnionError.text (debug : Message → String) : OnionError → String
  | requestTooShort => "onion request too short"
  | replayed seqNo last =>
    "replayed or out-of-order seq_no " ++ toString seqNo ++ " (last: " ++ toString last ++ ")"
  | circuitLimit => "circuit limit reached (" ++ toString maxCircuits ++ "), rejecting new circuit"
  | decrypt err => "AEAD decrypt failed: " ++ err.text
  | innerTooShort => "onion inner too short"
  | subtype byte => "unexpected subtype: 0x" ++ String.ofList (Signaling.hexEncode [byte])
  | payloadLength => "inner payload length exceeds data"
  | dispatch err => err.text
  | unsupported m => "unsupported onion request payload: " ++ debug m
  | timedOut => "NATS request to signaling timed out"
  | natsFailed msg => "NATS request failed: " ++ msg
  | encrypt err => "AEAD encrypt response failed: " ++ err.text

/-- The circuit key and the highest sequence number, by ephemeral key and circuit id. -/
abbrev CircuitCache := AList fun _ : PublicKey × CircuitId => Array32 × Nat

/-- A request that is decrypted, with what its response is encrypted under. -/
structure OpenedRequest where
  circuitKey : Array32
  circuitId : CircuitId
  seqNo : Nat
  inner : Bytes
  deriving DecidableEq

/-- `copy_from_slice` of the `n` bytes from `start` on. -/
def copyFromSlice (n : Nat) (data : Bytes) (start : Nat) (h : start + n ≤ data.length) :
    {b : Bytes // b.length = n} :=
  ⟨slice data start (start + n), (length_slice h).trans (Nat.add_sub_cancel_left _ _)⟩

variable (P : Primitives) (relaySecret : Array32)

def deriveCircuitKey (clientEk : PublicKey) : Array32 :=
  P.expand32 (ascii "cypher-circuit-v1") (P.x25519 relaySecret clientEk).val (ascii "circuit-key")

/-- `nonce_material` of `process_onion_request`. -/
def nonceMaterial (circuitId : CircuitId) (seqNo : Nat) : Bytes :=
  circuitId.val ++ Lib.leBytes 8 seqNo

def responseNonceMaterial (circuitId : CircuitId) (seqNo : Nat) : Bytes :=
  circuitId.val ++ Lib.leBytes 8 (seqNo ||| 2 ^ 63)

/-- `resp_inner`. The length is cut to a `u32`. -/
def respInner (circuitId : CircuitId) (responsePayload : Bytes) : Bytes :=
  subtypeRelayResponse :: (circuitId.val ++ Lib.leBytes 4 responsePayload.length ++ responsePayload)

/-- The key of the circuit, from the cache if it is there. -/
def circuitKeyFor (circuits : CircuitCache) (clientEk : PublicKey) (circuitId : CircuitId)
    (seqNo : Nat) : CircuitCache × Except OnionError Array32 :=
  match circuits.lookup (clientEk, circuitId) with
  | some (key, last) =>
    if seqNo ≤ last then (circuits, .error (.replayed seqNo last))
    else (circuits.insert (clientEk, circuitId) (key, seqNo), .ok key)
  | none =>
    if circuits.entries.length ≥ maxCircuits then (circuits, .error .circuitLimit)
    else
      let key := deriveCircuitKey P relaySecret clientEk
      (circuits.insert (clientEk, circuitId) (key, seqNo), .ok key)

/-- The payload of a decrypted request. The circuit id inside is not looked at. -/
def parseInner (inner : Bytes) : Except OnionError Bytes :=
  if inner.length < 1 + 16 + 4 then .error .innerTooShort
  else if inner.headD 0 ≠ subtypeRelayRequest then .error (.subtype (inner.headD 0))
  else
    let payloadLen := Lib.leNat (slice inner 17 21)
    if 21 + payloadLen > inner.length then .error .payloadLength
    else .ok (slice inner 21 (21 + payloadLen))

/-- The header, the key and the decryption. -/
def decryptRequest (data : Bytes) (circuits : CircuitCache) :
    CircuitCache × Except OnionError OpenedRequest :=
  if h : data.length < 1 + 32 + 16 + 8 + 1 then (circuits, .error .requestTooShort)
  else
    let clientEk : PublicKey := copyFromSlice 32 data 1 (by omega)
    let circuitId : CircuitId := copyFromSlice 16 data 33 (by omega)
    let seqNo := Lib.leNat (slice data 49 57)
    let ciphertext := data.drop 57
    match circuitKeyFor P relaySecret circuits clientEk circuitId seqNo with
    | (circuits, .error err) => (circuits, .error err)
    | (circuits, .ok circuitKey) =>
      let nonce := nonceMaterial circuitId seqNo
      match P.aeadDecrypt circuitKey nonce ciphertext circuitId.val with
      | .error err => (circuits, .error (.decrypt err))
      | .ok inner => (circuits, .ok ⟨circuitKey, circuitId, seqNo, inner⟩)

/-- The subject on which signaling takes the request. -/
def requestSubject (payload : Bytes) : Except OnionError Subject :=
  match dispatch coreP2p payload with
  | .error err => .error (.dispatch err)
  | .ok m =>
    if m.ctor = inboxFetch then .ok .inboxFetch
    else if m.ctor = inboxAck then .ok .inboxAck
    else .error (.unsupported m)

/-- What goes to signaling for a decrypted request. -/
def forwardRequest (inner : Bytes) : Except OnionError (Subject × Envelope) := do
  let payload ← parseInner inner
  let subject ← requestSubject payload
  return (subject, .payload 0 payload)

def sealResponse (request : OpenedRequest) (responsePayload : Bytes) : Except OnionError Bytes :=
  let respNonce := responseNonceMaterial request.circuitId request.seqNo
  let inner := respInner request.circuitId responsePayload
  match P.aeadEncrypt request.circuitKey respNonce inner request.circuitId.val with
  | .error err => .error (.encrypt err)
  | .ok ciphertext => .ok (onionPrefix :: (Lib.leBytes 8 request.seqNo ++ ciphertext))

inductive NatsReply where
  | timedOut
  | failed (msg : String)
  | reply (payload : Bytes)

def answerRequest (request : OpenedRequest) : NatsReply → Except OnionError Bytes
  | .timedOut => .error .timedOut
  | .failed msg => .error (.natsFailed msg)
  | .reply responsePayload => sealResponse P request responsePayload

structure Processed where
  forwarded : Option (Subject × Envelope)
  result : Except OnionError Bytes

def processOnionRequest (nats : NatsReply) (data : Bytes) (circuits : CircuitCache) :
    CircuitCache × Processed :=
  match decryptRequest P relaySecret data circuits with
  | (circuits, .error err) => (circuits, ⟨none, .error err⟩)
  | (circuits, .ok request) =>
    match forwardRequest request.inner with
    | .error err => (circuits, ⟨none, .error err⟩)
    | .ok forwarded =>
      (circuits, ⟨some forwarded, answerRequest P request nats⟩)

/-- The requests of one connection in order, each with the reply of signaling. -/
def processOnionRequests : CircuitCache → List (Bytes × NatsReply) → CircuitCache × List Processed
  | circuits, [] => (circuits, [])
  | circuits, (data, nats) :: rest =>
    let (circuits, processed) := processOnionRequest P relaySecret nats data circuits
    let (circuits, others) := processOnionRequests circuits rest
    (circuits, processed :: others)

end Cypher.Relay
