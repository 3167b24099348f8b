import Cypher.Proto.Schema
import Cypher.Signaling.Signing

/-!
# Signed inbox responses on the client (`onion/bootstrap.rs`)

`parse` takes the last 104 bytes of a response for a claim token and a signature if what remains
dispatches to `InboxMessages`, and otherwise falls back to an unsigned response. `verify` checks the
signature of a response that has a claim token.
-/

namespace Cypher.Onion

open Proto Signaling

def capabilitySignedInbox : UInt32 := 1

structure TransportBootstrap where
  inboxVerifyingKey : Array32
  capabilities : UInt32

def TransportBootstrap.supportsSignedInbox (bootstrap : TransportBootstrap) : Bool :=
  bootstrap.capabilities &&& capabilitySignedInbox != 0

/-- The client's anonymous transport. It is only ever built over a bootstrap that advertised signed
inbox responses. -/
structure AnonymousTransportService where
  bootstrap : TransportBootstrap
  signedInbox : bootstrap.supportsSignedInbox = true

def AnonymousTransportService.new (bootstrap : TransportBootstrap) :
    Result AnonymousTransportService :=
  if h : bootstrap.supportsSignedInbox = true then .ok ⟨bootstrap, h⟩
  else .error (.protocol "transport bootstrap missing signed inbox capability")

def claimTokenLen : Nat := 40

def serverSigLen : Nat := 64

def trailerLen : Nat := claimTokenLen + serverSigLen

structure SignedInboxResponse where
  protoPayload : Bytes
  claimToken : Option Bytes
  serverSig : Option Array64
  deriving DecidableEq

def claimTokenTimestamp (token : Bytes) : Result UInt64 :=
  if token.length ≠ claimTokenLen then .error (.protocol "invalid claim token length")
  else .ok (UInt64.ofNat (Lib.leNat (token.take 8)))

namespace SignedInboxResponse

/-- The signed layout: a payload that dispatches to `InboxMessages`, 40 bytes of claim token and 64
bytes of signature. -/
def parseSigned (raw : Bytes) : Option SignedInboxResponse :=
  if h : raw.length > trailerLen then
    let protoLen := raw.length - trailerLen
    let protoPayload := raw.take protoLen
    if (dispatchInbox protoPayload).isSome then
      some
        { protoPayload
          claimToken := some (slice raw protoLen (protoLen + claimTokenLen))
          serverSig := some ⟨raw.drop (protoLen + claimTokenLen), by
            rw [List.length_drop]
            simp only [trailerLen, claimTokenLen, serverSigLen, protoLen] at h ⊢
            omega⟩ }
    else none
  else none

def parse (raw : Bytes) : Result SignedInboxResponse :=
  match parseSigned raw with
  | some signed => .ok signed
  | none =>
    if (dispatchInbox raw).isSome then
      .ok { protoPayload := raw, claimToken := none, serverSig := none }
    else .error (.protocol "invalid inbox response payload")

def verify (E : Ed25519) (response : SignedInboxResponse) (verifyingKey : Array32)
    (inboxId : Bytes) : Result Unit :=
  match response.claimToken with
  | none => .ok ()
  | some claimToken =>
    match response.serverSig with
    | none => .error (.protocol "missing inbox response signature")
    | some serverSig =>
      match claimTokenTimestamp claimToken with
      | .error err => .error err
      | .ok timestamp =>
        match dispatch coreP2p response.protoPayload with
        | .error err => .error err
        | .ok m =>
          match m.inboxMessages? with
          | none => .error (.protocol "signed inbox response did not contain InboxMessages")
          | some inbox =>
            match E.verify verifyingKey
              (signedData inbox.messages inbox.count inboxId timestamp) serverSig with
            | .error e => .error (.protocol ("invalid inbox response signature: " ++ e))
            | .ok () => .ok ()

end SignedInboxResponse

end Cypher.Onion
