import Cypher.Signaling.Hex

/-!
# What the gateway sends to signaling

The subjects `signaling.*` of the gateway's publications and the envelopes published on them. The
registrations of sessions, which have their own messages, are `SessionEvent`s.
-/

namespace Cypher

/-- `session_id`, counted from one by `allocate_session_id`. -/
abbrev SessionId := Nat

inductive Subject where
  | requestPeer
  | iceCandidate
  | offer
  | answer
  | uploadPrekeys
  | getPrekeys
  | transportBootstrap
  | inboxStore
  | inboxFetch
  | inboxAck
  | chatSend
  | fileOffer
  | fileAccept
  | fileChunk
  | fileComplete
  | fileChunkAck
  | fileResume
  | createLink
  | data
  | raw
  deriving DecidableEq, Repr

/-- The JSON object of a publication: a frame's payload, or the sender's id for a JSON request. -/
inductive Envelope where
  | payload (sessionId : SessionId) (payload : Bytes)
  | request (sessionId : SessionId) (peerIdHex : List Char)
  deriving DecidableEq, Repr

/-- `signaling.session.register` and `signaling.session.deregister`. -/
inductive SessionEvent where
  | register (sessionId : SessionId) (peerIdHex : List Char)
  | deregister (sessionId : SessionId)
  deriving DecidableEq, Repr

end Cypher
