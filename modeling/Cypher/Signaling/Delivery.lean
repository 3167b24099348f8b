import Cypher.Proto.Fields
import Cypher.Proto.Schema
import Cypher.Signaling.Registry

/-!
# Passing frames on (`services/signaling/src/delivery.rs`, `peer.rs`)

What the handlers of routed frames deliver. A handler reads the sending session's peer and the
target's session in Redis at different times: `atSender` and `atTarget` are the registry then. The
list of ICE candidates that `handle_ice_candidate` also keeps is left out.
-/

namespace Cypher.Signaling

open Proto

/-- A payload published on `gateway.session.{id}`, or put into an inbox. -/
inductive Delivery where
  | session (s : SessionId) (payload : Bytes)
  | inbox (inboxHex : List Char) (payload : Bytes)
  deriving DecidableEq, Repr

namespace Registry

/-- The result also says whether the peer was online. -/
def tryForwardOrInbox (r : Registry) (peerIdHex : List Char) (payload : Bytes) :
    Option Delivery × Bool :=
  match r.getSession peerIdHex with
  | some session => (some (.session session.sessionId payload), true)
  | none =>
    match r.getPrekeys peerIdHex with
    | none => (none, false)
    | some bundle =>
      match bundle.inboxId with
      | none => (none, false)
      | some inboxHex => (some (.inbox inboxHex payload), false)

def forwardToPeer (r : Registry) (peerIdHex : List Char) (payload : Bytes) : Option Delivery :=
  (r.getSession peerIdHex).map fun session => .session session.sessionId payload

end Registry

/-- A handler that passes messages of certain constructors on as they came. -/
def forwardMessage (accepted : List Constructor) (atTarget : Registry) (payload : Bytes) :
    Option Delivery :=
  match dispatch coreP2p payload with
  | .error _ => none
  | .ok m =>
    if m.ctor ∈ accepted then atTarget.forwardToPeer (hexEncode m.peerId) payload else none

def handleOffer : Registry → Bytes → Option Delivery :=
  forwardMessage [signalOffer]

def handleAnswer : Registry → Bytes → Option Delivery :=
  forwardMessage [signalAnswer]

def handleFileForward : Registry → Bytes → Option Delivery :=
  forwardMessage [fileOffer, fileAccept, fileChunk, fileComplete, fileChunkAck, fileResume]

/-- A candidate from a session without a peer is an error. -/
def handleIceCandidate (atSender atTarget : Registry) (s : SessionId) (payload : Bytes) :
    Option Delivery :=
  match dispatch coreP2p payload with
  | .error _ => none
  | .ok m =>
    if m.ctor = signalIceCandidate then
      match atSender.getPeerIdForSession s with
      | none => none
      | some _ => atTarget.forwardToPeer (hexEncode m.peerId) payload
    else none

/-- Chat is passed on with the sender's id in it. -/
def handleChatSend (atSender atTarget : Registry) (s : SessionId) (payload : Bytes) :
    Option Delivery :=
  match dispatch coreP2p payload with
  | .error _ => none
  | .ok m =>
    if m.ctor = chatSend then
      match atSender.getPeerIdForSession s with
      | none => none
      | some senderHex =>
        (atTarget.tryForwardOrInbox (hexEncode m.peerId)
          (m.withPeerId (hexDecodeBytes senderHex)).serialize).1
    else none

/-- What `handle_message` delivers of a frame that the gateway published. The other handlers pass no
frame on. -/
def handleMessage (atSender atTarget : Registry) (s : SessionId) (payload : Bytes) :
    Subject → Option Delivery
  | .iceCandidate => handleIceCandidate atSender atTarget s payload
  | .offer => handleOffer atTarget payload
  | .answer => handleAnswer atTarget payload
  | .chatSend => handleChatSend atSender atTarget s payload
  | .fileOffer | .fileAccept | .fileChunk | .fileComplete | .fileChunkAck | .fileResume =>
    handleFileForward atTarget payload
  | _ => none

end Cypher.Signaling
