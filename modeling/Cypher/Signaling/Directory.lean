import Cypher.Lib.Json
import Cypher.Signaling.Delivery

/-!
# Links and prekeys (`services/signaling/src/peer.rs`)

The requests that signaling answers itself: `create_link`, `signal.requestPeer` and
`keys.getPrekeys`. A reply is a JSON object published for the requesting session, one of two for each
request; the creator of a link is also notified of the peer that joins. The handlers read Redis
several times, and other tasks may come in between: there is one state for each read.
-/

namespace Cypher.Signaling

open Proto Lib

/-- Milliseconds. -/
def linkTtl : Nat := 24 * 60 * 60 * 1000

def prekeyTtl : Nat := 2 * 60 * 60 * 1000

/-- A JSON object published on `gateway.session.{id}`. -/
structure Publication where
  session : SessionId
  json : Json

/-- The registry with the links, `link:{link_id}`, by the bytes of their ids. -/
structure Directory extends Registry where
  links : Lib.Expiring Bytes (List Char)

/-! ## Replies -/

def linkCreated (linkId : List Char) : Json :=
  .obj [("link_id", .str linkId)]

def PeerSession.json (session : PeerSession) : Json :=
  .obj [("gateway_node", .text session.gatewayNode), ("session_id", .num session.sessionId)]

def peerFound (peerIdHex : List Char) (session : Option PeerSession) : Json :=
  .obj [("found", .bool true), ("peer_id", .str peerIdHex),
    ("session", .option (session.map PeerSession.json))]

def linkNotFound : Json :=
  .obj [("found", .bool false), ("error", .text "link not found or expired")]

def peerJoined (joinerHex : List Char) : Json :=
  .obj [("peer_joined", .bool true), ("peer_id", .str joinerHex)]

def prekeysFound (bundle : PrekeyBundle) : Json :=
  .obj [("found", .bool true), ("identity_key", .bytes bundle.identityKey),
    ("signed_prekey", .bytes bundle.signedPrekey), ("inbox_id", .option (bundle.inboxId.map .str))]

def prekeysNotFound : Json :=
  .obj [("found", .bool false), ("error", .text "prekeys not found for peer")]

namespace Directory

def empty : Directory :=
  ⟨.empty, .empty⟩

def getLink (d : Directory) (linkId : Bytes) : Option (List Char) :=
  d.links.seen d.now linkId

/-! ## Handlers -/

/-- `linkId` is what `LinkId::generate` yields, in ASCII. -/
def handleCreateLink (d : Directory) (linkId : List Char) (s : SessionId) (peerIdHex : List Char) :
    Directory × List Publication :=
  let key := linkId.map fun c => UInt8.ofNat c.toNat
  ({ d with links := d.links.set key peerIdHex (d.now + linkTtl) }, [⟨s, linkCreated linkId⟩])

def notifyCreator (atJoiner atCreator : Directory) (s : SessionId) (creatorHex : List Char) :
    List Publication :=
  match atJoiner.getPeerIdForSession s with
  | none => []
  | some joinerHex =>
    (atCreator.getSession creatorHex).toList.map fun session =>
      ⟨session.sessionId, peerJoined joinerHex⟩

/-- The reply to a `signal.requestPeer` comes first. -/
def answerRequestPeer (atLink atSession atJoiner atCreator : Directory) (s : SessionId) (linkId : Bytes) :
    List Publication :=
  match atLink.getLink linkId with
  | some creatorHex =>
    ⟨s, peerFound creatorHex (atSession.getSession creatorHex)⟩ ::
      notifyCreator atJoiner atCreator s creatorHex
  | none => [⟨s, linkNotFound⟩]

def handleRequestPeer (atLink atSession atJoiner atCreator : Directory) (s : SessionId)
    (payload : Bytes) : List Publication :=
  match dispatch coreP2p payload with
  | .error _ => []
  | .ok m =>
    match m.as? signalRequestPeer with
    | none => []
    | some (linkId, _) => answerRequestPeer atLink atSession atJoiner atCreator s linkId.val

def answerGetPrekeys (d : Directory) (s : SessionId) (peerId : Bytes) : List Publication :=
  match d.getPrekeys (hexEncode peerId) with
  | some bundle => [⟨s, prekeysFound bundle⟩]
  | none => [⟨s, prekeysNotFound⟩]

def handleGetPrekeys (d : Directory) (s : SessionId) (payload : Bytes) : List Publication :=
  match dispatch coreP2p payload with
  | .error _ => []
  | .ok m =>
    match m.as? keysGetPrekeys with
    | none => []
    | some (peerId, _) => d.answerGetPrekeys s peerId

/-- An empty inbox id stands for none. -/
def inboxIdHex (inboxId : Bytes) : Option (List Char) :=
  if inboxId = [] then none else some (hexEncode inboxId)

/-- An upload from a session without a peer is an error. -/
def handleUploadPrekeys (atSender d : Directory) (s : SessionId) (payload : Bytes) : Directory :=
  match dispatch coreP2p payload with
  | .error _ => d
  | .ok m =>
    match m.as? keysUploadPrekeys with
    | none => d
    | some (identityKey, signedPrekey, inboxId, _) =>
      match atSender.getPeerIdForSession s with
      | none => d
      | some peerHex =>
        let bundle : PrekeyBundle := ⟨identityKey, signedPrekey, inboxIdHex inboxId⟩
        { d with prekeys := d.prekeys.set peerHex bundle (d.now + prekeyTtl) }

end Directory

end Cypher.Signaling
