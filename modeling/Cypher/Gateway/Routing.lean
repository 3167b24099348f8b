import Cypher.Gateway.Tables

/-!
# Routing a frame (`Gateway::route_frame`)

`route_frame` looks the target up before it publishes, and for most messages a second time after the
publication has been awaited; `before` and `after` are the tables at the two lookups. What comes of a
call is in `Routed`: the frames written to local connections and what was published. `action?` stands
for `serde_json`: the `action` of a JSON object, empty if it has none or it is no string.
-/

namespace Cypher

open Proto

/-- A frame put into the writer channel of a connection. -/
structure Write where
  session : SessionId
  payload : Bytes
  deriving DecidableEq, Repr

/-- `ok` is false if a publication failed, which ends the read loop. -/
structure Routed where
  writes : List Write
  published : List (Subject × Envelope)
  ok : Bool
  deriving DecidableEq

/-- What `route_frame` does with a message of a constructor. -/
inductive Route where
  /-- Published for signaling itself. -/
  | server (subject : Subject)
  /-- Published, then also sent to the target if it is local. -/
  | signal (subject : Subject)
  /-- Sent to the target if it is local, with the sender's id in it; published otherwise. -/
  | chat
  /-- `try_direct_or_subject`. -/
  | file (subject : Subject)
  deriving DecidableEq, Repr

def routeOf (c : Constructor) : Route :=
  if c = signalRequestPeer then .server .requestPeer
  else if c = signalIceCandidate then .signal .iceCandidate
  else if c = signalOffer then .signal .offer
  else if c = signalAnswer then .signal .answer
  else if c = keysUploadPrekeys then .server .uploadPrekeys
  else if c = keysGetPrekeys then .server .getPrekeys
  else if c = transportBootstrap then .server .transportBootstrap
  else if c = inboxStore then .server .inboxStore
  else if c = inboxFetch then .server .inboxFetch
  else if c = inboxAck then .server .inboxAck
  else if c = chatSend then .chat
  else if c = fileOffer then .file .fileOffer
  else if c = fileAccept then .file .fileAccept
  else if c = fileChunk then .file .fileChunk
  else if c = fileComplete then .file .fileComplete
  else if c = fileChunkAck then .file .fileChunkAck
  else if c = fileResume then .file .fileResume
  else .server .data

namespace Gateway

def publish (natsOk : Bool) (subject : Subject) (envelope : Envelope) : Routed :=
  if natsOk then ⟨[], [(subject, envelope)], true⟩ else ⟨[], [], false⟩

/-- The end of `route_frame` for a message with a target: what is sent to a local target now is the
payload as it came. -/
def publishAndForward (after : Gateway) (natsOk : Bool) (s : SessionId) (payload target : Bytes)
    (subject : Subject) : Routed :=
  if natsOk then
    ⟨(after.localSession target).toList.map fun t => ⟨t, payload⟩,
      [(subject, .payload s payload)], true⟩
  else ⟨[], [], false⟩

def routeMessage (before after : Gateway) (natsOk : Bool) (s : SessionId) (payload : Bytes)
    (m : Message) : Routed :=
  match routeOf m.ctor with
  | .server subject => publish natsOk subject (.payload s payload)
  | .signal subject => publishAndForward after natsOk s payload m.peerId subject
  | .chat =>
    match before.localSession m.peerId with
    | some t => ⟨[⟨t, (m.withPeerId (before.peerIdOf s)).serialize⟩], [], true⟩
    | none => publishAndForward after natsOk s payload m.peerId .chatSend
  | .file subject =>
    match before.localSession m.peerId with
    | some t => ⟨[⟨t, payload⟩], [], true⟩
    | none => publishAndForward after natsOk s payload m.peerId subject

def routeFrame (action? : Bytes → Option String) (before after : Gateway) (natsOk : Bool)
    (s : SessionId) (payload : Bytes) : Routed :=
  if payload = [] then ⟨[], [], true⟩
  else
    match if payload.head? = some 0x7B then action? payload else none with
    | some action =>
      publish natsOk (if action = "create_link" then .createLink else .raw)
        (.request s (Signaling.hexEncode (before.peerIdOf s)))
    | none =>
      match dispatch coreP2p payload with
      | .ok m => routeMessage before after natsOk s payload m
      | .error _ => publish natsOk .raw (.payload s payload)

end Gateway

end Cypher
