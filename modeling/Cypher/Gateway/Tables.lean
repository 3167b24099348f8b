import Cypher.Nats
import Cypher.Proto.Fields
import Cypher.Proto.Schema

/-!
# The gateway's tables (`services/gateway/src/main.rs`)

`connections` holds a `ConnectionState` per session and `peers` the session of each peer id. Four
operations change them: a session is opened, `handle_session_init` names its peer, a frame renews its
`last_activity`, and `remove_connection` takes it out. The writer channel of a connection is named by
its session id.
-/

namespace Cypher

open Proto

structure ConnectionState where
  peerId : Bytes
  /-- In milliseconds, as all times of the gateway. -/
  lastActivity : Nat
  deriving DecidableEq

structure Gateway where
  connections : SessionId → Option ConnectionState
  peers : Bytes → Option SessionId
  nextSessionId : SessionId

namespace Gateway

def heartbeatIntervalMs : Nat := 30 * 1000

def maxMissedHeartbeats : Nat := 3

def new : Gateway :=
  ⟨fun _ => none, fun _ => none, 1⟩

/-- The first part of `handle_session` and `handle_ws_session`: the connection has no peer id until
SESSION_INIT. -/
def openSession (g : Gateway) (now : Nat) : Gateway × SessionId :=
  ({ g with
      connections := Function.update g.connections g.nextSessionId (some ⟨[], now⟩)
      nextSessionId := g.nextSessionId + 1 },
    g.nextSessionId)

def touch (g : Gateway) (now : Nat) (s : SessionId) : Gateway :=
  match g.connections s with
  | none => g
  | some conn =>
    { g with
      connections := Function.update g.connections s (some { conn with lastActivity := now }) }

def setPeerId (g : Gateway) (s : SessionId) (peerId : Bytes) : Gateway :=
  match g.connections s with
  | none => g
  | some conn =>
    { g with connections := Function.update g.connections s (some { conn with peerId }) }

/-- The `client_id` of a SESSION_INIT payload; other payloads are only logged. -/
def sessionInitId (payload : Bytes) : Option Bytes :=
  match dispatch coreP2p payload with
  | .error _ => none
  | .ok m =>
    match m.as? sessionInit with
    | none => none
    | some (clientId, _) => some clientId

/-- The result is `Err` if the registration could not be published, which is after both tables were
changed. -/
def handleSessionInit (g : Gateway) (natsOk : Bool) (s : SessionId) (payload : Bytes) :
    Gateway × List SessionEvent × Bool :=
  match sessionInitId payload with
  | none => (g, [], true)
  | some peerId =>
    let named := g.setPeerId s peerId
    let g := { named with peers := Function.update named.peers peerId (some s) }
    if natsOk then (g, [.register s (Signaling.hexEncode peerId)], true) else (g, [], false)

/-- A deregistration that could not be published is only logged. -/
def removeConnection (g : Gateway) (natsOk : Bool) (s : SessionId) :
    Gateway × List SessionEvent :=
  match g.connections s with
  | none => (g, [])
  | some conn =>
    let g := { g with connections := Function.update g.connections s none }
    if conn.peerId = [] then (g, [])
    else
      let g :=
        if g.peers conn.peerId = some s then
          { g with peers := Function.update g.peers conn.peerId none }
        else g
      (g, if natsOk then [.deregister s] else [])

/-- The sessions that `heartbeat_task` marks for removal. -/
def staleSessions (g : Gateway) (now : Nat) : List SessionId :=
  (List.range g.nextSessionId).filter fun s =>
    match g.connections s with
    | none => false
    | some conn => now - conn.lastActivity > heartbeatIntervalMs * maxMissedHeartbeats

/-- The session under which a peer is connected to this gateway. -/
def localSession (g : Gateway) (peerId : Bytes) : Option SessionId :=
  match g.peers peerId with
  | none => none
  | some target =>
    match g.connections target with
    | none => none
    | some _ => some target

def peerIdOf (g : Gateway) (s : SessionId) : Bytes :=
  match g.connections s with
  | none => []
  | some conn => conn.peerId

end Gateway

end Cypher
