import Cypher.Lib.Double
import Cypher.Lib.Expiring
import Cypher.Lib.Run
import Cypher.Nats

/-!
# The registry of sessions (`services/signaling/src/peer.rs`)

Redis holds the session of each peer under `peer:{peer_id}:session` and the peer of each session
under `session:{session_id}:peer`. Registrations and deregistrations arrive over NATS and each is
handled in a task of its own, so in any order. A registration is one script; a deregistration first
reads the session's peer and then runs a script, and other tasks may come in between.

In the scripts session ids are numbers of Lua: they are compared as doubles and written with `%.14g`.
`register` and `deregister` take them as they are, which is right below `exactIds`.
-/

namespace Cypher.Signaling

/-- Milliseconds. -/
def sessionTtl : Nat := 2 * 60 * 60 * 1000

structure PeerSession where
  gatewayNode : String
  sessionId : SessionId
  deriving DecidableEq, Repr

structure PrekeyBundle where
  identityKey : Bytes
  signedPrekey : Bytes
  inboxId : Option (List Char)
  deriving DecidableEq, Repr

/-- The keys of Redis that are about peers and sessions, and its clock. Peer ids are in hex. -/
structure Registry where
  /-- `peer:{peer_id}:session`. -/
  sessions : Lib.Expiring (List Char) PeerSession
  /-- `session:{session_id}:peer`. -/
  peers : Lib.Expiring SessionId (List Char)
  /-- `peer:{peer_id}:prekeys`. -/
  prekeys : Lib.Expiring (List Char) PrekeyBundle
  now : Nat

namespace Registry

def empty : Registry :=
  ⟨.empty, .empty, .empty, 0⟩

def getSession (r : Registry) (peerIdHex : List Char) : Option PeerSession :=
  r.sessions.seen r.now peerIdHex

def getPeerIdForSession (r : Registry) (s : SessionId) : Option (List Char) :=
  r.peers.seen r.now s

def getPrekeys (r : Registry) (peerIdHex : List Char) : Option PrekeyBundle :=
  r.prekeys.seen r.now peerIdHex

inductive Registered where
  | fresh
  | refreshed
  | replaced
  deriving DecidableEq, Repr

/-- The script of `handle_session_register`: the reverse key of the peer's old session goes, and both
keys of the new one are set with the same time to live. -/
def register (r : Registry) (nodeId : String) (s : SessionId) (peerIdHex : List Char) :
    Registry × Registered :=
  let (r, result) :=
    match r.getSession peerIdHex with
    | none => (r, Registered.fresh)
    | some old =>
      if old.sessionId = s then (r, .refreshed)
      else ({ r with peers := r.peers.del old.sessionId }, .replaced)
  ({ r with
      sessions := r.sessions.set peerIdHex ⟨nodeId, s⟩ (r.now + sessionTtl)
      peers := r.peers.set s peerIdHex (r.now + sessionTtl) },
    result)

/-- The script of `handle_session_deregister`, for the peer that was read before; the result says
whether the peer's session was taken out. -/
def deregister (r : Registry) (s : SessionId) (peerIdHex : List Char) : Registry × Bool :=
  match r.getSession peerIdHex with
  | none => ({ r with peers := r.peers.del s }, false)
  | some session =>
    if session.sessionId = s then
      ({ r with sessions := r.sessions.del peerIdHex, peers := r.peers.del s }, true)
    else ({ r with peers := r.peers.del s }, false)

/-! ### Session ids in Lua -/

/-- A gateway counts its session ids from 1. -/
def exactIds : Nat := 10 ^ 14

/-- The session whose key is `'session:' .. id .. ':peer'`; a number with an exponent is no session's. -/
def writtenId (s : SessionId) : Option SessionId :=
  if s < exactIds then some s else none

def registerScript (r : Registry) (nodeId : String) (s : SessionId) (peerIdHex : List Char) :
    Registry × Registered :=
  let (r, result) :=
    match r.getSession peerIdHex with
    | none => (r, Registered.fresh)
    | some old =>
      if Lib.roundDouble old.sessionId = Lib.roundDouble s then (r, .refreshed)
      else
        ({ r with peers := (writtenId old.sessionId).elim r.peers r.peers.del }, .replaced)
  ({ r with
      sessions := r.sessions.set peerIdHex ⟨nodeId, s⟩ (r.now + sessionTtl)
      peers := r.peers.set s peerIdHex (r.now + sessionTtl) },
    result)

def deregisterScript (r : Registry) (s : SessionId) (peerIdHex : List Char) : Registry × Bool :=
  match r.getSession peerIdHex with
  | none => ({ r with peers := r.peers.del s }, false)
  | some session =>
    if Lib.roundDouble session.sessionId = Lib.roundDouble s then
      ({ r with sessions := r.sessions.del peerIdHex, peers := r.peers.del s }, true)
    else ({ r with peers := r.peers.del s }, false)

end Registry

/-! ## The service -/

structure Service where
  nodeId : String
  registry : Registry
  /-- Messages that no task has taken up yet. -/
  inbound : List SessionEvent
  /-- Deregistrations that have read the session's peer. -/
  deregistering : List (SessionId × List Char)
  /-- Every message published so far. -/
  published : List SessionEvent

inductive ServiceAction where
  /-- The gateway publishes a message. -/
  | publish (event : SessionEvent)
  /-- A task handles the message at a position of `inbound`, up to the script if it is a
  deregistration. -/
  | handle (i : Nat)
  /-- A deregistration goes on to its script. -/
  | runDeregister (i : Nat)
  | elapse (ms : Nat)

namespace Service

def start (nodeId : String) : Service :=
  ⟨nodeId, .empty, [], [], []⟩

def step (service : Service) : ServiceAction → Option Service
  | .publish event =>
    some { service with
      inbound := service.inbound ++ [event]
      published := service.published ++ [event] }
  | .handle i =>
    match service.inbound[i]? with
    | none => none
    | some (.register s peerIdHex) =>
      some { service with
        registry := (service.registry.register service.nodeId s peerIdHex).1
        inbound := service.inbound.eraseIdx i }
    | some (.deregister s) =>
      some { service with
        inbound := service.inbound.eraseIdx i
        deregistering := service.deregistering ++
          ((service.registry.getPeerIdForSession s).map fun peerIdHex => (s, peerIdHex)).toList }
  | .runDeregister i =>
    match service.deregistering[i]? with
    | none => none
    | some (s, peerIdHex) =>
      some { service with
        registry := (service.registry.deregister s peerIdHex).1
        deregistering := service.deregistering.eraseIdx i }
  | .elapse ms =>
    some { service with registry := { service.registry with now := service.registry.now + ms } }

end Service

end Cypher.Signaling
