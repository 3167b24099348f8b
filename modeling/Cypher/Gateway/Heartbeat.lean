import Cypher.Gateway.Sessions

/-!
# The heartbeat task (`heartbeat_task`)

The task sleeps, looks at all connections, sends a PING to those it has not heard of for an interval,
and removes those it has not heard of for three. A `HeartbeatServer` is the gateway with this task:
where `GatewayServer` lets the task look at any time, here it sleeps in between, and the PINGs that its
`try_send` puts into the channels of the sessions are recorded.
-/

namespace Cypher

namespace Gateway

def heartbeatTimeoutMs : Nat :=
  heartbeatIntervalMs * maxMissedHeartbeats

/-- The sessions that get a PING; `full` says whose channel has no room. -/
def pingedSessions (g : Gateway) (now : Nat) (full : SessionId → Bool) : List SessionId :=
  (List.range g.nextSessionId).filter fun s =>
    match g.connections s with
    | none => false
    | some conn =>
      let elapsed := now - conn.lastActivity
      !(elapsed > heartbeatTimeoutMs) && elapsed > heartbeatIntervalMs && !full s

end Gateway

structure HeartbeatServer where
  server : GatewayServer
  /-- When the task went to sleep, or began to remove what it has marked. -/
  since : Nat
  lastScan : Nat
  pings : List (SessionId × Nat)

inductive HeartbeatAction where
  | gateway (a : GatewayAction)
  | scan (full : SessionId → Bool)

namespace HeartbeatServer

def start : HeartbeatServer :=
  ⟨GatewayServer.start, 0, 0, []⟩

def step (action? : Bytes → Option String) (h : HeartbeatServer) :
    HeartbeatAction → Option HeartbeatServer
  | .gateway .scan => none
  | .gateway a =>
    match h.server.step action? a with
    | none => none
    | some server =>
      -- with the last removal the task goes to sleep
      let since := if h.server.stale ≠ [] ∧ server.stale = [] then h.server.now else h.since
      some { h with server, since }
  | .scan full =>
    let now := h.server.now
    if h.since + Gateway.heartbeatIntervalMs ≤ now then
      match h.server.step action? .scan with
      | none => none
      | some server =>
        let pinged := h.server.gateway.pingedSessions now full
        some { server, since := now, lastScan := now, pings := h.pings ++ pinged.map (·, now) }
    else none

end HeartbeatServer

end Cypher
