import Cypher.Gateway.Routing
import Cypher.Lib.Run
import Cypher.Transport.Codec

/-!
# Sessions of the gateway (`handle_session`, `read_loop`, `heartbeat_task`)

A `GatewayServer` is the gateway with a task per session and the heartbeat task. A session's task
reads frames until the connection is closed or a publication fails, then runs `remove_connection`
and returns. The heartbeat task runs `remove_connection` for stale sessions without ending their
tasks.
Each operation on the tables is one step, and the steps of all tasks may come in any order.
-/

namespace Cypher

open Transport

inductive Phase where
  | reading
  /-- `read_loop` has returned. -/
  | leaving
  /-- `remove_connection` was run after it, and the task has returned. -/
  | returned
  deriving DecidableEq, Repr

structure GatewayServer where
  gateway : Gateway
  now : Nat
  /-- What the heartbeat task has marked and not yet removed. -/
  stale : List SessionId
  phase : SessionId → Option Phase
  events : List SessionEvent

/-- What the environment decides while a frame is handled: the rate limiter and NATS. -/
structure FrameEnv where
  limited : Bool
  natsOk : Bool
  deriving DecidableEq, Repr

namespace Gateway

/-- One turn of `read_loop`; the last component says whether it goes on. -/
def readFrame (action? : Bytes → Option String) (g : Gateway) (now : Nat) (env : FrameEnv)
    (s : SessionId) (frame : Frame) : Gateway × List SessionEvent × Bool :=
  let g := g.touch now s
  if FrameFlags.contains frame.flags FrameFlags.ping then (g, [], true)
  else if FrameFlags.contains frame.flags FrameFlags.pong then (g, [], true)
  else if FrameFlags.contains frame.flags FrameFlags.sessionClose then (g, [], false)
  else if FrameFlags.contains frame.flags FrameFlags.sessionInit then
    g.handleSessionInit env.natsOk s frame.payload
  else if env.limited then (g, [], true)
  else (g, [], (g.routeFrame action? g env.natsOk s frame.payload).ok)

end Gateway

inductive GatewayAction where
  /-- A connection is accepted; without the NATS subscription the task returns at once. -/
  | accept (subscribed : Bool)
  | frame (s : SessionId) (frame : Frame) (env : FrameEnv)
  /-- The session's channel of inbound frames is closed. -/
  | disconnect (s : SessionId)
  /-- The session's task cleans up and returns. -/
  | finish (s : SessionId) (natsOk : Bool)
  | elapse (ms : Nat)
  /-- The heartbeat task looks for stale connections. -/
  | scan
  | heartbeatRemove (s : SessionId) (natsOk : Bool)

namespace GatewayServer

def start : GatewayServer :=
  ⟨Gateway.new, 0, [], fun _ => none, []⟩

def step (action? : Bytes → Option String) (server : GatewayServer) :
    GatewayAction → Option GatewayServer
  | .accept subscribed =>
    let (gateway, s) := server.gateway.openSession server.now
    some { server with
      gateway
      phase := if subscribed then Function.update server.phase s (some .reading) else server.phase }
  | .frame s frame env =>
    if server.phase s = some .reading then
      let (gateway, events, continue_) :=
        server.gateway.readFrame action? server.now env s frame
      some { server with
        gateway
        phase := if continue_ then server.phase else Function.update server.phase s (some .leaving)
        events := server.events ++ events }
    else none
  | .disconnect s =>
    if server.phase s = some .reading then
      some { server with phase := Function.update server.phase s (some .leaving) }
    else none
  | .finish s natsOk =>
    if server.phase s = some .leaving then
      let (gateway, events) := server.gateway.removeConnection natsOk s
      some { server with
        gateway
        phase := Function.update server.phase s (some .returned)
        events := server.events ++ events }
    else none
  | .elapse ms => some { server with now := server.now + ms }
  | .scan =>
    -- the task goes through its marks before it looks again
    if server.stale = [] then
      some { server with stale := server.gateway.staleSessions server.now }
    else none
  | .heartbeatRemove s natsOk =>
    if s ∈ server.stale then
      let (gateway, events) := server.gateway.removeConnection natsOk s
      some { server with
        gateway
        stale := server.stale.erase s
        events := server.events ++ events }
    else none

end GatewayServer

end Cypher
