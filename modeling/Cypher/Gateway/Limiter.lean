import Cypher.Common.RateLimit
import Cypher.Gateway.Sessions

/-!
# The rate limiter of a session (`read_loop`)

Each `read_loop` owns a token bucket. PING, PONG, SESSION_CLOSE and SESSION_INIT frames pass
without asking it; every other frame takes a token, or is dropped. A `LimitedServer` is the gateway
with these buckets, on a clock in nanoseconds; where `GatewayServer` leaves the decision for a frame
to the environment, here the bucket of the session makes it.
-/

namespace Cypher

open Transport

def msgRateLimitPerSec : UInt32 := 100

def msgRateLimitBurst : UInt32 := 200

/-- The frames that `read_loop` does not handle inline. -/
def isDataFrame (frame : Frame) : Bool :=
  !(FrameFlags.contains frame.flags FrameFlags.ping ||
    FrameFlags.contains frame.flags FrameFlags.pong ||
    FrameFlags.contains frame.flags FrameFlags.sessionClose ||
    FrameFlags.contains frame.flags FrameFlags.sessionInit)

def newLimiter (clock : Nat) : TokenBucket :=
  TokenBucket.new clock msgRateLimitBurst msgRateLimitPerSec.toNat

structure LimitedServer where
  server : GatewayServer
  /-- In nanoseconds. -/
  clock : Nat
  limiter : SessionId → TokenBucket
  /-- The data frames of a session's `read_loop`: when each was handled, and whether it was
  routed. -/
  log : SessionId → List (Nat × Bool)

inductive LimitedAction where
  | accept (subscribed : Bool)
  | frame (s : SessionId) (frame : Frame) (natsOk : Bool)
  | disconnect (s : SessionId)
  | finish (s : SessionId) (natsOk : Bool)
  | elapse (ns : Nat)
  | scan
  | heartbeatRemove (s : SessionId) (natsOk : Bool)

namespace LimitedServer

def start : LimitedServer :=
  ⟨GatewayServer.start, 0, fun _ => newLimiter 0, fun _ => []⟩

/-- Milliseconds of the gateway's clock that pass with `ns` nanoseconds. -/
def elapsedMs (clock ns : Nat) : Nat :=
  (clock + ns) / 10 ^ 6 - clock / 10 ^ 6

/-- The action of the gateway that an action is, with the limiter's decision made. -/
def gatewayAction (l : LimitedServer) : LimitedAction → GatewayAction
  | .accept subscribed => .accept subscribed
  | .frame s frame natsOk =>
    .frame s frame ⟨isDataFrame frame && !((l.limiter s).tryConsume l.clock 1).1, natsOk⟩
  | .disconnect s => .disconnect s
  | .finish s natsOk => .finish s natsOk
  | .elapse ns => .elapse (elapsedMs l.clock ns)
  | .scan => .scan
  | .heartbeatRemove s natsOk => .heartbeatRemove s natsOk

/-- What an action does to the clock, the buckets and the log. -/
def limit (l : LimitedServer) : LimitedAction → LimitedServer
  | .accept _ =>
    { l with
      limiter := Function.update l.limiter l.server.gateway.nextSessionId (newLimiter l.clock)
      log := Function.update l.log l.server.gateway.nextSessionId [] }
  | .frame s frame _ =>
    if isDataFrame frame then
      let (granted, bucket) := (l.limiter s).tryConsume l.clock 1
      { l with
        limiter := Function.update l.limiter s bucket
        log := Function.update l.log s (l.log s ++ [(l.clock, granted)]) }
    else l
  | .elapse ns => { l with clock := l.clock + ns }
  | _ => l

def step (action? : Bytes → Option String) (l : LimitedServer) (a : LimitedAction) :
    Option LimitedServer :=
  match l.server.step action? (l.gatewayAction a) with
  | none => none
  | some server => some { l.limit a with server }

end LimitedServer

end Cypher
