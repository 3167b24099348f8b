import Cypher.Lib.Run
import Cypher.Onion.Circuit

/-!
# The transport pool (`onion/pool.rs`, `onion/shadow.rs`)

`TransportPool` keeps relay circuits ready. `acquire` hands one out and starts a background task
for another, or falls back to a direct shadow session; `release` puts a circuit back, or closes it if
enough are ready. A `PoolSystem` is the pool with its background tasks and with the handles that
are out; each handle belongs to one pipeline, which sends its requests one after the other and then
releases the handle, or drops it when a response does not verify. What `Circuit::new` samples, and
whether a connection or the Tor client succeeds, is decided by the action.
-/

namespace Cypher.Onion

open Crypto

/-! ## Shadow sessions -/

structure ShadowSession where
  /-- In milliseconds. -/
  createdAt : Nat
  requestCount : Nat
  deriving DecidableEq

namespace ShadowSession

def maxRequests : Nat := 30

def maxTtl : Nat := 10 * 60 * 1000

def isExpired (session : ShadowSession) (now : Nat) : Bool :=
  session.requestCount ≥ maxRequests || now - session.createdAt > maxTtl

/-- `send`, and `send_and_recv` before it waits; `sent` is the result of `conn.send_payload`. -/
def send (session : ShadowSession) (now : Nat) (sent : Result Unit) :
    ShadowSession × Result Unit :=
  if session.isExpired now then (session, .error (.transport "shadow session expired"))
  else
    match sent with
    | .ok () => ({ session with requestCount := session.requestCount + 1 }, .ok ())
    | .error err => (session, .error err)

end ShadowSession

/-! ## The pool -/

inductive TransportHandle where
  | tor (session : ShadowSession)
  | relay (circuit : Circuit)
  | direct (session : ShadowSession)

structure TransportPool where
  /-- The `Vec`: `push` and `pop` are at its end. -/
  relayCircuits : List Circuit
  /-- The static key of the relay of the bootstrap, if there is one. -/
  relay : Option PublicKey
  targetCount : Nat

namespace TransportPool

/-- `new(..).with_target_count(targetCount)`. -/
def new (relay : Option PublicKey) (targetCount : Nat) : TransportPool :=
  ⟨[], relay, max targetCount 1⟩

/-- The end of `warm_one`. -/
def push (pool : TransportPool) (circuit : Circuit) : TransportPool :=
  { pool with relayCircuits := pool.relayCircuits ++ [circuit] }

/-- The part of `acquire` under the lock: a circuit if there is one, and whether a task is started
for another. -/
def pop (pool : TransportPool) : TransportPool × Option Circuit × Bool :=
  match pool.relayCircuits.getLast? with
  | some circuit =>
    let rest := pool.relayCircuits.dropLast
    ({ pool with relayCircuits := rest }, some circuit,
      rest.length < pool.targetCount && pool.relay.isSome)
  | none => (pool, none, pool.relay.isSome)

/-- `release` of a relay handle; beyond the target the connection is closed. -/
def putBack (pool : TransportPool) (circuit : Circuit) : TransportPool :=
  if pool.relayCircuits.length < pool.targetCount then pool.push circuit else pool

end TransportPool

/-! ## The pool at work -/

abbrev HandleId := Nat

structure PoolSystem where
  pool : TransportPool
  now : Nat
  /-- Tasks of `warm_one` that have not ended. -/
  warming : Nat
  /-- Calls of `acquire` that found no circuit and wait for `ShadowSession::connect`. -/
  connecting : Nat
  handles : HandleId → Option TransportHandle
  nextHandle : HandleId
  /-- The circuit ids sampled so far. -/
  sampled : List CircuitId
  /-- The circuit id and number of each request that was encrypted. -/
  encrypted : List (CircuitId × Nat)
  /-- The handle and the time of each request sent on a shadow session. -/
  shadowSent : List (HandleId × Nat)
  /-- Calls of `start_warming` and of `acquire`. -/
  starts : Nat
  acquires : Nat

inductive PoolAction where
  | startWarming
  /-- `warm_one` has connected and samples a circuit. -/
  | warmed (ek : Array32) (circuitId : CircuitId)
  | warmFailed
  /-- `acquire`: by Tor if that gives a session, else by a circuit, else it starts to connect. -/
  | acquire (tor : Bool)
  | connected
  | connectFailed
  /-- `fetch_one` or `send_ack` on a handle. -/
  | request (h : HandleId) (payload : Bytes) (sent : Result Unit)
  | release (h : HandleId)
  /-- The pipeline ends without `release`. -/
  | abandon (h : HandleId)
  | elapse (ms : Nat)

namespace PoolSystem

def start (relay : Option PublicKey) (targetCount : Nat) : PoolSystem :=
  ⟨TransportPool.new relay targetCount, 0, 0, 0, fun _ => none, 0, [], [], [], 0, 0⟩

def hold (s : PoolSystem) (handle : TransportHandle) : PoolSystem :=
  { s with
    handles := Function.update s.handles s.nextHandle (some handle)
    nextHandle := s.nextHandle + 1 }

def drop (s : PoolSystem) (h : HandleId) : PoolSystem :=
  { s with handles := Function.update s.handles h none }

def replace (s : PoolSystem) (h : HandleId) (handle : TransportHandle) : PoolSystem :=
  { s with handles := Function.update s.handles h (some handle) }

/-- A request on a shadow session. -/
def shadowRequest (s : PoolSystem) (h : HandleId) (session : ShadowSession) (sent : Result Unit)
    (wrap : ShadowSession → TransportHandle) : PoolSystem :=
  let (session, result) := session.send s.now sent
  match result with
  | .ok () => { s.replace h (wrap session) with shadowSent := s.shadowSent ++ [(h, s.now)] }
  | .error _ => s.replace h (wrap session)

variable (P : Primitives)

def step (s : PoolSystem) : PoolAction → Option PoolSystem
  | .startWarming =>
    some { s with
      warming := s.warming + if s.pool.relay.isSome then s.pool.targetCount else 0
      starts := s.starts + 1 }
  | .warmed ek circuitId =>
    match s.pool.relay with
    | none => none
    | some relayPk =>
      if 0 < s.warming then
        some { s with
          pool := s.pool.push (Circuit.new P ek circuitId relayPk)
          warming := s.warming - 1
          sampled := s.sampled ++ [circuitId] }
      else none
  | .warmFailed => if 0 < s.warming then some { s with warming := s.warming - 1 } else none
  | .acquire tor =>
    let s := { s with acquires := s.acquires + 1 }
    if tor then some (s.hold (.tor ⟨s.now, 0⟩))
    else
      let (pool, circuit, warm) := s.pool.pop
      let s := { s with pool, warming := s.warming + if warm then 1 else 0 }
      match circuit with
      | some circuit => some (s.hold (.relay circuit))
      | none => some { s with connecting := s.connecting + 1 }
  | .connected =>
    if 0 < s.connecting then
      some ({ s with connecting := s.connecting - 1 }.hold (.direct ⟨s.now, 0⟩))
    else none
  | .connectFailed =>
    if 0 < s.connecting then some { s with connecting := s.connecting - 1 } else none
  | .request h payload sent =>
    match s.handles h with
    | none => none
    | some (.relay circuit) =>
      let (circuit', _) := encodeRelayRequest P circuit payload
      some { s.replace h (.relay circuit') with
        encrypted := s.encrypted ++ [(circuit.circuitId, circuit.seq)] }
    | some (.tor session) => some (s.shadowRequest h session sent .tor)
    | some (.direct session) => some (s.shadowRequest h session sent .direct)
  | .release h =>
    match s.handles h with
    | none => none
    | some (.relay circuit) => some { s.drop h with pool := s.pool.putBack circuit }
    | some _ => some (s.drop h)
  | .abandon h => if (s.handles h).isSome then some (s.drop h) else none
  | .elapse ms => some { s with now := s.now + ms }

end PoolSystem

end Cypher.Onion
