import Cypher.Lib.Run
import Cypher.Proto.Codec
import Cypher.Signaling.Signing

/-!
# Authenticated UDP (`cypher-nat/src/dtls.rs`)

Two sessions share a key. A datagram is a sequence number, an HMAC over number and payload, and the
payload. `verify_and_strip` loads `recv_seq` and stores it later, and `recv` takes a shared reference,
so that several calls may be between the two; the datagrams they have in hand are `verifying`. What a
side has sent and what it has accepted are recorded beside the state.

The network is the parameter of `receive`: any bytes under any source address.
-/

namespace Cypher.Traversal

open Signaling (HmacSha256)

def maxPayload : Nat := 65000

/-- Sequence number and HMAC. -/
def headerLen : Nat := 8 + 32

def handshakeMagic : Bytes := ascii "P2P-DTLS"
def handshakeAck : Bytes := ascii "P2P-DACK"

/-- What an HMAC authenticates. -/
structure Datagram where
  seq : Nat
  payload : Bytes
  deriving DecidableEq

variable {Addr : Type} [DecidableEq Addr] (hmac : HmacSha256)

def Datagram.bytes (key : Array32) (d : Datagram) : Bytes :=
  Lib.leBytes 8 d.seq ++ (hmac key.val (Lib.leBytes 8 d.seq ++ d.payload)).val ++ d.payload

structure DtlsSession (Addr : Type) where
  remote : Addr
  sendSeq : Nat
  recvSeq : Nat
  hmacKey : Array32
  deriving DecidableEq

/-- The session that both constructors start with. -/
def DtlsSession.initial (remote : Addr) (sessionKey : Array32) : DtlsSession Addr :=
  ⟨remote, 1, 0, sessionKey⟩

/-- The first half of `verify_and_strip`: what the HMAC vouches for. -/
def authenticate (key : Array32) (data : Bytes) : Option Datagram :=
  if data.length < headerLen then none
  else
    let seqBytes := data.take 8
    let receivedHmac := Proto.slice data 8 40
    let payload := data.drop headerLen
    let expected := hmac key.val (seqBytes ++ payload)
    if Signaling.ServerSigner.constantTimeEq receivedHmac expected.val then
      some ⟨Lib.leNat seqBytes, payload⟩
    else none

/-- A call that nothing comes between. -/
def DtlsSession.verifyAndStrip (session : DtlsSession Addr) (data : Bytes) :
    DtlsSession Addr × Option Bytes :=
  match authenticate hmac session.hmacKey data with
  | none => (session, none)
  | some d =>
    if d.seq ≤ session.recvSeq then (session, none)
    else ({ session with recvSeq := d.seq }, some d.payload)

/-! ## The two ends -/

inductive Side where
  | client
  | server
  deriving DecidableEq, Repr

def Side.peer : Side → Side
  | client => server
  | server => client

inductive Phase where
  /-- `connect_as_client` has not sent its handshake yet. -/
  | connecting
  /-- The loop of the handshake waits for the payload. -/
  | awaiting (expected : Bytes)
  | established
  /-- The handshake has failed. -/
  | closed
  deriving DecidableEq

structure Endpoint (Addr : Type) where
  session : DtlsSession Addr
  phase : Phase
  verifying : List Datagram
  sent : List Datagram
  accepted : List Datagram

namespace Endpoint

/-- `sent` is false if the socket reports an error. -/
def sendAuthenticated (e : Endpoint Addr) (payload : Bytes) (sent : Bool) : Endpoint Addr :=
  let seq := e.session.sendSeq
  { e with
    session := { e.session with sendSeq := (seq + 1) % u64Size }
    sent := if sent then e.sent ++ [⟨seq, payload⟩] else e.sent }

/-- The length of the buffer into which a datagram is received; the rest is cut off. -/
def bufferLen (e : Endpoint Addr) : Nat :=
  match e.phase with
  | .awaiting expected => headerLen + expected.length
  | _ => headerLen + maxPayload

/-- The authenticated content of a datagram that comes in, if it is from the remote. -/
def arriving (e : Endpoint Addr) (source : Addr) (data : Bytes) : Option Datagram :=
  if source = e.session.remote then
    authenticate hmac e.session.hmacKey (data.take e.bufferLen)
  else none

/-- A datagram is verified up to the load of `recv_seq`. -/
def receive (e : Endpoint Addr) (source : Addr) (data : Bytes) : Endpoint Addr :=
  match e.arriving hmac source data with
  | none => e
  | some d =>
    if d.seq ≤ e.session.recvSeq then e else { e with verifying := e.verifying ++ [d] }

/-- `recv_seq` is stored and the payload accepted. -/
def store (e : Endpoint Addr) (i : Nat) (d : Datagram) : Endpoint Addr :=
  { e with
    session := { e.session with recvSeq := d.seq }
    verifying := e.verifying.eraseIdx i
    accepted := e.accepted ++ [d] }

/-- What the handshake does with an accepted payload; the server answers the client's. -/
def advance (e : Endpoint Addr) (side : Side) (payload : Bytes) (sent : Bool) : Endpoint Addr :=
  match e.phase with
  | .awaiting expected =>
    if payload ≠ expected then e
    else
      match side with
      | .client => { e with phase := .established }
      | .server =>
        { e.sendAuthenticated handshakeAck sent with
          phase := if sent then .established else .closed }
  | _ => e

end Endpoint

abbrev Ends (Addr : Type) := Side → Endpoint Addr

inductive DtlsAction (Addr : Type) where
  /-- The client sends its handshake. -/
  | connect (sent : Bool)
  | send (side : Side) (data : Bytes) (sent : Bool)
  | receive (side : Side) (source : Addr) (data : Bytes)
  /-- The `i`-th call in hand stores `recv_seq` and returns. -/
  | finish (side : Side) (i : Nat) (sent : Bool)
  /-- The handshake times out or fails. -/
  | fail (side : Side)

namespace Ends

/-- The ends before the handshake, each with the address of the other. -/
def start (address : Side → Addr) (sessionKey : Array32) : Ends Addr
  | .client => ⟨.initial (address .server) sessionKey, .connecting, [], [], []⟩
  | .server => ⟨.initial (address .client) sessionKey, .awaiting handshakeMagic, [], [], []⟩

def step (s : Ends Addr) : DtlsAction Addr → Option (Ends Addr)
  | .connect sent =>
    match (s .client).phase with
    | .connecting =>
      let e := (s .client).sendAuthenticated handshakeMagic sent
      some (Function.update s .client
        { e with phase := if sent then .awaiting handshakeAck else .closed })
    | _ => none
  | .send side data sent =>
    match (s side).phase with
    | .established =>
      if data.length > maxPayload then some s
      else some (Function.update s side ((s side).sendAuthenticated data sent))
    | _ => none
  | .receive side source data =>
    match (s side).phase with
    | .established => some (Function.update s side ((s side).receive hmac source data))
    | .awaiting _ =>
      -- the loop of the handshake has one call at a time
      if (s side).verifying = [] then
        some (Function.update s side ((s side).receive hmac source data))
      else none
    | _ => none
  | .finish side i sent =>
    match (s side).verifying[i]? with
    | none => none
    | some d =>
      some (Function.update s side (((s side).store i d).advance side d.payload sent))
  | .fail side =>
    match (s side).phase with
    | .awaiting _ =>
      -- nothing is awaited between load and store
      if (s side).verifying = [] then
        some (Function.update s side { s side with phase := .closed })
      else none
    | _ => none

end Ends

end Cypher.Traversal
