import Cypher.Client.Requests
import Cypher.Lib.Run

/-!
# Concurrent calls of `initiate_session` (`api/messaging.rs`)

One client with any number of `initiate_session` calls under way. A call checks `has_session`, puts
the sender of its channel into the slot `GetPrekeys` of `pending` (which drops the sender that was
there), sends `keys.getPrekeys` and waits for its channel. Signaling handles the requests in any
order, in whatever state it is in; the replies reach `dispatch_json` in any order. A call may be
dropped at any time. The steps of different calls interleave freely. The inbox id of a reply is left
out.
-/

namespace Cypher.Client

open Crypto Lib Signaling

variable {Key Secret Ct : Type}

/-- `initiate_session` from the reply on: the key agreement. -/
def KeyManager.agreeSession (S : Suite Key Secret Ct) (km : KeyManager Key Secret)
    (ourId peerId : PeerId) (ikDhBytes spkBytes : Bytes) (ourRatchetSecret : Secret) :
    KeyManager Key Secret × Result Unit :=
  match Array32.tryFrom ikDhBytes with
  | none => (km, .error (.crypto "identity_key must be 32 bytes"))
  | some theirIkDh =>
    match Array32.tryFrom spkBytes with
    | none => (km, .error (.crypto "signed_prekey must be 32 bytes"))
    | some theirSpk =>
      let sharedSecret := x3dhMutual S km.identityDhSecret km.spkSecret theirIkDh theirSpk
      if ourId.val < peerId.val then
        (km.initSenderSession S peerId.val sharedSecret theirSpk ourRatchetSecret, .ok ())
      else
        (km.initReceiverSession S peerId.val sharedSecret, .ok ())

inductive CallPhase where
  /-- There was no session. -/
  | started
  /-- The sender of the channel is, or was, in `pending`. -/
  | inserted
  /-- The request is sent. -/
  | waiting
  | returned (result : Result Unit)
  | dropped
  deriving DecidableEq

structure InitiateCall where
  peer : PeerId
  phase : CallPhase
  /-- What was sent on the call's channel. -/
  value : Option Json

/-- The prekeys a session was set up with. -/
structure Keyed where
  peer : PeerId
  identityKey : Bytes
  signedPrekey : Bytes
  deriving DecidableEq

structure Initiator (Key Secret : Type) where
  ourId : PeerId
  session : SessionId
  keys : KeyManager Key Secret
  pending : Pending
  /-- A call's channel has the number of its position. -/
  calls : List InitiateCall
  /-- The peers of the requests that are sent and not handled. -/
  requests : List PeerId
  /-- The replies under way, with the peer that was asked for. -/
  replies : List (PeerId × Json)
  /-- What signaling has returned so far, and for whom. -/
  served : List (PeerId × Option PrekeyBundle)
  /-- The sessions set up so far. -/
  keyed : List Keyed

inductive InitiateAction (Secret : Type) where
  | call (peer : PeerId)
  | insert (c : Nat)
  | send (c : Nat) (outcome : Result Unit)
  /-- Signaling handles a request in a state. -/
  | serve (i : Nat) (d : Directory)
  /-- A reply reaches `dispatch_json`. -/
  | deliver (i : Nat)
  /-- The call goes on after waiting for its channel. -/
  | resume (c : Nat) (ourRatchetSecret : Secret)
  | drop (c : Nat)

namespace Initiator

def start (ourId : PeerId) (session : SessionId) (keys : KeyManager Key Secret) :
    Initiator Key Secret :=
  ⟨ourId, session, keys, .empty, [], [], [], [], []⟩

def modifyCall (client : Initiator Key Secret) (c : Nat) (f : InitiateCall → InitiateCall) :
    Initiator Key Secret :=
  { client with calls := client.calls.modify c f }

def setPhase (client : Initiator Key Secret) (c : Nat) (phase : CallPhase) :
    Initiator Key Secret :=
  client.modifyCall c fun call => { call with phase }

variable (S : Suite Key Secret Ct)

/-- The end of a call whose channel was completed. -/
def finish (client : Initiator Key Secret) (c : Nat) (peer : PeerId) (resp : Json)
    (ourRatchetSecret : Secret) : Initiator Key Secret :=
  match prekeysResult resp with
  | .error err => client.setPhase c (.returned (.error err))
  | .ok (ikDhBytes, spkBytes) =>
    match client.keys.agreeSession S client.ourId peer ikDhBytes spkBytes ourRatchetSecret with
    | (_, .error err) => client.setPhase c (.returned (.error err))
    | (keys, .ok ()) =>
      let client := { client with
        keys
        keyed := client.keyed ++ [(⟨peer, ikDhBytes, spkBytes⟩ : Keyed)] }
      client.setPhase c (.returned (.ok ()))

def step (client : Initiator Key Secret) : InitiateAction Secret → Option (Initiator Key Secret)
  | .call peer =>
    let phase : CallPhase := if client.keys.hasSession peer.val then .returned (.ok ()) else .started
    some { client with calls := client.calls ++ [⟨peer, phase, none⟩] }
  | .insert c => do
    let call ← client.calls[c]?
    if call.phase = .started then
      some ({ client with pending := Function.update client.pending .getPrekeys (some c) }.setPhase
        c .inserted)
    else none
  | .send c outcome => do
    let call ← client.calls[c]?
    if call.phase = .inserted then
      match outcome with
      | .error err => some (client.setPhase c (.returned (.error err)))
      | .ok () =>
        some ({ client with requests := client.requests ++ [call.peer] }.setPhase c .waiting)
    else none
  | .serve i d => do
    let peer ← client.requests[i]?
    some { client with
      requests := client.requests.eraseIdx i
      replies := client.replies ++
        (d.answerGetPrekeys client.session peer.val).map fun reply => (peer, reply.json)
      served := client.served ++ [(peer, d.getPrekeys (hexEncode peer.val))] }
  | .deliver i => do
    let reply ← client.replies[i]?
    let client := { client with replies := client.replies.eraseIdx i }
    match dispatchJson client.pending reply.2 with
    | (pending, .completed channel json) =>
      some ({ client with pending }.modifyCall channel fun call => { call with value := some json })
    | (pending, _) => some { client with pending }
  | .resume c ourRatchetSecret => do
    let call ← client.calls[c]?
    if call.phase = .waiting then
      match call.value with
      | some resp => some (client.finish S c call.peer resp ourRatchetSecret)
      | none =>
        -- the channel is closed if its sender is gone
        if client.pending .getPrekeys = some c then none
        else some (client.setPhase c (.returned (.error (.session "get_prekeys cancelled"))))
    else none
  | .drop c => some (client.setPhase c .dropped)

end Initiator

end Cypher.Client
