import Cypher.Lib.Run
import Cypher.Signaling.Directory
import Mathlib.Data.List.Infix

/-!
# Requests of the web client (`clients/pwa/src/api/index.ts`)

`createLink`, `joinLink` and `fetchPeerInboxId` with the JSON branch of `handleMessage` that settles
their promises. Promises are numbered in the order of the calls, and a settled promise stays as it is.
The two functions of a pending call (`pendingLinkResolve` and `pendingLinkReject`, and likewise for
the prekeys) are set and cleared together, so one number stands for both. A timer is never cleared.

The steps are calls, timers that run out, requests that signaling handles in any order and in any
state, notifications, and messages that arrive in any order. A request that is not sent for lack of a
connection is one that is never handled.
-/

namespace Cypher.Pwa

open Lib Signaling

inductive ApiCall where
  | createLink
  /-- The UTF-8 form of the link. -/
  | joinLink (link : Bytes)
  | fetchPeerInboxId (target : Bytes)
  deriving DecidableEq, Repr

/-- What a promise is resolved with. -/
inductive ApiValue where
  | link (linkId : List Char)
  | peer (peerId : List Char)
  | inbox (inboxId : Option (List Char))
  deriving DecidableEq, Repr

inductive Settlement where
  | resolved (value : ApiValue)
  | rejected (error : String)
  deriving DecidableEq, Repr

/-- Why signaling sent a message: as the reply to the call of a promise, or unasked. -/
inductive Origin where
  | reply (promise : Nat)
  | notification
  deriving DecidableEq, Repr

inductive Trigger where
  | message (origin : Origin)
  /-- The timer that the call of a promise set. -/
  | timer (promise : Nat)
  /-- A later call. -/
  | superseded (promise : Nat)
  deriving DecidableEq, Repr

structure Settled where
  promise : Nat
  settlement : Settlement
  trigger : Trigger
  deriving DecidableEq, Repr

structure Inbound where
  origin : Origin
  json : Json

structure Api where
  session : SessionId
  peerIdHex : List Char
  /-- The call of each promise. -/
  promises : List ApiCall
  pendingLink : Option Nat
  pendingPrekeys : Option Nat
  /-- The listeners of `peer_connected` that `joinLink` adds. -/
  listeners : List Nat
  timers : List Nat
  /-- The requests that signaling has not handled. -/
  requests : List Nat
  /-- The messages under way to the client. -/
  inbound : List Inbound
  /-- What signaling has answered to the call of a promise. -/
  answered : List (Nat × ApiValue)
  settled : List Settled

inductive ApiAction where
  | call (c : ApiCall)
  | expire (promise : Nat)
  /-- Signaling handles a request; the directories are what its reads see, and `newLink` is the link
  that it generates. -/
  | serve (i : Nat) (newLink : List Char) (atLink atSession atJoiner atCreator : Directory)
  /-- A peer has joined a link of ours. -/
  | notify (joinerHex : List Char)
  | deliver (i : Nat)

/-- A member that is tested for truth; in the objects of signaling these are strings. -/
def truthy? (json : Json) (key : String) : Option (List Char) :=
  (json.getStr? key).filter fun s => s ≠ []

def isPrekeysResponse (json : Json) : Bool :=
  (json.get "identity_key").isSome || (json.get "signed_prekey").isSome ||
    (json.getBool? "found" = some false &&
      ((json.getStr? "error").any fun error => decide ("prekeys".toList <:+: error)))

/-- The peer for which `peer_connected` is emitted. -/
def connectedPeer? (json : Json) : Option (List Char) :=
  if json.getBool? "found" = some true ∨ json.getBool? "peer_joined" = some true then
    truthy? json "peer_id"
  else none

namespace Api

def start (session : SessionId) (peerIdHex : List Char) : Api :=
  ⟨session, peerIdHex, [], none, none, [], [], [], [], [], []⟩

/-- Settle a promise, unless it is settled. -/
def settle (api : Api) (trigger : Trigger) (settlement : Settlement) (promise : Nat) : Api :=
  if api.settled.any fun s => s.promise = promise then api
  else { api with settled := api.settled ++ [⟨promise, settlement, trigger⟩] }

/-- `emit("peer_connected", peer)`: each listener unsubscribes and resolves its promise. -/
def emitPeerConnected (api : Api) (origin : Origin) (peer : List Char) : Api :=
  api.listeners.foldl (fun api promise => api.settle (.message origin) (.resolved (.peer peer)) promise)
    { api with listeners := [] }

def handleJson (api : Api) (origin : Origin) (json : Json) : Api :=
  match truthy? json "link_id", api.pendingLink with
  | some linkId, some promise =>
    { api with pendingLink := none }.settle (.message origin) (.resolved (.link linkId)) promise
  | _, _ =>
    match connectedPeer? json with
    | some peer => api.emitPeerConnected origin peer
    | none =>
      if isPrekeysResponse json then
        match api.pendingPrekeys with
        | some promise =>
          { api with pendingPrekeys := none }.settle (.message origin)
            (.resolved (.inbox (json.getStr? "inbox_id"))) promise
        | none => api
      else api

/-- The call of a new promise, up to the return of the promise. -/
def begin (api : Api) (c : ApiCall) : Api :=
  let promise := api.promises.length
  let api := { api with
    promises := api.promises ++ [c]
    timers := api.timers ++ [promise]
    requests := api.requests ++ [promise] }
  match c with
  | .createLink => { api with pendingLink := some promise }
  | .joinLink _ => { api with listeners := api.listeners ++ [promise] }
  | .fetchPeerInboxId _ =>
    let api :=
      match api.pendingPrekeys with
      | some previous =>
        api.settle (.superseded promise) (.rejected "previous prekey request superseded") previous
      | none => api
    { api with pendingPrekeys := some promise }

/-- The timer of a call runs out. That of `createLink` does not look whose promise is pending. -/
def expire (api : Api) (promise : Nat) : ApiCall → Api
  | .createLink =>
    match api.pendingLink with
    | some pending =>
      { api with pendingLink := none }.settle (.timer promise) (.rejected "create_link timeout")
        pending
    | none => api
  | .joinLink _ =>
    { api with listeners := api.listeners.filter (· ≠ promise) }.settle (.timer promise)
      (.rejected "join_link timeout") promise
  | .fetchPeerInboxId _ =>
    if api.pendingPrekeys = some promise then
      { api with pendingPrekeys := none }.settle (.timer promise) (.rejected "get_prekeys timeout")
        promise
    else api

/-- What signaling publishes for a call. The first publication is the reply. -/
def publications (session : SessionId) (peerIdHex newLink : List Char)
    (atLink atSession atJoiner atCreator : Directory) : ApiCall → List Publication
  | .createLink => (atLink.handleCreateLink newLink session peerIdHex).2
  | .joinLink link => Directory.answerRequestPeer atLink atSession atJoiner atCreator session link
  | .fetchPeerInboxId target => atLink.answerGetPrekeys session target

/-- What the reply says: the new link, the creator of the link that was asked for, or the inbox of the
peer that was asked for. There is no answer to a link that is not found. -/
def answer (newLink : List Char) (atLink : Directory) : ApiCall → Option ApiValue
  | .createLink => some (.link newLink)
  | .joinLink link => (atLink.getLink link).map .peer
  | .fetchPeerInboxId target =>
    some (.inbox ((atLink.getPrekeys (hexEncode target)).bind PrekeyBundle.inboxId))

/-- The publications that reach our session. -/
def received (session : SessionId) (promise : Nat) : List Publication → List Inbound
  | [] => []
  | reply :: rest =>
    ⟨.reply promise, reply.json⟩ ::
      (rest.filter fun p => p.session = session).map fun p => ⟨.notification, p.json⟩

def step (api : Api) : ApiAction → Option Api
  | .call c => some (api.begin c)
  | .expire promise => do
    let c ← api.promises[promise]?
    if promise ∈ api.timers then
      some ({ api with timers := api.timers.erase promise }.expire promise c)
    else none
  | .serve i newLink atLink atSession atJoiner atCreator => do
    let promise ← api.requests[i]?
    let c ← api.promises[promise]?
    some { api with
      requests := api.requests.eraseIdx i
      inbound := api.inbound ++ received api.session promise
        (publications api.session api.peerIdHex newLink atLink atSession atJoiner atCreator c)
      answered := api.answered ++ ((answer newLink atLink c).map (promise, ·)).toList }
  | .notify joinerHex =>
    some { api with inbound := api.inbound ++ [⟨.notification, peerJoined joinerHex⟩] }
  | .deliver i => do
    let message ← api.inbound[i]?
    some ({ api with inbound := api.inbound.eraseIdx i }.handleJson message.origin message.json)

end Api

end Cypher.Pwa
