import Cypher.Client.KeyManager
import Cypher.Signaling.Directory

/-!
# Requests to signaling (`api/messaging.rs`, `api/runtime.rs`)

`create_link`, `join_link` and `initiate_session` put the sender of a oneshot channel into `pending`,
send their request and wait. A reply carries no reference to its request: `dispatch_json` tells its
kind from the members it has and completes the channel in the slot of that kind. A channel is named by
a number.
-/

namespace Cypher.Client

open Lib Proto Signaling

inductive PendingKind where
  | createLink
  | joinLink
  | getPrekeys
  deriving DecidableEq, Repr

/-- The oneshot sender in each slot. -/
abbrev Pending := PendingKind → Option Nat

def Pending.empty : Pending :=
  fun _ => none

/-- The client's `hex_decode`; `none` is a panic, of a slice that ends inside a character. A pair of
characters is the two bytes from `offset` on. -/
def hexDecodeFrom (offset : Nat) : List Char → Option (Result Bytes)
  | [] => some (.ok [])
  | c :: rest =>
    if c.utf8Size = 2 then
      some (.error (.protocol ("invalid hex at offset " ++ toString offset)))
    else if c.utf8Size = 1 then
      match rest with
      | [] => none
      | d :: rest =>
        if d.utf8Size = 1 then
          match fromStrRadix16 c d with
          | none => some (.error (.protocol ("invalid hex at offset " ++ toString offset)))
          | some byte =>
            (hexDecodeFrom (offset + 2) rest).map fun result => result.map fun bytes => byte :: bytes
        else none
    else none

def hexDecode (hex : List Char) : Option (Result Bytes) :=
  if (hex.map Char.utf8Size).sum % 2 ≠ 0 then
    some (.error (.protocol "odd-length hex string"))
  else hexDecodeFrom 0 hex

/-! ## Replies -/

/-- The kind of reply `dispatch_json` takes an object for. -/
def replyKind (json : Json) : Option PendingKind :=
  if (json.get "link_id").isSome then some .createLink
  else if (json.get "peer_id").isSome then some .joinLink
  else if (json.get "identity_key").isSome || (json.get "signed_prekey").isSome then
    some .getPrekeys
  else none

inductive JsonOutcome where
  /-- `ClientEvent::PeerConnected`. -/
  | peerConnected (peer : PeerId)
  /-- A oneshot channel is completed. -/
  | completed (channel : Nat) (json : Json)
  | ignored
  | panicked

def notifyJoined (json : Json) : JsonOutcome :=
  match json.getStr? "peer_id" with
  | none => .ignored
  | some hex =>
    match hexDecode hex with
    | none => .panicked
    | some (.error _) => .ignored
    | some (.ok bytes) =>
      match Array32.tryFrom bytes with
      | none => .ignored
      | some peer => .peerConnected peer

/-- The oneshot sender of a completed request is taken out of its slot. -/
def dispatchJson (pending : Pending) (json : Json) : Pending × JsonOutcome :=
  if json.getBool? "peer_joined" = some true then (pending, notifyJoined json)
  else
    match replyKind json with
    | none => (pending, .ignored)
    | some kind =>
      match pending kind with
      | none => (pending, .ignored)
      | some channel => (Function.update pending kind none, .completed channel json)

/-! ## What the calls make of a reply -/

def jsonBytesField (obj : Json) (field : String) : Result Bytes :=
  match (obj.get field).bind Json.asArray? with
  | none => .error (.protocol ("missing or non-array field '" ++ field ++ "'"))
  | some arr =>
    arr.mapM fun v =>
      match v.asNat? with
      | some n => if n < 256 then .ok (UInt8.ofNat n)
        else .error (.protocol ("invalid byte in '" ++ field ++ "'"))
      | none => .error (.protocol ("invalid byte in '" ++ field ++ "'"))

def createLinkResult (resp : Json) : Result (List Char) :=
  match resp.getStr? "link_id" with
  | some linkId => .ok linkId
  | none => .error (.protocol "missing link_id in response")

/-- The error of a reply that says the thing was not found. -/
def notFound (resp : Json) (otherwise : String) : Error :=
  .protocol (String.ofList ((resp.getStr? "error").getD otherwise.toList))

/-- `none` is a panic of `hex_decode`. -/
def joinLinkResult (resp : Json) : Option (Result PeerId) :=
  if resp.getBool? "found" ≠ some true then some (.error (notFound resp "link not found"))
  else
    match resp.getStr? "peer_id" with
    | none => some (.error (.protocol "missing peer_id in response"))
    | some hex =>
      (hexDecode hex).map fun
        | .error err => .error err
        | .ok bytes =>
          match Array32.tryFrom bytes with
          | none => .error (.protocol "invalid peer_id")
          | some peer => .ok peer

/-- The identity key and the signed prekey of a reply to `keys.getPrekeys`. -/
def prekeysResult (resp : Json) : Result (Bytes × Bytes) :=
  if resp.getBool? "found" ≠ some true then .error (notFound resp "prekeys not found")
  else
    match jsonBytesField resp "identity_key" with
    | .error err => .error err
    | .ok ikDhBytes =>
      match jsonBytesField resp "signed_prekey" with
      | .error err => .error err
      | .ok spkBytes => .ok (ikDhBytes, spkBytes)

/-! ## The requests -/

inductive Request where
  | createLink
  | joinLink (link : Utf8)
  | initiateSession (peer : PeerId)

namespace Request

def kind : Request → PendingKind
  | createLink => .createLink
  | joinLink _ => .joinLink
  | initiateSession _ => .getPrekeys

/-- The binary message of a request; `create_link` is a JSON object with the action. -/
def message? : Request → Option Message
  | createLink => none
  | joinLink link => some ⟨signalRequestPeer, (link, ())⟩
  | initiateSession peer => some ⟨keysGetPrekeys, (peer.val, ())⟩

end Request

/-- What signaling publishes for the requesting session: the handler of the request in the states in
which it reads. The first publication is the reply. -/
def Request.serve (atLink atSession atJoiner atCreator : Directory) (newLink : List Char)
    (s : SessionId) (peerIdHex : List Char) : Request → List Publication
  | createLink => (atLink.handleCreateLink newLink s peerIdHex).2
  | joinLink link => Directory.answerRequestPeer atLink atSession atJoiner atCreator s link.val
  | initiateSession peer => atLink.answerGetPrekeys s peer.val

end Cypher.Client
