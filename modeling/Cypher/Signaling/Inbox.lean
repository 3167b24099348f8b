import Cypher.Proto.Schema
import Cypher.Signaling.Hex
import Cypher.Signaling.Signing

/-!
# The two-phase inbox (`services/signaling/src/inbox.rs`)

`Redis` holds what the handlers keep: a list per inbox, a claim record per claim token and the
sorted set of claim deadlines. Keys are the inbox id and the token themselves; the source writes
them in hex behind the distinct names `inbox:`, `inbox:claim:` and `inbox:claims`. An `Item` is an
entry of an inbox list, with the number of the store that made it, which the source does not have.
Expiry of keys is left out.
-/

namespace Cypher.Signaling

open Proto

def inboxMaxMessages : Nat := 100

def inboxClaimTtlSecs : Nat := 5 * 60

/-! ## Redis -/

structure Item where
  number : Nat
  encoded : List Char
  deriving DecidableEq

structure Claim where
  inboxId : Bytes
  messages : List Item
  deriving DecidableEq

structure Redis where
  inbox : Bytes → List Item
  claim : Bytes → Option Claim
  /-- Sorted by deadline, then by token. -/
  claimIndex : List (Nat × Bytes)

namespace Redis

def empty : Redis :=
  ⟨fun _ => [], fun _ => none, []⟩

def setInbox (redis : Redis) (inboxId : Bytes) (items : List Item) : Redis :=
  { redis with inbox := Function.update redis.inbox inboxId items }

def setClaim (redis : Redis) (token : Bytes) (claim : Option Claim) : Redis :=
  { redis with claim := Function.update redis.claim token claim }

def zrem (redis : Redis) (token : Bytes) : Redis :=
  { redis with claimIndex := redis.claimIndex.filter fun entry => entry.2 ≠ token }

def zadd (redis : Redis) (deadline : Nat) (token : Bytes) : Redis :=
  { redis with
    claimIndex := (redis.zrem token).claimIndex.orderedInsert
      (fun a b => a.1 < b.1 ∨ (a.1 = b.1 ∧ ¬ b.2 < a.2)) (deadline, token) }

def zrangeByScore (redis : Redis) (now : Nat) : List Bytes :=
  (redis.claimIndex.filter fun entry => entry.1 ≤ now).map Prod.snd

def storeInboxPayload (redis : Redis) (inboxId : Bytes) (item : Item) : Redis :=
  redis.setInbox inboxId ((item :: redis.inbox inboxId).take inboxMaxMessages)

/-- The script of `handle_inbox_fetch`. -/
def claimInbox (redis : Redis) (inboxId token : Bytes) (deadline : Nat) : Redis × List Item :=
  let msgs := redis.inbox inboxId
  let claimed :=
    if msgs.length > 0 then (redis.setClaim token (some ⟨inboxId, msgs⟩)).zadd deadline token
    else redis
  (claimed.setInbox inboxId [], msgs)

/-- The script of `handle_inbox_ack`. -/
def dropClaim (redis : Redis) (token : Bytes) : Redis :=
  (redis.setClaim token none).zrem token

/-- The script of `recover_claims`. Pushing the last message first puts the claim in front of the
list in its own order. -/
def restoreClaim (redis : Redis) (token : Bytes) : Redis :=
  match redis.claim token with
  | none => redis.zrem token
  | some claim =>
    let pushed := claim.messages.reverse.foldl (fun list item => item :: list)
      (redis.inbox claim.inboxId)
    ((redis.setInbox claim.inboxId (pushed.take inboxMaxMessages)).setClaim token none).zrem token

end Redis

/-! ## Handlers -/

/-- The payloads `handle_inbox_fetch` writes out: empty ones are skipped. -/
def responsePayloads (messages : List Item) : List Bytes :=
  (messages.map fun item => hexDecodeBytes item.encoded).filter fun raw => !raw.isEmpty

def responseBlob (messages : List Item) : Bytes :=
  (responsePayloads messages).flatMap fun raw => Lib.leBytes 4 raw.length ++ raw

def responseCount (messages : List Item) : UInt32 :=
  UInt32.ofNat messages.length

/-- The reply of `handle_inbox_fetch`: message, claim token and signature. -/
def inboxReply (E : Ed25519) (hmac : HmacSha256) (signer : ServerSigner) (messagesBlob : Bytes)
    (count : UInt32) (inboxId : Bytes) (timestamp : UInt64) : Bytes :=
  InboxMessages.serialize ⟨messagesBlob, count⟩ ++
    signer.generateClaimToken hmac inboxId timestamp ++
    (signer.signInboxResponse E messagesBlob count inboxId timestamp).val

/-- `handle_inbox_fetch` at the second `timestamp`. -/
def handleInboxFetch (E : Ed25519) (hmac : HmacSha256) (signer : ServerSigner) (redis : Redis)
    (inboxId : Bytes) (timestamp : UInt64) : Redis × Bytes :=
  let token := signer.generateClaimToken hmac inboxId timestamp
  let (redis, messages) := redis.claimInbox inboxId token (timestamp.toNat + inboxClaimTtlSecs)
  (redis, inboxReply E hmac signer (responseBlob messages) (responseCount messages) inboxId
    timestamp)

/-- `handle_inbox_ack` at the second `now`; an invalid token gets no reply. -/
def handleInboxAck (hmac : HmacSha256) (signer : ServerSigner) (redis : Redis)
    (inboxId token : Bytes) (now : Nat) : Redis × Option Bytes :=
  if signer.verifyClaimToken hmac inboxId token inboxClaimTtlSecs now then
    (redis.dropClaim token, some (InboxMessages.serialize ⟨[], 0⟩))
  else (redis, none)

/-- One round of `recover_claims` at the second `now`. -/
def recoverClaims (redis : Redis) (now : Nat) : Redis :=
  (redis.zrangeByScore now).foldl Redis.restoreClaim redis

/-! ## Runs -/

/-- A reply of `handle_inbox_fetch`, and whether its claim token was acknowledged since. -/
structure Response where
  inboxId : Bytes
  timestamp : UInt64
  token : Bytes
  messages : List Item
  acked : Bool
  deriving DecidableEq

/-- The item's payload is among those the reply carries. -/
def Response.Contains (r : Response) (item : Item) : Prop :=
  item ∈ r.messages ∧ hexDecodeBytes item.encoded ∈ responsePayloads r.messages

instance (r : Response) (item : Item) : Decidable (r.Contains item) :=
  inferInstanceAs (Decidable (_ ∧ _))

def Response.ack (token : Bytes) (r : Response) : Response :=
  { r with acked := r.acked || r.token == token }

/-- Redis with the history of its inboxes: every item stored and every reply sent. -/
structure Server where
  redis : Redis
  stored : List (Bytes × Item)
  responses : List Response

inductive InboxAction where
  | store (inboxId payload : Bytes)
  | fetch (inboxId : Bytes) (timestamp : UInt64)
  | ack (inboxId token : Bytes) (now : Nat)
  | recover (now : Nat)

namespace Server

def start : Server :=
  ⟨.empty, [], []⟩

def step (E : Ed25519) (hmac : HmacSha256) (signer : ServerSigner) (server : Server) :
    InboxAction → Option Server
  | .store inboxId payload =>
    let item : Item := ⟨server.stored.length, hexEncode payload⟩
    some
      { server with
        redis := server.redis.storeInboxPayload inboxId item
        stored := (inboxId, item) :: server.stored }
  | .fetch inboxId timestamp =>
    some
      { server with
        redis := (handleInboxFetch E hmac signer server.redis inboxId timestamp).1
        responses :=
          { inboxId, timestamp, token := signer.generateClaimToken hmac inboxId timestamp,
            messages := server.redis.inbox inboxId, acked := false } :: server.responses }
  | .ack inboxId token now =>
    match handleInboxAck hmac signer server.redis inboxId token now with
    | (redis, some _) =>
      some { server with redis, responses := server.responses.map (Response.ack token) }
    | (redis, none) => some { server with redis }
  | .recover now => some { server with redis := recoverClaims server.redis now }

end Server

end Cypher.Signaling
