import Cypher.Client.Inbox
import Cypher.Lib.Increasing
import Cypher.Signaling.Verify.Conservation

/-!
# The order of inbox messages

`LPUSH` puts a message in front of its inbox and `LRANGE` reads from the front, so a fetch returns the
newest message first, and `recover_claims` puts a claim back in front of what was stored since. The
messages of a fetch are in the order in which they were stored as long as nothing is stored into an
inbox that has messages and every claim that is restored is older than what it is put in front of.
-/

namespace Cypher.Signaling.Verify

def payloadOf (item : Item) : Bytes :=
  hexDecodeBytes item.encoded

def visible (items : List Item) : List Item :=
  items.filter fun item => !(payloadOf item).isEmpty

theorem responsePayloads_eq (items : List Item) :
    responsePayloads items = (visible items).map payloadOf :=
  List.filter_map

theorem responseBlob_eq (items : List Item) :
    responseBlob items = ((visible items).map payloadOf).flatMap Client.prefixed := by
  rw [← responsePayloads_eq]
  rfl

/-- The payloads that the client walks through are those of messages stored into the inbox, in the
order in which they were stored. -/
def InStoreOrder (server : Server) (r : Response) : Prop :=
  ∃ items : List Item, (items.map fun item => (r.inboxId, item)).Sublist server.stored.reverse ∧
    Client.handleInboxMessages (responseBlob r.messages) = items.map payloadOf

/-! ## The condition -/

/-- Each claim restored in turn is older than the messages in its inbox. -/
def RestoresOlder : Redis → List Bytes → Prop
  | _, [] => True
  | redis, token :: rest =>
    (∀ claim ∈ redis.claim token, ∀ a ∈ visible claim.messages,
      ∀ b ∈ visible (redis.inbox claim.inboxId), a.number < b.number) ∧
    RestoresOlder (redis.restoreClaim token) rest

instance decidableRestoresOlder :
    (redis : Redis) → (tokens : List Bytes) → Decidable (RestoresOlder redis tokens)
  | _, [] => .isTrue trivial
  | redis, token :: rest =>
    have := decidableRestoresOlder (redis.restoreClaim token) rest
    inferInstanceAs (Decidable (_ ∧ _))

/-- Nothing is stored in front of a message, or put in front of an older one. -/
def KeepsOrder (server : Server) : InboxAction → Prop
  | .store inboxId payload =>
    payload.length < 2 ^ 32 ∧ (payload = [] ∨ visible (server.redis.inbox inboxId) = [])
  | .recover now => RestoresOlder server.redis (server.redis.zrangeByScore now)
  | _ => True

instance (server : Server) : (a : InboxAction) → Decidable (KeepsOrder server a)
  | .store _ _ => inferInstanceAs (Decidable (_ ∧ _))
  | .fetch _ _ => .isTrue trivial
  | .ack _ _ _ => .isTrue trivial
  | .recover _ => inferInstanceAs (Decidable (RestoresOlder _ _))

/-! ## Lists of messages of one inbox -/

/-- The messages were stored into the inbox, and those that are written out are in order. -/
structure Tidy (stored : List (Bytes × Item)) (inboxId : Bytes) (items : List Item) : Prop where
  order : (visible items).Pairwise (·.number < ·.number)
  stored : ∀ item ∈ items, (inboxId, item) ∈ stored

namespace Tidy

variable {stored : List (Bytes × Item)} {inboxId : Bytes} {items : List Item}

theorem nil : Tidy stored inboxId [] :=
  ⟨.nil, fun _ hitem => absurd hitem List.not_mem_nil⟩

theorem sublist (h : Tidy stored inboxId items) {items' : List Item} (hsub : items'.Sublist items) :
    Tidy stored inboxId items' :=
  ⟨h.order.sublist (hsub.filter _), fun item hitem => h.stored item (hsub.subset hitem)⟩

theorem mono (h : Tidy stored inboxId items) (entry : Bytes × Item) :
    Tidy (entry :: stored) inboxId items :=
  ⟨h.order, fun item hitem => List.mem_cons_of_mem _ (h.stored item hitem)⟩

theorem append (h : Tidy stored inboxId items) {newer : List Item}
    (hnewer : Tidy stored inboxId newer)
    (hcross : ∀ a ∈ visible items, ∀ b ∈ visible newer, a.number < b.number) :
    Tidy stored inboxId (items ++ newer) := by
  refine ⟨?_, List.forall_mem_append.mpr ⟨h.stored, hnewer.stored⟩⟩
  rw [visible, List.filter_append]
  exact List.pairwise_append.mpr ⟨h.order, hnewer.order, hcross⟩

end Tidy

/-! ## The invariant -/

/-- Messages are numbered as they are stored, and every list of them is tidy. -/
structure Sorted (server : Server) : Prop where
  numbers : server.stored.Pairwise fun a b => b.2.number < a.2.number
  number_lt : ∀ entry ∈ server.stored, entry.2.number < server.stored.length
  short : ∀ entry ∈ server.stored, (payloadOf entry.2).length < 2 ^ 32
  inbox : ∀ id, Tidy server.stored id (server.redis.inbox id)
  claim : ∀ token claim, server.redis.claim token = some claim →
    Tidy server.stored claim.inboxId claim.messages
  responses : ∀ r ∈ server.responses, Tidy server.stored r.inboxId r.messages

namespace Sorted

variable {E : Ed25519} {hmac : HmacSha256} {signer : ServerSigner} {server : Server}

theorem start : Sorted Server.start where
  numbers := .nil
  number_lt _ hentry := absurd hentry List.not_mem_nil
  short _ hentry := absurd hentry List.not_mem_nil
  inbox _ := .nil
  claim _ _ hclaim := nomatch hclaim
  responses _ hr := absurd hr List.not_mem_nil

theorem store (h : Sorted server) {inboxId payload : Bytes} (hshort : payload.length < 2 ^ 32)
    (hempty : payload = [] ∨ visible (server.redis.inbox inboxId) = []) :
    Sorted
      { server with
        redis := server.redis.storeInboxPayload inboxId ⟨server.stored.length, hexEncode payload⟩
        stored := (inboxId, ⟨server.stored.length, hexEncode payload⟩) :: server.stored } := by
  have hpayload : payloadOf ⟨server.stored.length, hexEncode payload⟩ = payload :=
    hexDecodeBytes_hexEncode payload
  generalize hnew : (⟨server.stored.length, hexEncode payload⟩ : Item) = new at hpayload ⊢
  have hnumber : new.number = server.stored.length := by rw [← hnew]
  have hlist : Tidy ((inboxId, new) :: server.stored) inboxId
      (new :: server.redis.inbox inboxId) := by
    refine ⟨?_, ?_⟩
    · rw [visible, List.filter_cons]
      rcases hempty with rfl | hnone
      · -- an empty message is not written out
        rw [hpayload, if_neg (by decide)]
        exact (h.inbox inboxId).order
      · rw [visible] at hnone
        rw [hnone]
        split
        · exact List.pairwise_singleton _ _
        · exact .nil
    · refine List.forall_mem_cons.mpr ⟨List.mem_cons_self, fun item hitem => ?_⟩
      exact List.mem_cons_of_mem _ ((h.inbox inboxId).stored item hitem)
  refine ⟨?_, ?_, ?_, ?_, ?_, ?_⟩
  · refine List.pairwise_cons.mpr ⟨fun entry hentry => ?_, h.numbers⟩
    dsimp only
    rw [hnumber]
    exact h.number_lt entry hentry
  · rw [List.length_cons]
    refine List.forall_mem_cons.mpr ⟨?_, fun entry hentry => ?_⟩
    · dsimp only
      omega
    · exact Nat.lt_succ_of_lt (h.number_lt entry hentry)
  · exact List.forall_mem_cons.mpr ⟨hpayload ▸ hshort, h.short⟩
  · intro id
    dsimp only
    rw [Redis.storeInboxPayload, inbox_setInbox]
    split
    · next heq =>
      rw [heq]
      exact hlist.sublist (List.take_sublist _ _)
    · exact (h.inbox id).mono _
  · intro token claim hclaim
    exact (h.claim token claim hclaim).mono _
  · intro r hr
    exact (h.responses r hr).mono _

theorem fetch (h : Sorted server) {inboxId token : Bytes} {deadline : Nat} {new : Response}
    (hid : new.inboxId = inboxId) (hmessages : new.messages = server.redis.inbox inboxId) :
    Sorted
      { server with
        redis := (server.redis.claimInbox inboxId token deadline).1
        responses := new :: server.responses } := by
  refine ⟨h.numbers, h.number_lt, h.short, ?_, ?_, ?_⟩
  · intro id
    dsimp only
    rw [inbox_claimInbox]
    split
    · exact .nil
    · exact h.inbox id
  · intro other claim hother
    dsimp only at hother
    rw [claim_claimInbox] at hother
    split at hother
    · cases hother
      exact h.inbox inboxId
    · exact h.claim other claim hother
  · refine List.forall_mem_cons.mpr ⟨?_, h.responses⟩
    rw [hid, hmessages]
    exact h.inbox inboxId

theorem ack (h : Sorted server) (token : Bytes) :
    Sorted
      { server with
        redis := server.redis.dropClaim token
        responses := server.responses.map (Response.ack token) } := by
  refine ⟨h.numbers, h.number_lt, h.short, h.inbox, ?_, ?_⟩
  · intro other claim hother
    exact h.claim other claim (claim_of_dropClaim hother)
  · intro r hr
    obtain ⟨r₀, hr₀, rfl⟩ := List.mem_map.mp hr
    exact h.responses r₀ hr₀

theorem restoreClaim (h : Sorted server) {token : Bytes}
    (holder : ∀ claim ∈ server.redis.claim token, ∀ a ∈ visible claim.messages,
      ∀ b ∈ visible (server.redis.inbox claim.inboxId), a.number < b.number) :
    Sorted { server with redis := server.redis.restoreClaim token } := by
  refine ⟨h.numbers, h.number_lt, h.short, ?_, ?_, h.responses⟩
  · intro id
    dsimp only
    cases hclaim : server.redis.claim token with
    | none =>
      rw [inbox_restoreClaim_none hclaim]
      exact h.inbox id
    | some claim =>
      rw [inbox_restoreClaim_take id hclaim]
      split
      · next heq =>
        rw [heq]
        have hboth := (h.claim token claim hclaim).append (h.inbox claim.inboxId)
          (holder claim hclaim)
        exact hboth.sublist (List.take_sublist _ _)
      · exact h.inbox id
  · intro other claim hother
    exact h.claim other claim (claim_of_restoreClaim hother)

theorem recover (h : Sorted server) {tokens : List Bytes}
    (holder : RestoresOlder server.redis tokens) :
    Sorted { server with redis := tokens.foldl Redis.restoreClaim server.redis } := by
  induction tokens generalizing server with
  | nil => exact h
  | cons token rest ih => exact ih (h.restoreClaim holder.1) holder.2

theorem step (h : Sorted server) {a : InboxAction} {server' : Server}
    (hkeeps : KeepsOrder server a) (hstep : server.step E hmac signer a = some server') :
    Sorted server' := by
  cases a with
  | store inboxId payload =>
    cases hstep
    exact h.store hkeeps.1 hkeeps.2
  | fetch inboxId timestamp =>
    cases hstep
    exact h.fetch rfl rfl
  | ack inboxId token now =>
    rcases step_ack hstep with rfl | rfl
    · exact h
    · exact h.ack token
  | recover now =>
    cases hstep
    exact h.recover hkeeps

theorem inStoreOrder (h : Sorted server) {r : Response} (hr : r ∈ server.responses) :
    InStoreOrder server r := by
  have htidy := h.responses r hr
  have hstored : ∀ item ∈ visible r.messages, (r.inboxId, item) ∈ server.stored := fun item hitem =>
    htidy.stored item (List.mem_filter.mp hitem).1
  refine ⟨visible r.messages, ?_, ?_⟩
  · refine Lib.sublist_of_increasing (fun entry => entry.2.number) ?_ ?_ ?_
    · exact List.pairwise_map.mpr htidy.order
    · exact List.pairwise_reverse.mpr h.numbers
    · intro entry hentry
      obtain ⟨item, hitem, rfl⟩ := List.mem_map.mp hentry
      exact List.mem_reverse.mpr (hstored item hitem)
  · rw [responseBlob_eq]
    refine Client.handleInboxMessages_prefixed fun raw hraw => ?_
    obtain ⟨item, hitem, rfl⟩ := List.mem_map.mp hraw
    exact h.short _ (hstored item hitem)

end Sorted

/-- **The order of inbox messages.** In every run in which no message is stored into an inbox that has
some and every claim that is restored is older than what is in its inbox then, the client walks
through the messages of every reply in the order in which they were stored. -/
theorem inbox_keeps_order (E : Ed25519) (hmac : HmacSha256) (signer : ServerSigner)
    (server : Server)
    (run : Lib.Run (Server.step E hmac signer)
      (fun server a => WithinCapacity server a ∧ KeepsOrder server a) Server.start server)
    (r : Response) (hr : r ∈ server.responses) : InStoreOrder server r :=
  (run.invariant Sorted.start fun h guard hstep => h.step guard.2 hstep).inStoreOrder hr

/-- A claim is restored in front of a newer message. -/
theorem inbox_keeps_order_restored :
    ∃ server r, Lib.Run (Server.step .digest .digest ⟨.ofNat 1, .ofNat 2⟩)
        (fun server a => WithinCapacity server a ∧ KeepsOrder server a) Server.start server ∧
      r ∈ server.responses ∧
      Client.handleInboxMessages (responseBlob r.messages) = [ascii "m0", ascii "m1"] ∧
      InStoreOrder server r := by
  have hexec : (Lib.exec (Server.step .digest .digest ⟨.ofNat 1, .ofNat 2⟩)
      (fun server a => WithinCapacity server a ∧ KeepsOrder server a) Server.start
      [.store (ascii "inbox") (ascii "m0"), .fetch (ascii "inbox") 1000,
        .store (ascii "inbox") (ascii "m1"), .recover 1300, .fetch (ascii "inbox") 1301]).map
      (fun server => (server.responses.head?).map fun r =>
        Client.handleInboxMessages (responseBlob r.messages)) =
        some (some [ascii "m0", ascii "m1"]) := by decide +kernel
  obtain ⟨server, hs, hhead⟩ := Option.map_eq_some_iff.mp hexec
  obtain ⟨r, hr, hwalk⟩ := Option.map_eq_some_iff.mp hhead
  refine ⟨server, r, .of_exec hs, List.mem_of_head? hr, hwalk, ?_⟩
  exact inbox_keeps_order .digest .digest ⟨.ofNat 1, .ofNat 2⟩ server (.of_exec hs) r
    (List.mem_of_head? hr)

/-- Two messages come back in the reverse order. -/
theorem inbox_reverses_order :
    ∃ server r, Lib.Run (Server.step .digest .digest ⟨.ofNat 1, .ofNat 2⟩) WithinCapacity
        Server.start server ∧
      r ∈ server.responses ∧
      Client.handleInboxMessages (responseBlob r.messages) = [ascii "m1", ascii "m0"] ∧
      ¬ InStoreOrder server r := by
  have hexec : (Lib.exec (Server.step .digest .digest ⟨.ofNat 1, .ofNat 2⟩) WithinCapacity
      Server.start [.store (ascii "inbox") (ascii "m0"), .store (ascii "inbox") (ascii "m1"),
        .fetch (ascii "inbox") 1000]).map
      (fun server => (server.stored.reverse.map fun entry => payloadOf entry.2,
        (server.responses.head?).map fun r =>
          Client.handleInboxMessages (responseBlob r.messages))) =
        some ([ascii "m0", ascii "m1"], some [ascii "m1", ascii "m0"]) := by decide +kernel
  obtain ⟨server, hs, hvalues⟩ := Option.map_eq_some_iff.mp hexec
  obtain ⟨hstored, hhead⟩ := Prod.mk.inj hvalues
  obtain ⟨r, hr, hwalk⟩ := Option.map_eq_some_iff.mp hhead
  refine ⟨server, r, .of_exec hs, List.mem_of_head? hr, hwalk, ?_⟩
  rintro ⟨items, hsublist, hitems⟩
  -- the payloads of a sublist of the stores are a sublist of `m0`, `m1`
  have hpayloads := hsublist.map fun entry => payloadOf entry.2
  rw [List.map_map, hstored] at hpayloads
  have hsame : items.map ((fun entry : Bytes × Item => payloadOf entry.2) ∘
      fun item => (r.inboxId, item)) = items.map payloadOf := rfl
  rw [hsame, ← hitems, hwalk] at hpayloads
  exact absurd hpayloads (by decide)

end Cypher.Signaling.Verify
