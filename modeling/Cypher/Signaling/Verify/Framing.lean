import Cypher.Signaling.Verify.Fetchable

/-!
# From the inbox to the client

A stored payload is written in hex, read back by a fetch, put behind its length, wrapped in an
`InboxMessages` message with the claim token and a signature behind it, dispatched by the client and
cut out again. Nothing is lost as long as the lengths fit in 32 bits (`handleInboxMessages_fetched`).
They do in every run: a payload was read from a frame of at most a megabyte, and an inbox has at most
a hundred (`Filled`).
-/

namespace Cypher.Signaling.Verify

open Proto

/-! ## One fetch -/

theorem length_le_framedSize {payloads : List Bytes} {raw : Bytes} (hmem : raw ∈ payloads)
    (hraw : raw ≠ []) : raw.length ≤ framedSize payloads := by
  have hfilter : raw ∈ payloads.filter fun raw => !raw.isEmpty := by
    refine List.mem_filter.mpr ⟨hmem, ?_⟩
    rw [Bool.not_eq_true', List.isEmpty_eq_false_iff]
    exact hraw
  have hle := List.single_le_sum (fun _ _ => Nat.zero_le _) (4 + raw.length)
    (List.mem_map_of_mem (f := fun raw : Bytes => 4 + raw.length) hfilter)
  rw [framedSize]
  omega

section

variable (E : Ed25519) (hmac : HmacSha256) (signer : ServerSigner)

/-- What the client walks through are the payloads of the fetched list, in its order. -/
theorem handleInboxMessages_fetched (redis : Redis) (inboxId : Bytes) (timestamp : UInt64)
    {payloads : List Bytes}
    (hstored : (redis.inbox inboxId).map Item.encoded = payloads.map hexEncode)
    (hnonempty : ∀ raw ∈ payloads, raw ≠ []) (hsize : framedSize payloads < 2 ^ 32) :
    ∃ inbox, dispatchInbox (handleInboxFetch E hmac signer redis inboxId timestamp).2 =
        some inbox ∧
      Client.handleInboxMessages inbox.messages = payloads := by
  have hdecoded : (redis.inbox inboxId).map payloadOf = payloads := by
    have hmap := congrArg (List.map hexDecodeBytes) hstored
    rw [List.map_map, List.map_map] at hmap
    exact hmap.trans (List.map_id'' hexDecodeBytes_hexEncode payloads)
  have hpayloads : responsePayloads (redis.inbox inboxId) = payloads := by
    rw [responsePayloads]
    refine (congrArg (List.filter _) hdecoded).trans (List.filter_eq_self.mpr fun raw hraw => ?_)
    rw [Bool.not_eq_true', List.isEmpty_eq_false_iff]
    exact hnonempty raw hraw
  have hblob : (responseBlob (redis.inbox inboxId)).length < 2 ^ 32 := by
    rw [length_responseBlob, hdecoded]
    exact hsize
  have hwalk : Client.handleInboxMessages (responseBlob (redis.inbox inboxId)) = payloads := by
    rw [responseBlob, hpayloads]
    refine Client.handleInboxMessages_prefixed fun raw hraw => ?_
    exact (length_le_framedSize hraw (hnonempty raw hraw)).trans_lt hsize
  have hreply : (handleInboxFetch E hmac signer redis inboxId timestamp).2 =
      InboxMessages.serialize ⟨responseBlob (redis.inbox inboxId),
          responseCount (redis.inbox inboxId)⟩ ++
        (signer.generateClaimToken hmac inboxId timestamp ++
          (signer.signInboxResponse E (responseBlob (redis.inbox inboxId))
            (responseCount (redis.inbox inboxId)) inboxId timestamp).val) :=
    List.append_assoc ..
  rw [hreply, InboxMessages.dispatchInbox_serialize_append hblob]
  exact ⟨_, rfl, hwalk⟩

end

/-! ## What can be stored -/

/-- What reaches `store_inbox_payload`: the ciphertext of an `InboxStore`, or a `ChatSend` for a peer
that is not connected with the sender's id in it, which came in a frame itself. -/
inductive Storable : Bytes → Prop
  | ofInboxStore (arrival : StoreArrival) : Storable arrival.ciphertext
  | ofChatSend {src rest : Bytes} {frame : Transport.Frame} {m : Message} {sender : Bytes}
      (decoded : Transport.decode src = .ok (some (frame, rest)))
      (dispatched : dispatch coreP2p frame.payload = .ok m) (chat : m.ctor = chatSend)
      (bounded : sender.length ≤ Transport.maxFrameSize) :
      Storable (m.withPeerId sender).serialize

theorem length_payload_of_decode {src rest : Bytes} {frame : Transport.Frame}
    (h : Transport.decode src = .ok (some (frame, rest))) :
    frame.payload.length ≤ Transport.maxFrameSize := by
  unfold Transport.decode at h
  split at h
  · cases h
  dsimp only at h
  split at h
  · cases h
  split at h
  · cases h
  · next hlarge =>
    split at h
    · cases h
    · cases h
      rw [List.length_take]
      omega

theorem length_le_of_fits {data l : Bytes} {offset : Nat}
    (h : Lib.Fits (layoutBytes data) offset l) : data.length ≤ l.length := by
  by_cases hdata : data = []
  · rw [hdata]
    exact Nat.zero_le _
  · have hfits := (Lib.Fits.append_iff.mp (Lib.Fits.append_iff.mp h).1).2
    have := hfits.length_le hdata
    omega

theorem length_encodeBytes_le (data : Bytes) : (encodeBytes data).length ≤ data.length + 7 := by
  simp only [encodeBytes, List.length_append, Lib.leBytes_length, List.length_replicate, padding]
  omega

theorem Storable.length_le {payload : Bytes} (h : Storable payload) : payload.length ≤ 2 ^ 23 := by
  cases h with
  | ofInboxStore arrival =>
    have hframe := length_payload_of_decode arrival.decoded
    obtain ⟨-, -, hfits⟩ := (dispatch_eq_ok_iff coreP2p_hygienic).mp arrival.dispatched
    have hfields := (Lib.Fits.append_iff.mp hfits).2
    have hcipher := (Lib.Fits.append_iff.mp (Lib.Fits.append_iff.mp hfields).2).1
    have hle := length_le_of_fits hcipher
    rw [Transport.maxFrameSize] at hframe
    omega
  | @ofChatSend src rest frame m sender decoded dispatched chat bounded =>
    have hframe := length_payload_of_decode decoded
    obtain ⟨ctor, fields⟩ := m
    dsimp only at chat
    subst chat
    obtain ⟨peerId, ciphertext, ratchetKey, msgNo, _⟩ := fields
    obtain ⟨-, -, hfits⟩ := (dispatch_eq_ok_iff coreP2p_hygienic).mp dispatched
    have hafterPeer := (Lib.Fits.append_iff.mp (Lib.Fits.append_iff.mp hfits).2).2
    obtain ⟨hcipher, hafterCipher⟩ := Lib.Fits.append_iff.mp hafterPeer
    have hkey := length_le_of_fits (Lib.Fits.append_iff.mp hafterCipher).1
    have hcipher := length_le_of_fits hcipher
    have h₁ := length_encodeBytes_le sender
    have h₂ := length_encodeBytes_le ciphertext
    have h₃ := length_encodeBytes_le ratchetKey
    -- the layout of a `ChatSend`, with the sender's id in the first field
    change (Lib.leBytes 4 chatSend.id.toNat ++ (encodeBytes sender ++ (encodeBytes ciphertext ++
      (encodeBytes ratchetKey ++ (Lib.leBytes 4 msgNo.toNat ++ []))))).length ≤ 2 ^ 23
    simp only [List.length_append, Lib.leBytes_length, List.length_nil]
    rw [Transport.maxFrameSize] at hframe bounded
    omega

/-! ## Runs -/

/-- Only payloads that arrived are stored, and only such as are not empty. -/
def StoresArrived : InboxAction → Prop
  | .store _ payload => payload ≠ [] ∧ Storable payload
  | _ => True

/-- An entry of an inbox list. -/
def Written (item : Item) : Prop :=
  ∃ payload, payload ≠ [] ∧ Storable payload ∧ item.encoded = hexEncode payload

theorem exists_payloads {items : List Item} (h : ∀ item ∈ items, Written item) :
    ∃ payloads : List Bytes, items.map Item.encoded = payloads.map hexEncode ∧
      payloads.length = items.length ∧ ∀ raw ∈ payloads, raw ≠ [] ∧ Storable raw := by
  induction items with
  | nil => exact ⟨[], rfl, rfl, fun _ hraw => absurd hraw List.not_mem_nil⟩
  | cons item items ih =>
    obtain ⟨⟨payload, hnonempty, hstorable, hencoded⟩, hrest⟩ := List.forall_mem_cons.mp h
    obtain ⟨payloads, hpayloads, hlength, hall⟩ := ih hrest
    refine ⟨payload :: payloads, ?_, congrArg Nat.succ hlength,
      List.forall_mem_cons.mpr ⟨⟨hnonempty, hstorable⟩, hall⟩⟩
    rw [List.map_cons, List.map_cons, hencoded, hpayloads]

theorem framedSize_le {payloads : List Bytes} {bound : Nat}
    (h : ∀ raw ∈ payloads, raw.length ≤ bound) :
    framedSize payloads ≤ payloads.length * (4 + bound) := by
  refine (List.sum_le_card_nsmul _ (4 + bound) ?_).trans ?_
  · intro n hn
    obtain ⟨raw, hraw, rfl⟩ := List.mem_map.mp hn
    exact Nat.add_le_add_left (h raw (List.mem_filter.mp hraw).1) 4
  · rw [List.length_map, smul_eq_mul]
    exact Nat.mul_le_mul_right _ (List.length_filter_le _ _)

/-- Every entry was written by a store, and no inbox has more than it may. -/
structure Filled (redis : Redis) : Prop where
  inbox : ∀ id, ∀ item ∈ redis.inbox id, Written item
  length : ∀ id, (redis.inbox id).length ≤ inboxMaxMessages
  claim : ∀ token claim, redis.claim token = some claim → ∀ item ∈ claim.messages, Written item

namespace Filled

variable {redis : Redis}

theorem empty : Filled .empty where
  inbox _ _ hitem := absurd hitem List.not_mem_nil
  length _ := Nat.zero_le _
  claim _ _ hclaim := nomatch hclaim

theorem setInbox (h : Filled redis) (inboxId : Bytes) {items : List Item}
    (hitems : ∀ item ∈ items, Written item) :
    Filled (redis.setInbox inboxId (items.take inboxMaxMessages)) := by
  refine ⟨?_, ?_, h.claim⟩
  · intro id item hitem
    rw [inbox_setInbox] at hitem
    split at hitem
    · exact hitems item (List.mem_of_mem_take hitem)
    · exact h.inbox id item hitem
  · intro id
    rw [inbox_setInbox]
    split
    · exact List.length_take_le _ _
    · exact h.length id

theorem claimInbox (h : Filled redis) (inboxId token : Bytes) (deadline : Nat) :
    Filled (redis.claimInbox inboxId token deadline).1 := by
  refine ⟨?_, ?_, ?_⟩
  · intro id item hitem
    rw [inbox_claimInbox] at hitem
    split at hitem
    · exact absurd hitem List.not_mem_nil
    · exact h.inbox id item hitem
  · intro id
    rw [inbox_claimInbox]
    split
    · exact Nat.zero_le _
    · exact h.length id
  · intro other claim hother
    rw [claim_claimInbox] at hother
    split at hother
    · cases hother
      exact h.inbox inboxId
    · exact h.claim other claim hother

theorem dropClaim (h : Filled redis) (token : Bytes) : Filled (redis.dropClaim token) :=
  ⟨h.inbox, h.length, fun other claim hother => h.claim other claim (claim_of_dropClaim hother)⟩

theorem restoreClaim (h : Filled redis) (token : Bytes) : Filled (redis.restoreClaim token) := by
  have hclaims : ∀ other claim, (redis.restoreClaim token).claim other = some claim →
      ∀ item ∈ claim.messages, Written item :=
    fun other claim hother => h.claim other claim (claim_of_restoreClaim hother)
  cases hclaim : redis.claim token with
  | none =>
    refine ⟨?_, ?_, hclaims⟩
    · intro id
      rw [inbox_restoreClaim_none hclaim]
      exact h.inbox id
    · intro id
      rw [inbox_restoreClaim_none hclaim]
      exact h.length id
  | some claim =>
    have hitems : ∀ item ∈ claim.messages ++ redis.inbox claim.inboxId, Written item :=
      List.forall_mem_append.mpr ⟨h.claim token claim hclaim, h.inbox claim.inboxId⟩
    have hset := h.setInbox claim.inboxId hitems
    have hsame : ∀ id, (redis.restoreClaim token).inbox id = (redis.setInbox claim.inboxId
        ((claim.messages ++ redis.inbox claim.inboxId).take inboxMaxMessages)).inbox id := by
      intro id
      rw [inbox_restoreClaim_take id hclaim, inbox_setInbox]
    refine ⟨?_, ?_, hclaims⟩
    · intro id
      rw [hsame]
      exact hset.inbox id
    · intro id
      rw [hsame]
      exact hset.length id

theorem recover (h : Filled redis) (tokens : List Bytes) :
    Filled (tokens.foldl Redis.restoreClaim redis) := by
  induction tokens generalizing redis with
  | nil => exact h
  | cons token rest ih => exact ih (h.restoreClaim token)

theorem step {E : Ed25519} {hmac : HmacSha256} {signer : ServerSigner} {server server' : Server}
    {a : InboxAction} (h : Filled server.redis) (hstores : StoresArrived a)
    (hstep : server.step E hmac signer a = some server') : Filled server'.redis := by
  cases a with
  | store inboxId payload =>
    cases hstep
    exact h.setInbox inboxId
      (List.forall_mem_cons.mpr ⟨⟨payload, hstores.1, hstores.2, rfl⟩, h.inbox inboxId⟩)
  | fetch inboxId timestamp =>
    cases hstep
    exact h.claimInbox inboxId _ _
  | ack inboxId token now =>
    rcases step_ack hstep with rfl | rfl
    · exact h
    · exact h.dropClaim token
  | recover now =>
    cases hstep
    exact h.recover _

theorem payloads (h : Filled redis) (inboxId : Bytes) :
    ∃ payloads : List Bytes, (redis.inbox inboxId).map Item.encoded = payloads.map hexEncode ∧
      (∀ raw ∈ payloads, raw ≠ []) ∧ framedSize payloads < 2 ^ 32 := by
  obtain ⟨payloads, hencoded, hlength, hwritten⟩ := exists_payloads (h.inbox inboxId)
  refine ⟨payloads, hencoded, fun raw hraw => (hwritten raw hraw).1, ?_⟩
  have hbound := framedSize_le fun raw hraw => (hwritten raw hraw).2.length_le
  have hmax := h.length inboxId
  rw [inboxMaxMessages, ← hlength] at hmax
  omega

end Filled

/-- **From the inbox to the client.** In every run whose stores are payloads that arrived, the client
walks through exactly the payloads of the list that a fetch returns, in its order; and so it does for
any list whose lengths fit the format. Whatever the messages field is, the loop ends, and no read of
it is out of range. -/
theorem inbox_framing_exact (E : Ed25519) (hmac : HmacSha256) (signer : ServerSigner) :
    (∀ server, Lib.Run (Server.step E hmac signer) (fun _ a => StoresArrived a) Server.start
        server → ∀ inboxId timestamp, ∃ payloads inbox,
      (server.redis.inbox inboxId).map Item.encoded = payloads.map hexEncode ∧
      dispatchInbox (handleInboxFetch E hmac signer server.redis inboxId timestamp).2 =
        some inbox ∧
      Client.handleInboxMessages inbox.messages = payloads) ∧
    (∀ (redis : Redis) inboxId timestamp payloads,
      (redis.inbox inboxId).map Item.encoded = payloads.map hexEncode →
      (∀ raw ∈ payloads, raw ≠ []) → framedSize payloads < 2 ^ 32 →
      ∃ inbox, dispatchInbox (handleInboxFetch E hmac signer redis inboxId timestamp).2 =
          some inbox ∧
        Client.handleInboxMessages inbox.messages = payloads) ∧
    ∀ messages rounds, messages.length < rounds →
      Client.walkMessages? messages rounds 0 = some (Client.handleInboxMessages messages) := by
  refine ⟨?_, ?_, fun messages rounds => Client.handleInboxMessages?_eq⟩
  · intro server run inboxId timestamp
    have hfilled : Filled server.redis :=
      run.invariant (I := fun server => Filled server.redis) Filled.empty
        fun h hstores hstep => h.step hstores hstep
    obtain ⟨payloads, hencoded, hnonempty, hsize⟩ := hfilled.payloads inboxId
    obtain ⟨inbox, hinbox, hwalk⟩ := handleInboxMessages_fetched E hmac signer server.redis inboxId
      timestamp hencoded hnonempty hsize
    exact ⟨payloads, inbox, hencoded, hinbox, hwalk⟩
  · intro redis inboxId timestamp payloads hencoded hnonempty hsize
    exact handleInboxMessages_fetched E hmac signer redis inboxId timestamp hencoded hnonempty hsize

/-- Three zeros are stored and fetched. -/
theorem inbox_framing_exact_zeros :
    ∃ server, Lib.Run (Server.step .digest .digest ⟨.ofNat 1, .ofNat 2⟩)
        (fun _ a => StoresArrived a) Server.start server ∧
      (∃ payloads inbox,
        (server.redis.inbox (ascii "id")).map Item.encoded = payloads.map hexEncode ∧
        dispatchInbox (handleInboxFetch .digest .digest ⟨.ofNat 1, .ofNat 2⟩ server.redis
          (ascii "id") 1000).2 = some inbox ∧
        Client.handleInboxMessages inbox.messages = payloads) ∧
      (∃ inbox, dispatchInbox (handleInboxFetch .digest .digest ⟨.ofNat 1, .ofNat 2⟩ server.redis
          (ascii "id") 1000).2 = some inbox ∧
        Client.handleInboxMessages inbox.messages = [[0, 0, 0]]) ∧
      Client.walkMessages? [3, 0, 0, 0, 1] 6 0 =
        some (Client.handleInboxMessages [3, 0, 0, 0, 1]) := by
  have harrived : StoresArrived (.store (ascii "id") [0, 0, 0]) :=
    ⟨by decide, .ofInboxStore (largeArrival 3 (by decide))⟩
  have hrun := (Lib.Run.refl : Lib.Run (Server.step .digest .digest ⟨.ofNat 1, .ofNat 2⟩)
    (fun _ a => StoresArrived a) Server.start Server.start).tail harrived rfl
  obtain ⟨hruns, hlists, hloop⟩ := inbox_framing_exact .digest .digest ⟨.ofNat 1, .ofNat 2⟩
  refine ⟨_, hrun, hruns _ hrun (ascii "id") 1000, ?_, hloop _ 6 (by decide)⟩
  exact hlists _ (ascii "id") 1000 [[0, 0, 0]] (by decide) (by decide) (by decide)

end Cypher.Signaling.Verify
