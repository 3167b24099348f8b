import Cypher.Lib.Lists
import Cypher.Proto.Verify.RoundTrip
import Cypher.Signaling.Verify.Order
import Cypher.Transport.Verify.Stream

/-!
# Whether an inbox can be fetched

What was stored in up to a hundred frames comes back in one. The reply to a fetch is 125 bytes longer
as a frame than the messages behind their lengths, padded to a multiple of four, so it is sent exactly
if these take at most 1048448 bytes (`inbox_fetchable_iff`). Three messages may take more.
-/

namespace Cypher.Signaling.Verify

open Proto

/-- An `InboxStore` message in a frame that `FrameCodec::decode` accepts. -/
structure StoreArrival where
  src : Bytes
  frame : Transport.Frame
  rest : Bytes
  inboxId : Bytes
  ciphertext : Bytes
  decoded : Transport.decode src = .ok (some (frame, rest))
  dispatched : dispatch coreP2p frame.payload = .ok ⟨inboxStore, (inboxId, ciphertext, ())⟩

/-- `handle_inbox_store` for one message after the other. -/
def storeAll : Redis → (number : Nat) → List StoreArrival → Redis
  | redis, _, [] => redis
  | redis, number, arrival :: rest =>
    storeAll (redis.storeInboxPayload arrival.inboxId ⟨number, hexEncode arrival.ciphertext⟩)
      (number + 1) rest

/-- The messages that an inbox has after them, newest first. -/
def kept (arrivals : List StoreArrival) (inboxId : Bytes) : List Bytes :=
  ((arrivals.filter (·.inboxId = inboxId)).map StoreArrival.ciphertext).reverse.take inboxMaxMessages

/-- The bytes that the non-empty ones take behind their lengths. -/
def framedSize (payloads : List Bytes) : Nat :=
  ((payloads.filter fun raw => !raw.isEmpty).map fun raw => 4 + raw.length).sum

/-! ## What is stored -/

theorem payloads_storeAll (redis : Redis) (number : Nat) (arrivals : List StoreArrival)
    (inboxId : Bytes) (hlength : (redis.inbox inboxId).length ≤ inboxMaxMessages) :
    ((storeAll redis number arrivals).inbox inboxId).map payloadOf =
      (((arrivals.filter (·.inboxId = inboxId)).map StoreArrival.ciphertext).reverse ++
        (redis.inbox inboxId).map payloadOf).take inboxMaxMessages := by
  induction arrivals generalizing redis number with
  | nil =>
    rw [storeAll, List.filter_nil, List.map_nil, List.reverse_nil, List.nil_append,
      List.take_of_length_le (by rw [List.length_map]; exact hlength)]
  | cons arrival rest ih =>
    rw [storeAll, List.filter_cons]
    by_cases hid : arrival.inboxId = inboxId
    · have hinbox : (redis.storeInboxPayload arrival.inboxId
          ⟨number, hexEncode arrival.ciphertext⟩).inbox inboxId =
            (⟨number, hexEncode arrival.ciphertext⟩ :: redis.inbox inboxId).take
              inboxMaxMessages := by
        rw [Redis.storeInboxPayload, inbox_setInbox, if_pos hid.symm, hid]
      have hpayload : payloadOf ⟨number, hexEncode arrival.ciphertext⟩ = arrival.ciphertext :=
        hexDecodeBytes_hexEncode _
      rw [ih _ _ (by rw [hinbox]; exact List.length_take_le _ _), hinbox,
        if_pos (decide_eq_true hid), List.map_cons, List.reverse_cons, List.map_take,
        Lib.take_append_take, List.map_cons, hpayload, List.append_assoc, List.singleton_append]
    · have hinbox : (redis.storeInboxPayload arrival.inboxId
          ⟨number, hexEncode arrival.ciphertext⟩).inbox inboxId = redis.inbox inboxId := by
        rw [Redis.storeInboxPayload, inbox_setInbox, if_neg (Ne.symm hid)]
      rw [ih _ _ (by rw [hinbox]; exact hlength), hinbox,
        if_neg (by rw [decide_eq_true_iff]; exact hid)]

/-! ## The size of the reply -/

theorem length_responseBlob (items : List Item) :
    (responseBlob items).length = framedSize (items.map payloadOf) := by
  rw [responseBlob, framedSize, List.length_flatMap, responsePayloads]
  refine congrArg List.sum (List.map_congr_left fun raw _ => ?_)
  rw [List.length_append, Lib.leBytes_length]

theorem length_inboxReply (E : Ed25519) (hmac : HmacSha256) (signer : ServerSigner)
    (messagesBlob : Bytes) (count : UInt32) (inboxId : Bytes) (timestamp : UInt64) :
    (inboxReply E hmac signer messagesBlob count inboxId timestamp).length =
      messagesBlob.length + padding messagesBlob.length + 116 := by
  rw [inboxReply, List.length_append, List.length_append, InboxMessages.serialize_length,
    ServerSigner.generateClaimToken_length,
    (signer.signInboxResponse E messagesBlob count inboxId timestamp).property]
  dsimp only
  omega

theorem encode_isOk_iff (item : Transport.Frame) (dst : Bytes) :
    (∃ out, Transport.encode item dst = .ok out) ↔
      Transport.headerSize + item.payload.length ≤ Transport.maxFrameSize := by
  constructor
  · rintro ⟨out, hout⟩
    exact Transport.accepted_of_encode hout
  · intro haccepted
    exact ⟨_, Transport.encode_of_accepted haccepted dst⟩

section

variable (E : Ed25519) (hmac : HmacSha256) (signer : ServerSigner)

theorem length_reply (arrivals : List StoreArrival) (inboxId : Bytes) (timestamp : UInt64) :
    (handleInboxFetch E hmac signer (storeAll .empty 0 arrivals) inboxId timestamp).2.length =
      framedSize (kept arrivals inboxId) + padding (framedSize (kept arrivals inboxId)) + 116 := by
  have hpayloads : ((storeAll .empty 0 arrivals).inbox inboxId).map payloadOf =
      kept arrivals inboxId := by
    rw [payloads_storeAll _ _ _ _ (Nat.zero_le _)]
    exact congrArg (List.take inboxMaxMessages) (List.append_nil _)
  have hreply : (handleInboxFetch E hmac signer (storeAll .empty 0 arrivals) inboxId timestamp).2 =
      inboxReply E hmac signer (responseBlob ((storeAll .empty 0 arrivals).inbox inboxId))
        (responseCount ((storeAll .empty 0 arrivals).inbox inboxId)) inboxId timestamp := rfl
  rw [hreply, length_inboxReply, length_responseBlob, hpayloads]

/-- **Whether an inbox can be fetched.** Whatever `InboxStore` messages have arrived, each in a frame
that `FrameCodec::decode` accepts, the reply to a fetch is accepted by `FrameCodec::encode` exactly if
the kept messages with their lengths take at most 1048448 bytes. -/
theorem inbox_fetchable_iff (arrivals : List StoreArrival) (inboxId : Bytes) (timestamp : UInt64)
    (seqNo ack : UInt32) (flags : UInt8) (dst : Bytes) :
    (∃ out, Transport.encode ⟨seqNo, ack, flags,
        (handleInboxFetch E hmac signer (storeAll .empty 0 arrivals) inboxId timestamp).2⟩ dst =
          .ok out) ↔
      framedSize (kept arrivals inboxId) ≤ 1048448 := by
  rw [encode_isOk_iff, length_reply, padding, Transport.headerSize, Transport.maxFrameSize]
  omega

end

/-! ## Large messages -/

def largeStore (size : Nat) : Message :=
  ⟨inboxStore, (List.replicate 32 7, List.replicate size 0, ())⟩

theorem length_largeStore (size : Nat) :
    (largeStore size).serialize.length = 44 + size + padding size := by
  have hlayout : (largeStore size).serialize = Lib.leBytes 4 inboxStore.id.toNat ++
      (encodeBytes (List.replicate 32 7) ++ (encodeBytes (List.replicate size 0) ++ [])) := rfl
  rw [hlayout]
  simp only [encodeBytes, List.length_append, Lib.leBytes_length, List.length_replicate,
    List.length_nil, padding]
  omega

/-- It arrives in a frame of its own if it has at most 1048520 bytes. -/
def largeArrival (size : Nat) (hsize : size ≤ 1048520) : StoreArrival where
  src := Transport.frameBytes ⟨1, 0, 0, (largeStore size).serialize⟩ ++ []
  frame := ⟨1, 0, 0, (largeStore size).serialize⟩
  rest := []
  inboxId := List.replicate 32 7
  ciphertext := List.replicate size 0
  decoded := by
    refine Transport.decode_frameBytes ?_ []
    rw [Transport.Accepted, length_largeStore, padding, Transport.headerSize,
      Transport.maxFrameSize]
    omega
  dispatched := by
    have hmem : inboxStore ∈ coreP2p := by decide
    have hshort : (largeStore size).Short := by
      refine ⟨?_, ?_, trivial⟩
      · rw [FieldType.Short, List.length_replicate]
        omega
      · rw [FieldType.Short, List.length_replicate]
        omega
    exact dispatch_of_fits coreP2p_ids coreP2p_hygienic hmem hshort (fits_serialize (largeStore size))

theorem kept_largeArrivals {n size : Nat} (hn : n ≤ inboxMaxMessages) (hsize : size ≤ 1048520) :
    kept (List.replicate n (largeArrival size hsize)) (List.replicate 32 7) =
      List.replicate n (List.replicate size 0) := by
  have hall : (List.replicate n (largeArrival size hsize)).filter
      (·.inboxId = List.replicate 32 7) = List.replicate n (largeArrival size hsize) := by
    refine List.filter_eq_self.mpr fun arrival harrival => ?_
    rw [List.eq_of_mem_replicate harrival]
    exact decide_eq_true rfl
  rw [kept, hall, List.map_replicate, List.reverse_replicate, List.take_replicate,
    Nat.min_eq_right hn]
  rfl

theorem framedSize_replicate (n : Nat) {size : Nat} (hpos : 0 < size) :
    framedSize (List.replicate n (List.replicate size 0)) = n * (4 + size) := by
  have hall : (List.replicate n (List.replicate size (0 : UInt8))).filter (!·.isEmpty) =
      List.replicate n (List.replicate size 0) := by
    refine List.filter_eq_self.mpr fun raw hraw => ?_
    rw [List.eq_of_mem_replicate hraw, List.isEmpty_replicate, Bool.not_eq_true',
      decide_eq_false_iff_not]
    omega
  rw [framedSize, hall, List.map_replicate, List.sum_replicate_nat, List.length_replicate]

theorem not_fetchable_largeArrivals {n size : Nat} (hn : n ≤ inboxMaxMessages)
    (hsize : size ≤ 1048520) (hpos : 0 < size) (hlarge : 1048448 < n * (4 + size))
    (timestamp : UInt64) :
    ¬ ∃ out, Transport.encode ⟨0, 0, 0, (handleInboxFetch .digest .digest ⟨.ofNat 1, .ofNat 2⟩
      (storeAll .empty 0 (List.replicate n (largeArrival size hsize))) (List.replicate 32 7)
        timestamp).2⟩ [] = .ok out := by
  rw [encode_isOk_iff, length_reply, kept_largeArrivals hn, framedSize_replicate n hpos, padding,
    Transport.headerSize, Transport.maxFrameSize]
  omega

/-- Three messages of 350000 bytes can be stored and not fetched. -/
theorem inbox_not_fetchable :
    kept (List.replicate 3 (largeArrival 350000 (by decide))) (List.replicate 32 7) =
        List.replicate 3 (List.replicate 350000 0) ∧
      ¬ ∃ out, Transport.encode ⟨0, 0, 0, (handleInboxFetch .digest .digest ⟨.ofNat 1, .ofNat 2⟩
        (storeAll .empty 0 (List.replicate 3 (largeArrival 350000 (by decide))))
          (List.replicate 32 7) 1000).2⟩ [] = .ok out :=
  -- number and size stay variables in the lemmas: nothing here computes with a list of that length
  ⟨kept_largeArrivals (by decide) _,
    not_fetchable_largeArrivals (by decide) _ (by decide) (by decide) 1000⟩

end Cypher.Signaling.Verify
