import Cypher.Proto.Codec

/-!
# The protocol schema (`proto/schema/core.p2p`)

All constructors of the schema, in its order, and the struct of `inbox.messages`, which the signed
inbox responses wrap. `dispatchInbox_eq` is what `dispatch` does with a byte string that is to be
read as `InboxMessages`.
-/

namespace Cypher.Proto

def sessionInit : Constructor :=
  ⟨0xA1000001, "session.init", [⟨"client_id", .bytes⟩, ⟨"nonce", .bytes⟩]⟩

def sessionAck : Constructor :=
  ⟨0xA1000002, "session.ack", [⟨"server_nonce", .bytes⟩, ⟨"timestamp", .long⟩]⟩

def signalRequestPeer : Constructor :=
  ⟨0xB1000001, "signal.requestPeer", [⟨"link_id", .string⟩]⟩

def signalIceCandidate : Constructor :=
  ⟨0xB1000002, "signal.iceCandidate", [⟨"candidate", .string⟩, ⟨"peer_id", .bytes⟩]⟩

def signalOffer : Constructor :=
  ⟨0xB1000003, "signal.offer", [⟨"sdp", .bytes⟩, ⟨"peer_id", .bytes⟩]⟩

def signalAnswer : Constructor :=
  ⟨0xB1000004, "signal.answer", [⟨"sdp", .bytes⟩, ⟨"peer_id", .bytes⟩]⟩

def keysUploadPrekeys : Constructor :=
  ⟨0xB2000001, "keys.uploadPrekeys",
    [⟨"identity_key", .bytes⟩, ⟨"signed_prekey", .bytes⟩, ⟨"inbox_id", .bytes⟩]⟩

def keysGetPrekeys : Constructor :=
  ⟨0xB2000002, "keys.getPrekeys", [⟨"peer_id", .bytes⟩]⟩

def chatSend : Constructor :=
  ⟨0xC1000001, "chat.send",
    [⟨"peer_id", .bytes⟩, ⟨"ciphertext", .bytes⟩, ⟨"ratchet_key", .bytes⟩, ⟨"msg_no", .int⟩]⟩

def chatReceive : Constructor :=
  ⟨0xC1000002, "chat.receive", []⟩

def fileOffer : Constructor :=
  ⟨0xD1000001, "file.offer",
    [⟨"peer_id", .bytes⟩, ⟨"file_id", .bytes⟩, ⟨"name", .string⟩, ⟨"size", .long⟩,
      ⟨"chunks", .int⟩, ⟨"hash", .bytes⟩, ⟨"compressed", .int⟩]⟩

def fileAccept : Constructor :=
  ⟨0xD1000002, "file.accept", [⟨"peer_id", .bytes⟩, ⟨"file_id", .bytes⟩]⟩

def fileChunk : Constructor :=
  ⟨0xD1000003, "file.chunk",
    [⟨"peer_id", .bytes⟩, ⟨"file_id", .bytes⟩, ⟨"index", .int⟩, ⟨"data", .bytes⟩,
      ⟨"hash", .bytes⟩, ⟨"ratchet_key", .bytes⟩, ⟨"msg_no", .int⟩]⟩

def fileComplete : Constructor :=
  ⟨0xD1000004, "file.complete", [⟨"peer_id", .bytes⟩, ⟨"file_id", .bytes⟩]⟩

def fileChunkAck : Constructor :=
  ⟨0xD1000005, "file.chunkAck", [⟨"peer_id", .bytes⟩, ⟨"file_id", .bytes⟩, ⟨"index", .int⟩]⟩

def fileResume : Constructor :=
  ⟨0xD1000006, "file.resume", [⟨"peer_id", .bytes⟩, ⟨"file_id", .bytes⟩, ⟨"missing", .bytes⟩]⟩

def inboxStore : Constructor :=
  ⟨0xC2000001, "inbox.store", [⟨"inbox_id", .bytes⟩, ⟨"ciphertext", .bytes⟩]⟩

def inboxFetch : Constructor :=
  ⟨0xC2000002, "inbox.fetch", [⟨"inbox_id", .bytes⟩]⟩

def inboxMessages : Constructor :=
  ⟨0xC2000003, "inbox.messages", [⟨"messages", .bytes⟩, ⟨"count", .int⟩]⟩

def inboxAck : Constructor :=
  ⟨0xC2000005, "inbox.ack", [⟨"inbox_id", .bytes⟩, ⟨"claim_token", .bytes⟩]⟩

def transportBootstrap : Constructor :=
  ⟨0xC3000001, "transport.bootstrap", []⟩

def transportBootstrapInfo : Constructor :=
  ⟨0xC3000002, "transport.bootstrapInfo",
    [⟨"relay_addr", .string⟩, ⟨"relay_public_key", .bytes⟩, ⟨"inbox_verifying_key", .bytes⟩,
      ⟨"capabilities", .int⟩]⟩

def coreP2p : List Constructor :=
  [ sessionInit, sessionAck, signalRequestPeer, signalIceCandidate, signalOffer, signalAnswer,
    keysUploadPrekeys, keysGetPrekeys, chatSend, chatReceive, fileOffer, fileAccept, fileChunk,
    fileComplete, fileChunkAck, fileResume, inboxStore, inboxFetch, inboxMessages, inboxAck,
    transportBootstrap, transportBootstrapInfo ]

structure InboxMessages where
  messages : Bytes
  count : UInt32
  deriving DecidableEq

def InboxMessages.serialize (m : InboxMessages) : Bytes :=
  Proto.serialize inboxMessages (m.messages, m.count, ())

def Message.inboxMessages? (m : Message) : Option InboxMessages :=
  (m.as? inboxMessages).map fun (r : Record inboxMessages.fields) => ⟨r.1, r.2.1⟩

/-- `Ok(Message::InboxMessages(m))` of `dispatch`. -/
def dispatchInbox (data : Bytes) : Option InboxMessages :=
  match dispatch coreP2p data with
  | .ok m => m.inboxMessages?
  | .error _ => none

/-! ## Reading `InboxMessages` -/

theorem find_inboxMessages :
    coreP2p.find? (fun c => c.id.toNat == 0xC2000003) = some inboxMessages := by
  decide +kernel

theorem dispatchInbox_of_id_ne {data : Bytes} (h : Lib.leNat (slice data 0 4) ≠ 0xC2000003) :
    dispatchInbox data = none := by
  unfold dispatchInbox dispatch
  split
  · next m heq =>
    split at heq
    · cases heq
    · dsimp only at heq
      split at heq
      · cases heq
      · next c hfind =>
        split at heq
        · cases heq
        · simp only [Except.ok.injEq] at heq
          subst heq
          have hid := List.find?_some hfind
          rw [Message.inboxMessages?, Message.as?, dif_neg, Option.map_none]
          rintro rfl
          simp only [beq_iff_eq] at hid
          exact h (by rw [← hid]; decide)
  · rfl

theorem dispatchInbox_of_id {data : Bytes} (hlen : 4 ≤ data.length)
    (hid : Lib.leNat (slice data 0 4) = 0xC2000003) :
    dispatchInbox data =
      match deserializeFields data inboxMessages.fields 4 with
      | .ok r => some ⟨r.1, r.2.1⟩
      | .error _ => none := by
  have hcid : inboxMessages.id.toNat = 0xC2000003 := by decide
  unfold dispatchInbox dispatch deserialize
  simp only [if_neg (Nat.not_lt.mpr hlen), hid, find_inboxMessages, hcid, ne_eq, not_true_eq_false,
    if_false]
  cases deserializeFields data inboxMessages.fields 4 with
  | error err => rfl
  | ok r => rfl

/-- The layout `dispatch` reads: length, data and padding, then the count. What follows is
ignored. -/
theorem dispatchInbox_eq (data : Bytes) :
    dispatchInbox data =
      if data.length < 8 ∨ Lib.leNat (slice data 0 4) ≠ 0xC2000003 then none
      else
        let len := Lib.leNat (slice data 4 8)
        let offset := 8 + len + padding len
        if data.length < offset + 4 then none
        else some ⟨slice data 8 (8 + len),
          UInt32.ofNat (Lib.leNat (slice data offset (offset + 4)))⟩ := by
  by_cases hid : Lib.leNat (slice data 0 4) ≠ 0xC2000003
  · rw [if_pos (Or.inr hid), dispatchInbox_of_id_ne hid]
  · rw [not_not] at hid
    by_cases hlen : data.length < 4
    · rw [if_pos (Or.inl (by omega)), dispatchInbox, dispatch, if_pos hlen]
    · rw [dispatchInbox_of_id (by omega) hid]
      simp only [hid, ne_eq, not_true_eq_false, or_false, deserializeFields, inboxMessages,
        deserializeField, decodeBytes]
      by_cases h8 : data.length < 8
      · have hlen8 : 4 + 4 > data.length := by omega
        simp only [if_pos hlen8]
      · have hlen8 : ¬ 4 + 4 > data.length := by omega
        have hbuf : ∀ v, bufferAfter ⟨"messages", .bytes⟩ v data = data :=
          fun v => bufferAfter_of_name_ne (by decide) v data
        simp only [if_neg hlen8, Nat.reduceAdd, hbuf]
        generalize Lib.leNat (slice data 4 8) = len
        by_cases hdata : 8 + len > data.length
        · have hcount : data.length < 8 + len + padding len + 4 := by omega
          simp only [if_pos hdata, if_pos hcount]
        · by_cases hcount : data.length < 8 + len + padding len + 4
          · simp only [if_neg hdata, if_pos (show _ > data.length from hcount)]
          · simp only [if_neg hdata, if_neg (show ¬ _ > data.length from hcount)]

/-! ## Serialized messages -/

namespace InboxMessages

variable (m : InboxMessages)

theorem serialize_eq :
    m.serialize = Lib.leBytes 4 0xC2000003 ++ (Lib.leBytes 4 m.messages.length ++
      (m.messages ++ (List.replicate (padding m.messages.length) 0 ++
        Lib.leBytes 4 m.count.toNat))) := by
  have hcid : UInt32.toNat 0xC2000003 = 0xC2000003 := by decide
  simp only [serialize, Proto.serialize, inboxMessages, serializeFields, serializeField,
    encodeBytes, List.append_assoc, List.append_nil, hcid]

theorem serialize_length :
    m.serialize.length = 8 + m.messages.length + padding m.messages.length + 4 := by
  simp only [serialize_eq, List.length_append, Lib.leBytes_length, List.length_replicate]
  omega

variable {m}

theorem slice_header (data : Bytes) (h8 : 8 ≤ data.length)
    (hpre : data <+: m.serialize ∨ m.serialize <+: data) :
    Lib.leNat (slice data 0 4) = 0xC2000003 ∧
      slice data 4 8 = Lib.leBytes 4 m.messages.length := by
  have htake : data.take 8 = m.serialize.take 8 := by
    have hlen := m.serialize_length
    rcases hpre with ⟨rest, hrest⟩ | ⟨rest, hrest⟩
    · rw [← hrest, List.take_append_of_le_length h8]
    · rw [← hrest, List.take_append_of_le_length (by omega)]
  have hhead : m.serialize.take 8 =
      Lib.leBytes 4 0xC2000003 ++ Lib.leBytes 4 m.messages.length := by
    rw [serialize_eq, ← List.append_assoc]
    exact List.take_left' (by simp)
  have h0 : slice data 0 4 = (data.take 8).take 4 := by simp [slice, List.take_take]
  have h4 : slice data 4 8 = (data.take 8).drop 4 := by simp [slice, List.drop_take]
  rw [h0, h4, htake, hhead, List.take_left' (by simp), List.drop_left' (by simp)]
  exact ⟨Lib.leNat_leBytes (by norm_num), rfl⟩

theorem leNat_length (hm : m.messages.length < 2 ^ 32) :
    Lib.leNat (Lib.leBytes 4 m.messages.length) = m.messages.length :=
  Lib.leNat_leBytes (by norm_num; omega)

/-- `dispatch` reads a serialized message back, whatever follows it. -/
theorem dispatchInbox_serialize_append (hm : m.messages.length < 2 ^ 32) (rest : Bytes) :
    dispatchInbox (m.serialize ++ rest) = some m := by
  have hlen := m.serialize_length
  have htotal : (m.serialize ++ rest).length = m.serialize.length + rest.length :=
    List.length_append
  obtain ⟨hid, hsize⟩ := slice_header (m.serialize ++ rest) (by omega)
    (Or.inr (List.prefix_append _ _))
  have hmessages : slice (m.serialize ++ rest) 8 (8 + m.messages.length) = m.messages := by
    have hdrop : (m.serialize ++ rest).drop 8 = m.messages ++
        (List.replicate (padding m.messages.length) 0 ++ (Lib.leBytes 4 m.count.toNat ++ rest)) := by
      rw [serialize_eq]
      simp only [List.append_assoc]
      rw [← List.append_assoc]
      exact List.drop_left' (by simp)
    rw [slice, hdrop, Nat.add_sub_cancel_left, List.take_left]
  have hcount : slice (m.serialize ++ rest) (8 + m.messages.length + padding m.messages.length)
      (8 + m.messages.length + padding m.messages.length + 4) = Lib.leBytes 4 m.count.toNat := by
    have hdrop : (m.serialize ++ rest).drop (8 + m.messages.length + padding m.messages.length) =
        Lib.leBytes 4 m.count.toNat ++ rest := by
      rw [serialize_eq]
      simp only [← List.append_assoc]
      rw [List.append_assoc _ (Lib.leBytes 4 m.count.toNat)]
      exact List.drop_left' (by simp; omega)
    rw [slice, hdrop, Nat.add_sub_cancel_left, List.take_left' (by simp)]
  have hvalue : Lib.leNat (Lib.leBytes 4 m.count.toNat) = m.count.toNat :=
    Lib.leNat_leBytes (by have := m.count.toNat_lt; norm_num; omega)
  rw [dispatchInbox_eq, if_neg (by rw [hid]; omega)]
  simp only [hsize, leNat_length hm]
  rw [if_neg (by omega), hmessages, hcount, hvalue, UInt32.ofNat_toNat]

theorem dispatchInbox_serialize (hm : m.messages.length < 2 ^ 32) :
    dispatchInbox m.serialize = some m := by
  simpa using dispatchInbox_serialize_append hm []

/-- No proper prefix of a serialized message is one. -/
theorem dispatchInbox_serialize_take (hm : m.messages.length < 2 ^ 32) {k : Nat}
    (hk : k < m.serialize.length) : dispatchInbox (m.serialize.take k) = none := by
  have hlen := m.serialize_length
  have htake : (m.serialize.take k).length = k := by
    rw [List.length_take]
    omega
  by_cases h8 : k < 8
  · rw [dispatchInbox_eq, if_pos (Or.inl (by omega))]
  · obtain ⟨hid, hsize⟩ := slice_header (m.serialize.take k) (by omega)
      (Or.inl (List.take_prefix _ _))
    rw [dispatchInbox_eq, if_neg (by rw [hid]; omega)]
    simp only [hsize, leNat_length hm]
    rw [if_pos (by omega)]

end InboxMessages

end Cypher.Proto
