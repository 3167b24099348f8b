import Cypher.Onion.Bootstrap
import Cypher.Signaling.Inbox

/-!
# Which inbox responses the client takes for signed

`parse` and `verify` accept a response without a trailer as unsigned, whatever the bootstrap
advertised. `verified_signed_iff` says for which byte strings acceptance implies a signature. What
the server sends is read back exactly as long as its blob is shorter than the `u32` of its length.
-/

namespace Cypher.Onion.Verify

open Proto Signaling

/-- The last 104 bytes stand behind a payload that dispatches to `InboxMessages`. -/
def Trailed (raw : Bytes) : Prop :=
  trailerLen < raw.length ∧ (dispatchInbox (raw.take (raw.length - trailerLen))).isSome = true

/-- `raw` ends in a claim token and a signature, valid under `key`, of what the response's payload
holds for this inbox at the token's timestamp. -/
def CarriesSignature (E : Ed25519) (key : Array32) (inboxId raw : Bytes)
    (response : SignedInboxResponse) : Prop :=
  ∃ token sig inbox timestamp,
    raw = response.protoPayload ++ token ++ sig.val ∧
    claimTokenTimestamp token = .ok timestamp ∧
    dispatchInbox response.protoPayload = some inbox ∧
    E.verify key (signedData inbox.messages inbox.count inboxId timestamp) sig = .ok ()

theorem CarriesSignature.length_lt {E : Ed25519} {key : Array32} {inboxId raw : Bytes}
    {response : SignedInboxResponse} (h : CarriesSignature E key inboxId raw response) :
    response.protoPayload.length < raw.length := by
  obtain ⟨token, sig, _, _, hsplit, -⟩ := h
  have hlength := congrArg List.length hsplit
  simp only [List.length_append, sig.property] at hlength
  omega

section Parse

variable {raw : Bytes}

theorem parseSigned_of_not_trailed (h : ¬ Trailed raw) :
    SignedInboxResponse.parseSigned raw = none := by
  rw [SignedInboxResponse.parseSigned]
  split
  · next hlen =>
    dsimp only
    rw [if_neg fun hsome => h ⟨hlen, hsome⟩]
  · rfl

theorem parseSigned_of_trailed (h : Trailed raw) :
    ∃ token sig, SignedInboxResponse.parseSigned raw =
        some ⟨raw.take (raw.length - trailerLen), some token, some sig⟩ ∧
      raw = raw.take (raw.length - trailerLen) ++ token ++ sig.val := by
  have hlen : raw.length > trailerLen := h.1
  rw [SignedInboxResponse.parseSigned, dif_pos hlen]
  dsimp only
  rw [if_pos h.2]
  refine ⟨_, _, rfl, ?_⟩
  dsimp only
  rw [slice, Nat.add_sub_cancel_left, ← List.drop_drop, List.append_assoc, List.take_append_drop,
    List.take_append_drop]

theorem parse_of_not_trailed (h : ¬ Trailed raw) :
    SignedInboxResponse.parse raw =
      if (dispatchInbox raw).isSome then .ok ⟨raw, none, none⟩
      else .error (.protocol "invalid inbox response payload") := by
  rw [SignedInboxResponse.parse, parseSigned_of_not_trailed h]

end Parse

theorem verify_signed {E : Ed25519} {response : SignedInboxResponse} {key : Array32}
    {inboxId token : Bytes} (htoken : response.claimToken = some token)
    (h : response.verify E key inboxId = .ok ()) :
    ∃ sig inbox timestamp, response.serverSig = some sig ∧
      claimTokenTimestamp token = .ok timestamp ∧
      dispatchInbox response.protoPayload = some inbox ∧
      E.verify key (signedData inbox.messages inbox.count inboxId timestamp) sig = .ok () := by
  rw [SignedInboxResponse.verify, htoken] at h
  dsimp only at h
  cases hsig : response.serverSig with
  | none =>
    rw [hsig] at h
    cases h
  | some sig =>
    cases htime : claimTokenTimestamp token with
    | error err =>
      rw [hsig, htime] at h
      cases h
    | ok timestamp =>
      cases hdispatch : dispatch coreP2p response.protoPayload with
      | error err =>
        rw [hsig, htime, hdispatch] at h
        cases h
      | ok m =>
        cases hinbox : m.inboxMessages? with
        | none =>
          rw [hsig, htime, hdispatch] at h
          simp only [hinbox] at h
          cases h
        | some inbox =>
          rw [hsig, htime, hdispatch] at h
          simp only [hinbox] at h
          refine ⟨sig, inbox, timestamp, rfl, rfl, ?_, ?_⟩
          · rw [dispatchInbox, hdispatch]
            exact hinbox
          · split at h
            · cases h
            · next hverified => exact hverified

/-- **Downgrade.** Acceptance of `raw` implies a valid signature exactly when `raw` has a trailer
behind an `InboxMessages` payload, or is no `InboxMessages` itself. -/
theorem verified_signed_iff (E : Ed25519) (service : AnonymousTransportService)
    (raw inboxId : Bytes) :
    (∀ response, SignedInboxResponse.parse raw = .ok response →
      response.verify E service.bootstrap.inboxVerifyingKey inboxId = .ok () →
      CarriesSignature E service.bootstrap.inboxVerifyingKey inboxId raw response) ↔
    Trailed raw ∨ dispatchInbox raw = none := by
  by_cases htrailed : Trailed raw
  · refine ⟨fun _ => Or.inl htrailed, fun _ response hparse hverify => ?_⟩
    obtain ⟨token, sig, hsigned, hraw⟩ := parseSigned_of_trailed htrailed
    rw [SignedInboxResponse.parse, hsigned, Except.ok.injEq] at hparse
    subst hparse
    obtain ⟨sig', inbox, timestamp, hsig, htime, hinbox, hvalid⟩ := verify_signed rfl hverify
    cases hsig
    exact ⟨token, sig, inbox, timestamp, hraw, htime, hinbox, hvalid⟩
  · rw [parse_of_not_trailed htrailed, or_iff_right htrailed]
    cases hraw : dispatchInbox raw with
    | none =>
      refine ⟨fun _ => rfl, fun _ response hparse => ?_⟩
      cases hparse
    | some inbox =>
      refine ⟨fun h => ?_, fun hnone => by cases hnone⟩
      exact absurd (h ⟨raw, none, none⟩ rfl rfl).length_lt (Nat.lt_irrefl _)

/-- A reply anyone can write. -/
def forgedReply : Bytes :=
  InboxMessages.serialize ⟨Lib.leBytes 4 6 ++ ascii "forged", 1⟩

theorem forgedReply_accepted (E : Ed25519) (service : AnonymousTransportService)
    (inboxId : Bytes) :
    ∃ response, SignedInboxResponse.parse forgedReply = .ok response ∧
      response.verify E service.bootstrap.inboxVerifyingKey inboxId = .ok () ∧
      ¬ CarriesSignature E service.bootstrap.inboxVerifyingKey inboxId forgedReply response := by
  refine ⟨⟨forgedReply, none, none⟩, by decide +kernel, rfl, ?_⟩
  exact fun h => absurd h.length_lt (Nat.lt_irrefl _)

theorem unsigned_accepted :
    ∃ service, AnonymousTransportService.new ⟨.ofNat 1, capabilitySignedInbox⟩ = .ok service ∧
      ∃ response, SignedInboxResponse.parse forgedReply = .ok response ∧
        response.verify .digest service.bootstrap.inboxVerifyingKey (ascii "inbox") = .ok () ∧
        ¬ CarriesSignature .digest service.bootstrap.inboxVerifyingKey (ascii "inbox") forgedReply
          response :=
  ⟨⟨⟨.ofNat 1, capabilitySignedInbox⟩, by decide⟩, rfl, forgedReply_accepted _ _ _⟩

/-! ## Server and client agree -/

section Agreement

variable {E : Ed25519} {hmac : HmacSha256} {signer : ServerSigner} {inboxId : Bytes}
  {timestamp : UInt64}

theorem claimTokenTimestamp_generateClaimToken :
    claimTokenTimestamp (signer.generateClaimToken hmac inboxId timestamp) = .ok timestamp := by
  have hvalue : Lib.leNat (Lib.leBytes 8 timestamp.toNat) = timestamp.toNat :=
    Lib.leNat_leBytes (by have := timestamp.toNat_lt; norm_num; omega)
  rw [claimTokenTimestamp, if_neg (by simp [claimTokenLen]), ServerSigner.generateClaimToken,
    List.take_left' (by simp), hvalue, UInt64.ofNat_toNat]

theorem parseSigned_append {payload token : Bytes} {sig : Array64} (hpos : 0 < payload.length)
    (htoken : token.length = claimTokenLen) (hinbox : (dispatchInbox payload).isSome = true) :
    SignedInboxResponse.parseSigned (payload ++ token ++ sig.val) =
      some ⟨payload, some token, some sig⟩ := by
  have hlength : (payload ++ token ++ sig.val).length = payload.length + trailerLen := by
    simp only [List.length_append, htoken, sig.property, trailerLen, serverSigLen]
    omega
  have htake : (payload ++ token ++ sig.val).take
      ((payload ++ token ++ sig.val).length - trailerLen) = payload := by
    rw [hlength, Nat.add_sub_cancel, List.append_assoc, List.take_left]
  have htrailed : Trailed (payload ++ token ++ sig.val) :=
    ⟨by omega, by rw [htake]; exact hinbox⟩
  obtain ⟨token', sig', hsigned, hsplit⟩ := parseSigned_of_trailed htrailed
  rw [htake] at hsigned hsplit
  obtain ⟨hfront, hsig⟩ := List.append_inj' hsplit (by rw [sig.property, sig'.property])
  rw [hsigned, List.append_cancel_left hfront, Subtype.ext hsig]

theorem verify_reply (hE : E.VerifiesSigned) {m : InboxMessages} (hm : m.messages.length < 2 ^ 32) :
    SignedInboxResponse.verify E
      ⟨m.serialize, some (signer.generateClaimToken hmac inboxId timestamp),
        some (signer.signInboxResponse E m.messages m.count inboxId timestamp)⟩
      (E.verifyingKey signer.signingSeed) inboxId = .ok () := by
  have hread := InboxMessages.dispatchInbox_serialize hm
  rw [dispatchInbox] at hread
  cases hdispatch : dispatch coreP2p m.serialize with
  | error err =>
    rw [hdispatch] at hread
    cases hread
  | ok message =>
    rw [hdispatch] at hread
    dsimp only at hread
    have hvalid := hE signer.signingSeed (signedData m.messages m.count inboxId timestamp)
    simp only [SignedInboxResponse.verify, claimTokenTimestamp_generateClaimToken, hdispatch, hread,
      ServerSigner.signInboxResponse, hvalid]

end Agreement

/-- **Agreement.** A reply with a blob shorter than 4 GiB is parsed into its payload, token and
signature and verifies; a serialized message alone is parsed as unsigned. -/
theorem reply_parses (E : Ed25519) (hE : E.VerifiesSigned) (hmac : HmacSha256)
    (signer : ServerSigner) :
    (∀ (m : InboxMessages) (inboxId : Bytes) (timestamp : UInt64), m.messages.length < 2 ^ 32 →
      ∃ response : SignedInboxResponse,
        response = ⟨m.serialize, some (signer.generateClaimToken hmac inboxId timestamp),
          some (signer.signInboxResponse E m.messages m.count inboxId timestamp)⟩ ∧
        SignedInboxResponse.parse
          (inboxReply E hmac signer m.messages m.count inboxId timestamp) = .ok response ∧
        response.verify E (E.verifyingKey signer.signingSeed) inboxId = .ok ()) ∧
    ∀ m : InboxMessages, m.messages.length < 2 ^ 32 →
      SignedInboxResponse.parse m.serialize = .ok ⟨m.serialize, none, none⟩ := by
  refine ⟨fun m inboxId timestamp hm => ⟨_, rfl, ?_, verify_reply hE hm⟩, fun m hm => ?_⟩
  · have hread := InboxMessages.dispatchInbox_serialize hm
    rw [SignedInboxResponse.parse, inboxReply, parseSigned_append
      (by rw [m.serialize_length]; omega) (by simp [claimTokenLen]) (by rw [hread]; rfl)]
  · have hnot : ¬ Trailed m.serialize := by
      rintro ⟨hlen, hsome⟩
      rw [m.dispatchInbox_serialize_take hm (by
        simp only [trailerLen, claimTokenLen, serverSigLen]
        omega)] at hsome
      cases hsome
    rw [parse_of_not_trailed hnot, InboxMessages.dispatchInbox_serialize hm]
    rfl

theorem reply_parses_digest :
    SignedInboxResponse.parse (InboxMessages.serialize ⟨ascii "blob", 1⟩) =
        .ok ⟨InboxMessages.serialize ⟨ascii "blob", 1⟩, none, none⟩ ∧
      ∃ response : SignedInboxResponse,
        SignedInboxResponse.parse (inboxReply .digest .digest ⟨.ofNat 1, .ofNat 2⟩ (ascii "blob") 1
          (ascii "inbox") 1000) = .ok response ∧
        response.verify .digest (.ofNat 1) (ascii "inbox") = .ok () := by
  obtain ⟨hsigned, hplain⟩ := reply_parses .digest Ed25519.digest_verifiesSigned .digest
    ⟨.ofNat 1, .ofNat 2⟩
  obtain ⟨response, -, hparse, hverify⟩ := hsigned ⟨ascii "blob", 1⟩ (ascii "inbox") 1000
    (by decide)
  exact ⟨hplain ⟨ascii "blob", 1⟩ (by decide), response, hparse, hverify⟩

/-- The length of a blob of 4 GiB is written as zero, so that all but its first bytes are taken for
what follows the message. -/
theorem trailed_of_length {m : InboxMessages} (hm : m.messages.length = 2 ^ 32) :
    Trailed m.serialize := by
  have hlen := m.serialize_length
  have hsize : trailerLen + 12 ≤ m.serialize.length := by
    simp only [trailerLen, claimTokenLen, serverSigLen]
    omega
  have htake : (m.serialize.take (m.serialize.length - trailerLen)).length =
      m.serialize.length - trailerLen := by
    rw [List.length_take]
    omega
  obtain ⟨hid, hslice⟩ := InboxMessages.slice_header
    (m.serialize.take (m.serialize.length - trailerLen)) (by omega)
    (Or.inl (List.take_prefix _ _))
  have hzero : Lib.leNat (Lib.leBytes 4 (2 ^ 32)) = 0 := by decide
  refine ⟨by omega, ?_⟩
  rw [dispatchInbox_eq, if_neg (by rw [hid]; omega)]
  simp only [hslice, hm, hzero]
  rw [if_neg (by simp only [padding]; omega)]
  rfl

theorem oversized_parsed_as_signed :
    ∃ m : InboxMessages, m.messages = List.replicate (2 ^ 32) 0 ∧ ∃ payload token sig,
      SignedInboxResponse.parse m.serialize = .ok ⟨payload, some token, some sig⟩ := by
  -- named, so that nothing below evaluates the list
  obtain ⟨messages, hmessages⟩ : ∃ messages : Bytes, messages = List.replicate (2 ^ 32) 0 :=
    ⟨_, rfl⟩
  have hlength : messages.length = 2 ^ 32 := by rw [hmessages, List.length_replicate]
  obtain ⟨token, sig, hsigned, -⟩ :=
    parseSigned_of_trailed (trailed_of_length (m := ⟨messages, 0⟩) hlength)
  exact ⟨⟨messages, 0⟩, hmessages, _, token, sig, by rw [SignedInboxResponse.parse, hsigned]⟩

end Cypher.Onion.Verify
