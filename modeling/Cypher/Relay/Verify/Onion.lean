import Cypher.Proto.Verify.RoundTrip
import Cypher.Relay.Onion

/-!
# Onion requests and responses survive the relay

The client and the relay lay out the same four messages: the two wire formats (`requestWire`,
`responseWire`) and the two plaintexts (`relayInner`). Each is read back at the offsets of the other
side. The numbers of a circuit increase, so its cache entry never refuses the next request
(`Ready`).
-/

namespace Cypher.Relay.Verify

open Crypto Onion Proto

/-! ## The layouts -/

section Inner

variable (subtype : UInt8) (circuitId : CircuitId) {payload : Bytes}

theorem relayInner_length (payload : Bytes) :
    (relayInner subtype circuitId payload).length = 21 + payload.length := by
  simp only [relayInner, List.length_cons, List.length_append, circuitId.property,
    Lib.leBytes_length]
  omega

theorem relayInner_payloadLen (h : payload.length < 2 ^ 32) :
    Lib.leNat (slice (relayInner subtype circuitId payload) 17 21) = payload.length := by
  have hlayout : relayInner subtype circuitId payload =
      (subtype :: circuitId.val) ++ (Lib.leBytes 4 payload.length ++ payload) := by
    rw [relayInner, List.append_assoc, List.cons_append]
  have hstart : (subtype :: circuitId.val).length = 17 := by
    rw [List.length_cons, circuitId.property]
  have hslice : slice ((subtype :: circuitId.val) ++ (Lib.leBytes 4 payload.length ++ payload)) 17
      (17 + 4) = Lib.leBytes 4 payload.length := slice_append hstart (Lib.leBytes_length _ _)
  rw [hlayout, hslice]
  exact Lib.leNat_leBytes h

theorem relayInner_payload (payload : Bytes) :
    slice (relayInner subtype circuitId payload) 21 (21 + payload.length) = payload := by
  have hlayout : relayInner subtype circuitId payload =
      (subtype :: (circuitId.val ++ Lib.leBytes 4 payload.length)) ++ (payload ++ []) := by
    rw [relayInner, List.append_nil, List.cons_append]
  rw [hlayout]
  refine slice_append ?_ rfl
  rw [List.length_cons, List.length_append, circuitId.property, Lib.leBytes_length]

theorem parseInner_relayInner (h : payload.length < 2 ^ 32) :
    parseInner (relayInner Onion.subtypeRelayRequest circuitId payload) = .ok payload := by
  have hhead : (relayInner Onion.subtypeRelayRequest circuitId payload).headD 0 =
      subtypeRelayRequest := rfl
  unfold parseInner
  rw [relayInner_length, if_neg (by omega), if_neg (not_not_intro hhead),
    relayInner_payloadLen _ _ h, if_neg (Nat.lt_irrefl _), relayInner_payload]

end Inner

def requestWire (clientEk : PublicKey) (circuitId : CircuitId) (seqNo : Nat) (ciphertext : Bytes) :
    Bytes :=
  Onion.onionPrefix :: (clientEk.val ++ circuitId.val ++ Lib.leBytes 8 seqNo ++ ciphertext)

def responseWire (seqNo : Nat) (ciphertext : Bytes) : Bytes :=
  onionPrefix :: (Lib.leBytes 8 seqNo ++ ciphertext)

section Wire

variable (clientEk : PublicKey) (circuitId : CircuitId) {seqNo : Nat} (ciphertext : Bytes)

theorem requestWire_length (seqNo : Nat) :
    (requestWire clientEk circuitId seqNo ciphertext).length = 57 + ciphertext.length := by
  simp only [requestWire, List.length_cons, List.length_append, clientEk.property,
    circuitId.property, Lib.leBytes_length]
  omega

theorem requestWire_clientEk (seqNo : Nat) :
    slice (requestWire clientEk circuitId seqNo ciphertext) 1 33 = clientEk.val := by
  have hlayout : requestWire clientEk circuitId seqNo ciphertext =
      [Onion.onionPrefix] ++ (clientEk.val ++ (circuitId.val ++ Lib.leBytes 8 seqNo ++ ciphertext)) := by
    simp only [requestWire, List.append_assoc, List.singleton_append]
  rw [hlayout]
  exact slice_append rfl clientEk.property

theorem requestWire_circuitId (seqNo : Nat) :
    slice (requestWire clientEk circuitId seqNo ciphertext) 33 49 = circuitId.val := by
  have hlayout : requestWire clientEk circuitId seqNo ciphertext =
      (Onion.onionPrefix :: clientEk.val) ++ (circuitId.val ++ (Lib.leBytes 8 seqNo ++ ciphertext)) := by
    simp only [requestWire, List.append_assoc, List.cons_append]
  rw [hlayout]
  refine slice_append ?_ circuitId.property
  rw [List.length_cons, clientEk.property]

theorem requestWire_seqNo (h : seqNo < u64Size) :
    Lib.leNat (slice (requestWire clientEk circuitId seqNo ciphertext) 49 57) = seqNo := by
  have hlayout : requestWire clientEk circuitId seqNo ciphertext =
      (Onion.onionPrefix :: (clientEk.val ++ circuitId.val)) ++ (Lib.leBytes 8 seqNo ++ ciphertext) := by
    simp only [requestWire, List.append_assoc, List.cons_append]
  have hstart : (Onion.onionPrefix :: (clientEk.val ++ circuitId.val)).length = 49 := by
    rw [List.length_cons, List.length_append, clientEk.property, circuitId.property]
  have hslice : slice ((Onion.onionPrefix :: (clientEk.val ++ circuitId.val)) ++
      (Lib.leBytes 8 seqNo ++ ciphertext)) 49 (49 + 8) = Lib.leBytes 8 seqNo :=
    slice_append hstart (Lib.leBytes_length _ _)
  rw [hlayout, hslice]
  exact Lib.leNat_leBytes (Nat.lt_of_lt_of_eq h (by decide))

theorem requestWire_ciphertext (seqNo : Nat) :
    (requestWire clientEk circuitId seqNo ciphertext).drop 57 = ciphertext := by
  have hlayout : requestWire clientEk circuitId seqNo ciphertext =
      (Onion.onionPrefix :: (clientEk.val ++ circuitId.val ++ Lib.leBytes 8 seqNo)) ++ ciphertext := by
    rw [requestWire, List.cons_append]
  rw [hlayout]
  refine List.drop_left' ?_
  rw [List.length_cons, List.length_append, List.length_append, clientEk.property,
    circuitId.property, Lib.leBytes_length]

theorem responseWire_seqNo (h : seqNo < u64Size) :
    Lib.leNat (slice (responseWire seqNo ciphertext) 1 9) = seqNo := by
  have hslice : slice (responseWire seqNo ciphertext) 1 (1 + 8) = Lib.leBytes 8 seqNo :=
    slice_append (a := [onionPrefix]) rfl (Lib.leBytes_length _ _)
  rw [hslice]
  exact Lib.leNat_leBytes (Nat.lt_of_lt_of_eq h (by decide))

theorem responseWire_ciphertext (seqNo : Nat) :
    (responseWire seqNo ciphertext).drop 9 = ciphertext := by
  have hlayout : responseWire seqNo ciphertext =
      (onionPrefix :: Lib.leBytes 8 seqNo) ++ ciphertext := rfl
  rw [hlayout]
  refine List.drop_left' ?_
  rw [List.length_cons, Lib.leBytes_length]

end Wire

/-! ## The cipher -/

section Cipher

variable (P : GcmPrimitives)

theorem exists_aeadEncrypt (key : Array32) (nonce msg aad : Bytes) (hmsg : msg.length ≤ 2 ^ 36)
    (haad : aad.length ≤ 2 ^ 36) :
    ∃ ct, P.aeadEncrypt key nonce msg aad = .ok ct ∧ ct.length = msg.length + 16 := by
  obtain ⟨ct, hct⟩ := Option.isSome_iff_exists.mp
    (P.encrypt_isSome key (P.deriveNonce nonce) msg aad hmsg haad)
  refine ⟨ct, ?_, P.encrypt_length _ _ _ _ _ hct⟩
  rw [Primitives.aeadEncrypt, hct]

theorem exists_encrypt_relayInner (key : Array32) (nonce : Bytes) (subtype : UInt8)
    (circuitId : CircuitId) {payload : Bytes} (h : payload.length < 2 ^ 32) :
    ∃ ct, P.aeadEncrypt key nonce (relayInner subtype circuitId payload) circuitId.val = .ok ct ∧
      0 < ct.length := by
  obtain ⟨ct, hct, hlength⟩ := exists_aeadEncrypt P key nonce (relayInner subtype circuitId payload)
    circuitId.val (by rw [relayInner_length]; omega) (by rw [circuitId.property]; omega)
  exact ⟨ct, hct, by omega⟩

end Cipher

/-! ## One request -/

section Exchange

variable {P : GcmPrimitives} {relaySecret : Array32} {circuits circuits' : CircuitCache}
variable {circuitId : CircuitId} {key : Array32} {seqNo : Nat} {payload : Bytes}

theorem encodeRelayRequest_eq (circuit : Circuit) {ct : Bytes}
    (hct : P.aeadEncrypt circuit.circuitKey (Onion.nonceMaterial circuit.circuitId circuit.seq)
      (relayInner Onion.subtypeRelayRequest circuit.circuitId payload) circuit.circuitId.val = .ok ct) :
    encodeRelayRequest P.toPrimitives circuit payload =
      ({ circuit with seq := (circuit.seq + 1) % u64Size },
        .ok (requestWire circuit.ephemeralPublic circuit.circuitId circuit.seq ct)) := by
  have hnonce : slice (Onion.nonceMaterial circuit.circuitId circuit.seq) 16 (16 + 8) =
      Lib.leBytes 8 circuit.seq := by
    rw [Onion.nonceMaterial, ← List.append_nil (Lib.leBytes 8 circuit.seq)]
    exact slice_append circuit.circuitId.property (Lib.leBytes_length _ _)
  unfold encodeRelayRequest Circuit.nextNonceMaterial
  dsimp only
  rw [hct, hnonce]
  rfl

theorem decryptRequest_requestWire {clientEk : PublicKey} {ct inner : Bytes} (hseq : seqNo < u64Size)
    (hpos : 0 < ct.length)
    (hkey : circuitKeyFor P.toPrimitives relaySecret circuits clientEk circuitId seqNo =
      (circuits', .ok key))
    (hct : P.aeadDecrypt key (nonceMaterial circuitId seqNo) ct circuitId.val = .ok inner) :
    decryptRequest P.toPrimitives relaySecret (requestWire clientEk circuitId seqNo ct) circuits =
      (circuits', .ok ⟨key, circuitId, seqNo, inner⟩) := by
  have hlong : ¬ (requestWire clientEk circuitId seqNo ct).length < 1 + 32 + 16 + 8 + 1 := by
    rw [requestWire_length]
    omega
  have hek : copyFromSlice 32 (requestWire clientEk circuitId seqNo ct) 1 (by omega) = clientEk :=
    Subtype.ext (requestWire_clientEk _ _ _ _)
  have hid : copyFromSlice 16 (requestWire clientEk circuitId seqNo ct) 33 (by omega) = circuitId :=
    Subtype.ext (requestWire_circuitId _ _ _ _)
  unfold decryptRequest
  rw [dif_neg hlong]
  dsimp only
  rw [hek, hid, requestWire_seqNo _ _ _ hseq, requestWire_ciphertext, hkey]
  dsimp only
  rw [hct]

theorem decodeRelayResponse_responseWire {ct : Bytes} (hseq : seqNo < u64Size)
    (hpayload : payload.length < 2 ^ 32)
    (hct : P.aeadDecrypt key (Onion.responseNonceMaterial circuitId seqNo) ct circuitId.val =
      .ok (relayInner Onion.subtypeRelayResponse circuitId payload)) :
    decodeRelayResponse P.toPrimitives key circuitId (responseWire seqNo ct) = .ok payload := by
  have hstart : ¬ ((responseWire seqNo ct).length < 9 ∨
      (responseWire seqNo ct).head? ≠ some Onion.onionPrefix) := by
    rintro (hshort | hprefix)
    · rw [responseWire, List.length_cons, List.length_append, Lib.leBytes_length] at hshort
      omega
    · exact hprefix rfl
  have hhead : (relayInner Onion.subtypeRelayResponse circuitId payload).head? =
      some Onion.subtypeRelayResponse := rfl
  unfold decodeRelayResponse
  rw [if_neg hstart]
  dsimp only
  rw [responseWire_seqNo _ hseq, responseWire_ciphertext, hct]
  dsimp only
  rw [if_neg (not_not_intro hhead), relayInner_length, if_neg (by omega),
    relayInner_payloadLen _ _ hpayload, if_neg (Nat.lt_irrefl _), relayInner_payload]

theorem responseNonceMaterial_eq : responseNonceMaterial = Onion.responseNonceMaterial := rfl

theorem respInner_eq : respInner = relayInner Onion.subtypeRelayResponse := rfl

theorem decode_sealResponse (hinv : P.AesGcmInverts) (request : OpenedRequest)
    (hseq : request.seqNo < u64Size) (hpayload : payload.length < 2 ^ 32) :
    ∃ bytes, sealResponse P.toPrimitives request payload = .ok bytes ∧
      decodeRelayResponse P.toPrimitives request.circuitKey request.circuitId bytes =
        .ok payload := by
  obtain ⟨ct, hct, -⟩ := exists_encrypt_relayInner P request.circuitKey
    (Onion.responseNonceMaterial request.circuitId request.seqNo) Onion.subtypeRelayResponse
    request.circuitId hpayload
  refine ⟨responseWire request.seqNo ct, ?_, ?_⟩
  · unfold sealResponse
    dsimp only
    rw [responseNonceMaterial_eq, respInner_eq, hct]
    rfl
  · exact decodeRelayResponse_responseWire hseq hpayload (hinv.suite hct)

/-! ## The cache -/

variable (P relaySecret) in
/-- The cache lets a request of the circuit with the number through. -/
def Ready (circuits : CircuitCache) (clientEk : PublicKey) (circuitId : CircuitId) (seqNo : Nat) :
    Prop :=
  match circuits.lookup (clientEk, circuitId) with
  | some (key, last) => key = deriveCircuitKey P.toPrimitives relaySecret clientEk ∧ last < seqNo
  | none => circuits.entries.length < maxCircuits

theorem circuitKeyFor_of_ready {clientEk : PublicKey}
    (h : Ready P relaySecret circuits clientEk circuitId seqNo) :
    circuitKeyFor P.toPrimitives relaySecret circuits clientEk circuitId seqNo =
      (circuits.insert (clientEk, circuitId)
        (deriveCircuitKey P.toPrimitives relaySecret clientEk, seqNo),
        .ok (deriveCircuitKey P.toPrimitives relaySecret clientEk)) := by
  unfold Ready at h
  unfold circuitKeyFor
  cases hlookup : circuits.lookup (clientEk, circuitId) with
  | none =>
    rw [hlookup] at h
    dsimp only
    rw [if_neg (Nat.not_le.mpr h)]
  | some entry =>
    rw [hlookup] at h
    obtain ⟨hkey, hlast⟩ := h
    dsimp only
    rw [if_neg (Nat.not_le.mpr hlast), hkey]

theorem ready_insert {clientEk : PublicKey} {next : Nat} (h : seqNo < next) :
    Ready P relaySecret (circuits.insert (clientEk, circuitId)
      (deriveCircuitKey P.toPrimitives relaySecret clientEk, seqNo)) clientEk circuitId next := by
  unfold Ready
  rw [AList.lookup_insert]
  exact ⟨rfl, h⟩

theorem ready_empty (clientEk : PublicKey) (seqNo : Nat) :
    Ready P relaySecret ∅ clientEk circuitId seqNo := by
  unfold Ready
  rw [AList.lookup_empty]
  exact (by decide : 0 < maxCircuits)

end Exchange

/-! ## A circuit on one connection -/

/-- The payload is an `InboxFetch` or an `InboxAck`, and signaling takes it on the subject. -/
inductive RequestKind (payload : Bytes) : Subject → Prop
  | inboxFetch {m : Message} (hm : dispatch coreP2p payload = .ok m) (hctor : m.ctor = inboxFetch) :
      RequestKind payload .inboxFetch
  | inboxAck {m : Message} (hm : dispatch coreP2p payload = .ok m) (hctor : m.ctor = inboxAck) :
      RequestKind payload .inboxAck

theorem requestSubject_of_kind {payload : Bytes} {subject : Subject}
    (h : RequestKind payload subject) : requestSubject payload = .ok subject := by
  unfold requestSubject
  cases h with
  | inboxFetch hm hctor => rw [hm]; exact if_pos hctor
  | inboxAck hm hctor =>
    rw [hm]
    dsimp only
    rw [hctor]
    rfl

/-- A request that a client makes, with the reply that signaling gives. -/
structure OnionExchange where
  payload : Bytes
  subject : Subject
  reply : Bytes

/-- The request is one of the two kinds, and both payloads are shorter than `2^32` bytes. -/
structure OnionExchange.Valid (e : OnionExchange) : Prop where
  kind : RequestKind e.payload e.subject
  payload_lt : e.payload.length < 2 ^ 32
  reply_lt : e.reply.length < 2 ^ 32

/-- The relay forwarded the payload, and what it returned decodes to the reply. -/
structure Survives (P : Primitives) (circuitKey : Array32) (circuitId : CircuitId)
    (e : OnionExchange) (out : Processed) : Prop where
  forwarded : out.forwarded = some (e.subject, .payload 0 e.payload)
  reply : ∃ bytes, out.result = .ok bytes ∧
    decodeRelayResponse P circuitKey circuitId bytes = .ok e.reply

section Circuits

variable {P : GcmPrimitives} {relaySecret : Array32} {circuit : Circuit}

theorem process_encoded (hinv : P.AesGcmInverts)
    (hkey : circuit.circuitKey = deriveCircuitKey P.toPrimitives relaySecret circuit.ephemeralPublic)
    (hseq : circuit.seq < u64Size) {circuits : CircuitCache}
    (hready : Ready P relaySecret circuits circuit.ephemeralPublic circuit.circuitId circuit.seq)
    {e : OnionExchange} (he : e.Valid) :
    ∃ wire out, encodeRelayRequest P.toPrimitives circuit e.payload =
        ({ circuit with seq := (circuit.seq + 1) % u64Size }, .ok wire) ∧
      processOnionRequest P.toPrimitives relaySecret (.reply e.reply) wire circuits =
        (circuits.insert (circuit.ephemeralPublic, circuit.circuitId)
          (circuit.circuitKey, circuit.seq), out) ∧
      Survives P.toPrimitives circuit.circuitKey circuit.circuitId e out := by
  obtain ⟨ct, hct, hpos⟩ := exists_encrypt_relayInner P circuit.circuitKey
    (Onion.nonceMaterial circuit.circuitId circuit.seq) Onion.subtypeRelayRequest circuit.circuitId
    he.payload_lt
  have hlookup := circuitKeyFor_of_ready hready
  rw [← hkey] at hlookup
  have hopened := decryptRequest_requestWire hseq hpos hlookup (hinv.suite hct)
  have hforward : forwardRequest (relayInner Onion.subtypeRelayRequest circuit.circuitId e.payload) =
      .ok (e.subject, .payload 0 e.payload) := by
    unfold forwardRequest
    rw [parseInner_relayInner _ he.payload_lt]
    dsimp only [bind, Except.bind]
    rw [requestSubject_of_kind he.kind]
    rfl
  obtain ⟨bytes, hsealed, hdecoded⟩ := decode_sealResponse hinv
    ⟨circuit.circuitKey, circuit.circuitId, circuit.seq,
      relayInner Onion.subtypeRelayRequest circuit.circuitId e.payload⟩ hseq he.reply_lt
  refine ⟨_, ⟨some (e.subject, .payload 0 e.payload), .ok bytes⟩, encodeRelayRequest_eq circuit hct,
    ?_, rfl, bytes, rfl, hdecoded⟩
  unfold processOnionRequest
  rw [hopened]
  dsimp only
  rw [hforward]
  dsimp only
  rw [answerRequest, hsealed]

theorem process_all_encoded (hinv : P.AesGcmInverts) (exchanges : List OnionExchange)
    (hvalid : ∀ e ∈ exchanges, e.Valid) {circuits : CircuitCache}
    (hkey : circuit.circuitKey = deriveCircuitKey P.toPrimitives relaySecret circuit.ephemeralPublic)
    (hcount : circuit.seq + exchanges.length < u64Size)
    (hready : Ready P relaySecret circuits circuit.ephemeralPublic circuit.circuitId circuit.seq) :
    ∃ wires : List Bytes, (encodeRelayRequests P.toPrimitives circuit
        (exchanges.map OnionExchange.payload)).2 = wires.map .ok ∧
      List.Forall₂ (Survives P.toPrimitives circuit.circuitKey circuit.circuitId) exchanges
        (processOnionRequests P.toPrimitives relaySecret circuits
          (wires.zip (exchanges.map fun e => .reply e.reply))).2 := by
  induction exchanges generalizing circuit circuits with
  | nil => exact ⟨[], rfl, .nil⟩
  | cons e rest ih =>
    rw [List.length_cons] at hcount
    obtain ⟨wire, out, hencoded, hprocessed, hsurvives⟩ :=
      process_encoded hinv hkey (by omega) hready (hvalid e List.mem_cons_self)
    have hnext : (circuit.seq + 1) % u64Size = circuit.seq + 1 := Nat.mod_eq_of_lt (by omega)
    rw [hnext] at hencoded
    rw [hkey] at hprocessed
    obtain ⟨wires, hwires, hrest⟩ := @ih { circuit with seq := circuit.seq + 1 }
      (fun e' he' => hvalid e' (List.mem_cons_of_mem _ he')) _ hkey (by dsimp only; omega)
      (ready_insert (Nat.lt_succ_self circuit.seq))
    refine ⟨wire :: wires, ?_, ?_⟩
    · rw [List.map_cons, encodeRelayRequests, hencoded]
      exact congrArg (Except.ok wire :: ·) hwires
    · rw [List.map_cons, List.zip_cons_cons, processOnionRequests, hprocessed]
      exact .cons hsurvives hrest

end Circuits

/-- **Onion requests and responses survive the relay.** Whatever `InboxFetch` and `InboxAck` payloads
are encoded on a circuit in order and received in that order on one connection: each is forwarded as
it was on the subject of its kind, and what the relay returns decodes to the reply. -/
theorem onion_survives_relay (P : GcmPrimitives) (hdh : P.X25519Commutes) (hinv : P.AesGcmInverts)
    (relaySecret ek : Array32) (circuitId : CircuitId) (exchanges : List OnionExchange)
    (hvalid : ∀ e ∈ exchanges, e.Valid) (hcount : exchanges.length < 2 ^ 63) :
    ∃ wires : List Bytes,
      (encodeRelayRequests P.toPrimitives
        (Circuit.new P.toPrimitives ek circuitId (P.x25519Public relaySecret))
        (exchanges.map OnionExchange.payload)).2 = wires.map .ok ∧
      List.Forall₂ (Survives P.toPrimitives (Circuit.new P.toPrimitives ek circuitId
          (P.x25519Public relaySecret)).circuitKey circuitId) exchanges
        (processOnionRequests P.toPrimitives relaySecret ∅
          (wires.zip (exchanges.map fun e => .reply e.reply))).2 := by
  refine process_all_encoded hinv exchanges hvalid ?_ ?_ (ready_empty _ _)
  · -- both sides of the key exchange derive one key
    exact congrArg (circuitKeyOf P.toPrimitives) (hdh ek relaySecret)
  · exact Nat.lt_of_le_of_lt (Nat.le_of_eq (Nat.zero_add _)) (Nat.lt_trans hcount (by decide))

/-- Two exchanges on one circuit: a fetch and an acknowledgement. -/
theorem onion_survives_relay_two :
    ∃ wires : List Bytes,
      (encodeRelayRequests Primitives.additive
        (Circuit.new Primitives.additive (Array32.ofNat 5) ⟨List.replicate 16 9, rfl⟩
          (Array32.ofNat 3))
        [(⟨inboxFetch, ([7], ())⟩ : Message).serialize,
          (⟨inboxAck, ([7], [1, 2], ())⟩ : Message).serialize]).2 = wires.map .ok ∧
      List.Forall₂ (Survives Primitives.additive (Circuit.new Primitives.additive (Array32.ofNat 5)
          ⟨List.replicate 16 9, rfl⟩ (Array32.ofNat 3)).circuitKey ⟨List.replicate 16 9, rfl⟩)
        [⟨(⟨inboxFetch, ([7], ())⟩ : Message).serialize, .inboxFetch, [1, 2, 3]⟩,
          ⟨(⟨inboxAck, ([7], [1, 2], ())⟩ : Message).serialize, .inboxAck, []⟩]
        (processOnionRequests Primitives.additive (Array32.ofNat 3) ∅
          (wires.zip [.reply [1, 2, 3], .reply []])).2 := by
  refine onion_survives_relay Primitives.additiveGcm Primitives.additive_commutes
    Primitives.additive_inverts (Array32.ofNat 3) (Array32.ofNat 5) ⟨List.replicate 16 9, rfl⟩
    [⟨_, .inboxFetch, [1, 2, 3]⟩, ⟨_, .inboxAck, []⟩] ?_ (by decide)
  refine List.forall_mem_cons.mpr ⟨⟨?_, by decide +kernel, by decide⟩,
    List.forall_mem_singleton.mpr ⟨?_, by decide +kernel, by decide⟩⟩
  · exact .inboxFetch (dispatch_of_fits coreP2p_ids coreP2p_hygienic
      (m := ⟨inboxFetch, ([7], ())⟩) (by decide +kernel) (by decide) (fits_serialize _)) rfl
  · exact .inboxAck (dispatch_of_fits coreP2p_ids coreP2p_hygienic
      (m := ⟨inboxAck, ([7], [1, 2], ())⟩) (by decide +kernel) (by decide) (fits_serialize _)) rfl

end Cypher.Relay.Verify
