import Cypher.Relay.Verify.Onion

/-!
# What an unauthenticated request changes

`process_onion_request` looks at the cache, and updates it, before it checks the ciphertext. A request
that is refused before that leaves the cache as it was. One whose ciphertext is wrong has already
taken a place in it, or raised the number of a circuit, which shuts out what the circuit sends under
smaller numbers.
-/

namespace Cypher.Relay.Verify

open Crypto Onion Proto

/-- The errors up to the check of the ciphertext. -/
inductive Unauthenticated : OnionError → Prop
  | requestTooShort : Unauthenticated .requestTooShort
  | replayed (seqNo last : Nat) : Unauthenticated (.replayed seqNo last)
  | circuitLimit : Unauthenticated .circuitLimit
  | decrypt (err : Error) : Unauthenticated (.decrypt err)

/-- The circuit is known and has had the number, or it is unknown and there is no room for it. -/
def Refuses (circuits : CircuitCache) (clientEk : PublicKey) (circuitId : CircuitId)
    (seqNo : Nat) : Prop :=
  match circuits.lookup (clientEk, circuitId) with
  | some (_, last) => seqNo ≤ last
  | none => maxCircuits ≤ circuits.entries.length

/-- The request is refused before the cache is touched. -/
def RefusedEarly (circuits : CircuitCache) (data : Bytes) : Prop :=
  data.length < 58 ∨ ∃ (clientEk : PublicKey) (circuitId : CircuitId),
    clientEk.val = slice data 1 33 ∧ circuitId.val = slice data 33 49 ∧
      Refuses circuits clientEk circuitId (Lib.leNat (slice data 49 57))

section Lookup

variable {circuits : CircuitCache} {clientEk : PublicKey} {circuitId : CircuitId} {seqNo : Nat}

theorem circuitKeyFor_of_refuses (P : Primitives) (relaySecret : Array32)
    (h : Refuses circuits clientEk circuitId seqNo) :
    ∃ err, circuitKeyFor P relaySecret circuits clientEk circuitId seqNo =
      (circuits, .error err) := by
  unfold Refuses at h
  unfold circuitKeyFor
  cases hlookup : circuits.lookup (clientEk, circuitId) with
  | none =>
    rw [hlookup] at h
    exact ⟨_, if_pos h⟩
  | some entry =>
    rw [hlookup] at h
    exact ⟨_, if_pos h⟩

theorem circuitKeyFor_of_not_refuses (P : Primitives) (relaySecret : Array32)
    (h : ¬ Refuses circuits clientEk circuitId seqNo) :
    ∃ key, circuitKeyFor P relaySecret circuits clientEk circuitId seqNo =
        (circuits.insert (clientEk, circuitId) (key, seqNo), .ok key) ∧
      (circuits.insert (clientEk, circuitId) (key, seqNo)).lookup (clientEk, circuitId) ≠
        circuits.lookup (clientEk, circuitId) := by
  unfold Refuses at h
  unfold circuitKeyFor
  cases hlookup : circuits.lookup (clientEk, circuitId) with
  | none =>
    rw [hlookup] at h
    refine ⟨_, if_neg h, ?_⟩
    rw [AList.lookup_insert]
    exact Option.some_ne_none _
  | some entry =>
    obtain ⟨key, last⟩ := entry
    rw [hlookup] at h
    refine ⟨key, if_neg h, ?_⟩
    rw [AList.lookup_insert]
    intro heq
    -- the number was larger than the last one
    have hsame : seqNo = last := congrArg Prod.snd (Option.some.inj heq)
    exact h hsame.le

end Lookup

section Request

variable {P : Primitives} {relaySecret : Array32} {circuits : CircuitCache} {data : Bytes}
variable {nats : NatsReply} {err : OnionError}

theorem decryptRequest_of_long {clientEk : PublicKey} {circuitId : CircuitId}
    (hlong : ¬ data.length < 58) (hek : clientEk.val = slice data 1 33)
    (hid : circuitId.val = slice data 33 49) :
    decryptRequest P relaySecret data circuits =
      match circuitKeyFor P relaySecret circuits clientEk circuitId
        (Lib.leNat (slice data 49 57)) with
      | (circuits, .error err) => (circuits, .error err)
      | (circuits, .ok key) =>
        match P.aeadDecrypt key (nonceMaterial circuitId (Lib.leNat (slice data 49 57)))
          (data.drop 57) circuitId.val with
        | .error err => (circuits, .error (.decrypt err))
        | .ok inner => (circuits, .ok ⟨key, circuitId, Lib.leNat (slice data 49 57), inner⟩) := by
  have hbound : 1 + 32 ≤ data.length ∧ 33 + 16 ≤ data.length := by omega
  obtain rfl : copyFromSlice 32 data 1 hbound.1 = clientEk := Subtype.ext hek.symm
  obtain rfl : copyFromSlice 16 data 33 hbound.2 = circuitId := Subtype.ext hid.symm
  unfold decryptRequest
  exact dif_neg hlong

theorem exists_header (hlong : ¬ data.length < 58) :
    ∃ (clientEk : PublicKey) (circuitId : CircuitId),
      clientEk.val = slice data 1 33 ∧ circuitId.val = slice data 33 49 :=
  ⟨copyFromSlice 32 data 1 (by omega), copyFromSlice 16 data 33 (by omega), rfl, rfl⟩

theorem process_cache (nats : NatsReply) :
    (processOnionRequest P relaySecret nats data circuits).1 =
      (decryptRequest P relaySecret data circuits).1 := by
  unfold processOnionRequest
  split
  · next heq => rw [heq]
  · next heq =>
    rw [heq]
    split <;> rfl

theorem process_of_refusedEarly (h : RefusedEarly circuits data) :
    (processOnionRequest P relaySecret nats data circuits).1 = circuits := by
  rw [process_cache]
  by_cases hlong : data.length < 58
  · unfold decryptRequest
    rw [dif_pos hlong]
  · obtain ⟨clientEk, circuitId, hek, hid, hrefuses⟩ := h.resolve_left hlong
    obtain ⟨err, herr⟩ := circuitKeyFor_of_refuses P relaySecret hrefuses
    rw [decryptRequest_of_long hlong hek hid, herr]

theorem decrypt_of_not_refusedEarly (P : Primitives) (relaySecret : Array32)
    (h : ¬ RefusedEarly circuits data) :
    (∃ circuit, (decryptRequest P relaySecret data circuits).1.lookup circuit ≠
        circuits.lookup circuit) ∧
      ((∃ err, (decryptRequest P relaySecret data circuits).2 = .error (.decrypt err)) ∨
        ∃ request, (decryptRequest P relaySecret data circuits).2 = .ok request) := by
  have hlong : ¬ data.length < 58 := fun hshort => h (.inl hshort)
  obtain ⟨clientEk, circuitId, hek, hid⟩ := exists_header hlong
  have hrefuses : ¬ Refuses circuits clientEk circuitId (Lib.leNat (slice data 49 57)) :=
    fun hrefuses => h (.inr ⟨clientEk, circuitId, hek, hid, hrefuses⟩)
  obtain ⟨key, hkey, hchanged⟩ :=
    circuitKeyFor_of_not_refuses P relaySecret hrefuses
  rw [decryptRequest_of_long hlong hek hid, hkey]
  dsimp only
  split
  · exact ⟨⟨_, hchanged⟩, .inl ⟨_, rfl⟩⟩
  · exact ⟨⟨_, hchanged⟩, .inr ⟨_, rfl⟩⟩

theorem process_of_decryptError {err : OnionError}
    (h : (decryptRequest P relaySecret data circuits).2 = .error err) (nats : NatsReply) :
    (processOnionRequest P relaySecret nats data circuits).2.result = .error err := by
  unfold processOnionRequest
  split
  · next heq =>
    rw [heq] at h
    cases h
    rfl
  · next heq =>
    rw [heq] at h
    cases h

theorem not_unauthenticated_of_forward {inner : Bytes} {err : OnionError}
    (h : forwardRequest inner = .error err) : ¬ Unauthenticated err := by
  rintro hearly
  unfold forwardRequest parseInner at h
  split at h
  · cases h
    cases hearly
  · split at h
    · cases h
      cases hearly
    · dsimp only at h
      split at h
      · cases h
        cases hearly
      · dsimp only [bind, Except.bind] at h
        unfold requestSubject at h
        split at h
        · next hsubject =>
          split at hsubject
          · cases hsubject
            cases h
            cases hearly
          · split at hsubject
            · cases hsubject
            · split at hsubject
              · cases hsubject
              · cases hsubject
                cases h
                cases hearly
        · cases h

theorem not_unauthenticated_of_answer {request : OpenedRequest} {err : OnionError}
    (h : answerRequest P request nats = .error err) : ¬ Unauthenticated err := by
  intro hearly
  cases nats with
  | timedOut =>
    cases h
    cases hearly
  | failed msg =>
    cases h
    cases hearly
  | reply payload =>
    rw [answerRequest, sealResponse] at h
    split at h
    · cases h
      cases hearly
    · cases h

theorem not_unauthenticated_of_opened {request : OpenedRequest} {err : OnionError}
    (hopened : (decryptRequest P relaySecret data circuits).2 = .ok request)
    (h : (processOnionRequest P relaySecret nats data circuits).2.result = .error err) :
    ¬ Unauthenticated err := by
  unfold processOnionRequest at h
  split at h
  · next heq =>
    rw [heq] at hopened
    cases hopened
  · split at h
    · next hforward =>
      cases h
      exact not_unauthenticated_of_forward hforward
    · exact not_unauthenticated_of_answer h

end Request

/-- **When an unauthenticated request changes nothing.** A request that fails up to the check of its
ciphertext leaves the cache as it was, and with it every request acceptable that was so before,
exactly unless it is the ciphertext that is wrong: the request was refused before it was looked at,
or it is right. -/
theorem unauthenticated_changes_nothing_iff (P : Primitives) (relaySecret : Array32)
    (nats : NatsReply) (data : Bytes) (circuits : CircuitCache) :
    (∀ err, (processOnionRequest P relaySecret nats data circuits).2.result = .error err →
      Unauthenticated err →
      (∀ circuit, (processOnionRequest P relaySecret nats data circuits).1.lookup circuit =
        circuits.lookup circuit) ∧
      ∀ nats' data' out,
        (processOnionRequest P relaySecret nats' data' circuits).2.result = .ok out →
        (processOnionRequest P relaySecret nats' data'
          (processOnionRequest P relaySecret nats data circuits).1).2.result = .ok out) ↔
      RefusedEarly circuits data ∨
        ∃ request, (decryptRequest P relaySecret data circuits).2 = .ok request := by
  constructor
  · intro hunchanged
    by_contra hwrong
    obtain ⟨hreached, hnot⟩ := not_or.mp hwrong
    obtain ⟨⟨circuit, hchanged⟩, houtcome⟩ := decrypt_of_not_refusedEarly P relaySecret hreached
    obtain ⟨err, herr⟩ := houtcome.resolve_right hnot
    have hsame := (hunchanged _ (process_of_decryptError herr nats) (.decrypt err)).1 circuit
    rw [process_cache] at hsame
    exact hchanged hsame
  · rintro (hrefused | ⟨request, hopened⟩) err hfails hearly
    · rw [process_of_refusedEarly hrefused]
      exact ⟨fun circuit => rfl, fun nats' data' out hout => hout⟩
    · exact absurd hearly (not_unauthenticated_of_opened hopened hfails)

/-! ## A forged number -/

/-- A circuit whose next request is its third. -/
def thirdRequest : Circuit :=
  { Circuit.new Primitives.additive (Array32.ofNat 5) ⟨List.replicate 16 9, List.length_replicate⟩
      (Array32.ofNat 3)
    with seq := 2 }

/-- The relay has seen the first two. -/
def twoSeen : CircuitCache :=
  (∅ : CircuitCache).insert (thirdRequest.ephemeralPublic, thirdRequest.circuitId)
    (thirdRequest.circuitKey, 1)

/-- The header of the circuit with the highest number, and no ciphertext of it. -/
def forged : Bytes :=
  requestWire thirdRequest.ephemeralPublic thirdRequest.circuitId (2 ^ 64 - 1) [0]

set_option maxRecDepth 20000 in
/-- The forged request fails at the ciphertext and is remembered; the next request of the circuit, which
would have been accepted, is taken for a replay. -/
theorem forged_number_shuts_out_circuit :
    ∃ err wire out,
      (processOnionRequest Primitives.additive (Array32.ofNat 3) .timedOut forged twoSeen).2.result =
        .error (.decrypt err) ∧
      (processOnionRequest Primitives.additive (Array32.ofNat 3) .timedOut forged
          twoSeen).1.lookup (thirdRequest.ephemeralPublic, thirdRequest.circuitId) =
        some (thirdRequest.circuitKey, 2 ^ 64 - 1) ∧
      twoSeen.lookup (thirdRequest.ephemeralPublic, thirdRequest.circuitId) =
        some (thirdRequest.circuitKey, 1) ∧
      (encodeRelayRequest Primitives.additive thirdRequest
        (Message.serialize ⟨inboxFetch, (List.replicate 32 7, ())⟩)).2 = .ok wire ∧
      (processOnionRequest Primitives.additive (Array32.ofNat 3) (.reply []) wire
        twoSeen).2.result = .ok out ∧
      (processOnionRequest Primitives.additive (Array32.ofNat 3) (.reply []) wire
        (processOnionRequest Primitives.additive (Array32.ofNat 3) .timedOut forged
          twoSeen).1).2.result = .error (.replayed 2 (2 ^ 64 - 1)) := by
  refine ⟨_, _, _, rfl, ?_, ?_, rfl, rfl, rfl⟩
  · decide +kernel
  · decide +kernel

end Cypher.Relay.Verify
