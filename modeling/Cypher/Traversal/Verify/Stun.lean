import Cypher.Signaling.Stun
import Cypher.Traversal.Stun

/-!
# STUN server and client agree

The two sides have their own constants and their own layouts. A message is a header and attributes
(`message`); the client's loop reads any list of them (`readAttributes_flatMap`) after checking the
header (`parse_message`). The server's response is such a message with one attribute
(`buildBindingResponse_eq`), whose value the client unmasks (`parse_attrValue`).
-/

namespace Cypher.Traversal.Verify

open Proto (slice slice_append)

/-! ## The attributes of a message -/

/-- An attribute whose length fits its length field. -/
structure Attribute where
  attrType : UInt16
  value : Bytes
  short : value.length < 2 ^ 16

/-- Type, length and value, padded to a multiple of four bytes. -/
def Attribute.bytes (a : Attribute) : Bytes :=
  toBeBytes16 a.attrType ++ (toBeBytes16 (UInt16.ofNat a.value.length) ++ (a.value ++
    List.replicate (paddedLen a.value.length - a.value.length) 0))

theorem length_le_paddedLen (n : Nat) : n ≤ paddedLen n := by
  rw [paddedLen]
  omega

theorem Attribute.bytes_length (a : Attribute) : a.bytes.length = 4 + paddedLen a.value.length := by
  have hpadded := length_le_paddedLen a.value.length
  simp only [bytes, List.length_append, toBeBytes16_length, List.length_replicate]
  omega

variable (transactionId : Array12)

theorem readAttributes_padded (a : Attribute) {padding : Bytes}
    (hpadding : a.value.length + padding.length = paddedLen a.value.length) (rest : Bytes)
    (found : Mapped) :
    readAttributes transactionId (toBeBytes16 a.attrType ++
        (toBeBytes16 (UInt16.ofNat a.value.length) ++ (a.value ++ (padding ++ rest)))) found = (do
      let found ← readAttribute transactionId a.attrType a.value found
      readAttributes transactionId rest found) := by
  generalize hbuf : toBeBytes16 a.attrType ++
    (toBeBytes16 (UInt16.ofNat a.value.length) ++ (a.value ++ (padding ++ rest))) = buf
  have hlength : buf.length = 4 + paddedLen a.value.length + rest.length := by
    rw [← hbuf]
    simp only [List.length_append, toBeBytes16_length]
    omega
  have hvalueFits := length_le_paddedLen a.value.length
  have htype : slice buf 0 2 = toBeBytes16 a.attrType := by
    rw [← hbuf]
    exact slice_append (a := []) rfl (toBeBytes16_length _)
  have hlen : slice buf 2 4 = toBeBytes16 (UInt16.ofNat a.value.length) := by
    rw [← hbuf]
    exact slice_append (toBeBytes16_length _) (toBeBytes16_length _)
  have hvalue : slice buf 4 (4 + a.value.length) = a.value := by
    rw [← hbuf, ← List.append_assoc (toBeBytes16 a.attrType)]
    refine slice_append ?_ rfl
    rw [List.length_append, toBeBytes16_length, toBeBytes16_length]
  have hdrop : buf.drop (4 + paddedLen a.value.length) = rest := by
    rw [← hbuf, ← List.append_assoc, ← List.append_assoc, ← List.append_assoc]
    refine List.drop_left' ?_
    simp only [List.length_append, toBeBytes16_length]
    omega
  rw [readAttributes, if_neg (by omega), htype, hlen, fromBeBytes16_toBeBytes16,
    fromBeBytes16_toBeBytes16, UInt16.toNat_ofNat_of_lt' a.short]
  dsimp only
  rw [hvalue, hdrop, if_neg (by omega)]

theorem readAttributes_bytes (a : Attribute) (rest : Bytes) (found : Mapped) :
    readAttributes transactionId (a.bytes ++ rest) found = (do
      let found ← readAttribute transactionId a.attrType a.value found
      readAttributes transactionId rest found) := by
  have hpadded := length_le_paddedLen a.value.length
  rw [Attribute.bytes, List.append_assoc, List.append_assoc, List.append_assoc,
    readAttributes_padded]
  rw [List.length_replicate]
  omega

theorem readAttributes_foldlM {α : Type} {bytes : α → Bytes} {read : Mapped → α → Result Mapped}
    (hround : ∀ a rest found, readAttributes transactionId (bytes a ++ rest) found =
      read found a >>= readAttributes transactionId rest)
    (attributes : List α) (found : Mapped) :
    readAttributes transactionId (attributes.flatMap bytes) found =
      attributes.foldlM read found := by
  induction attributes generalizing found with
  | nil =>
    rw [List.flatMap_nil, readAttributes, if_pos (by decide), List.foldlM_nil]
    rfl
  | cons a attributes ih =>
    rw [List.flatMap_cons, hround, List.foldlM_cons]
    exact bind_congr ih

theorem readAttributes_flatMap (attributes : List Attribute) (found : Mapped) :
    readAttributes transactionId (attributes.flatMap Attribute.bytes) found =
      attributes.foldlM (fun found a => readAttribute transactionId a.attrType a.value found)
        found :=
  readAttributes_foldlM transactionId (readAttributes_bytes transactionId) attributes found

/-! ## The header -/

section Header

variable (msgType msgLen : UInt16) (body : Bytes)

/-- Both kinds of message: a header and what follows it. -/
def headed : Bytes :=
  toBeBytes16 msgType ++ (toBeBytes16 msgLen ++ (toBeBytes32 stunMagicCookie.toNat ++
    (transactionId.val ++ body)))

theorem headed_length : (headed transactionId msgType msgLen body).length = 20 + body.length := by
  simp only [headed, List.length_append, toBeBytes16_length, toBeBytes32_length,
    transactionId.property]
  omega

theorem headed_type :
    fromBeBytes16 (slice (headed transactionId msgType msgLen body) 0 2) = msgType := by
  have hslice : slice (headed transactionId msgType msgLen body) 0 2 = toBeBytes16 msgType :=
    slice_append (a := []) rfl (toBeBytes16_length _)
  rw [hslice, fromBeBytes16_toBeBytes16]

theorem headed_msgLen :
    fromBeBytes16 (slice (headed transactionId msgType msgLen body) 2 4) = msgLen := by
  have hslice : slice (headed transactionId msgType msgLen body) 2 4 = toBeBytes16 msgLen :=
    slice_append (toBeBytes16_length _) (toBeBytes16_length _)
  rw [hslice, fromBeBytes16_toBeBytes16]

theorem headed_cookie :
    fromBeBytes32 (slice (headed transactionId msgType msgLen body) 4 8) =
      stunMagicCookie.toNat := by
  have hslice : slice (headed transactionId msgType msgLen body) 4 8 =
      toBeBytes32 stunMagicCookie.toNat := by
    rw [headed, ← List.append_assoc]
    exact slice_append rfl (toBeBytes32_length _)
  rw [hslice, fromBeBytes32_toBeBytes32 stunMagicCookie.toNat_lt]

theorem headed_transactionId :
    slice (headed transactionId msgType msgLen body) 8 20 = transactionId.val := by
  rw [headed, ← List.append_assoc, ← List.append_assoc]
  exact slice_append rfl transactionId.property

theorem headed_body : (headed transactionId msgType msgLen body).drop 20 = body := by
  rw [headed, ← List.append_assoc, ← List.append_assoc, ← List.append_assoc]
  refine List.drop_left' ?_
  rw [List.length_append, transactionId.property]
  rfl

end Header

theorem parse_headed {body : Bytes} (hshort : body.length < 2 ^ 16) (expected : Array12) :
    parseBindingResponse
        (headed transactionId bindingResponse (UInt16.ofNat body.length) body) expected =
      if transactionId ≠ expected then .error (.nat "STUN transaction ID mismatch")
      else readAttributes expected body ⟨none, none⟩ >>= Mapped.address := by
  have hlength := headed_length transactionId bindingResponse (UInt16.ofNat body.length) body
  have hsame : transactionId.val ≠ expected.val ↔ transactionId ≠ expected :=
    not_congr Subtype.val_inj
  rw [parseBindingResponse, stunHeaderSize, if_neg (by omega), headed_type,
    if_neg (not_not_intro rfl), headed_cookie, if_neg (not_not_intro rfl), headed_transactionId,
    headed_msgLen, UInt16.toNat_ofNat_of_lt' hshort, headed_body]
  dsimp only
  rw [List.take_of_length_le (Nat.le_refl _), if_neg (Nat.lt_irrefl _)]
  exact if_congr hsame rfl rfl

def message (attributes : List Attribute) : Bytes :=
  headed transactionId bindingResponse
    (UInt16.ofNat (attributes.flatMap Attribute.bytes).length)
    (attributes.flatMap Attribute.bytes)

theorem message_length (attributes : List Attribute) : (message transactionId attributes).length =
    20 + (attributes.flatMap Attribute.bytes).length :=
  headed_length ..

variable {transactionId}

/-- What the client makes of a response: it refuses another transaction, and takes the last
XOR-MAPPED-ADDRESS or else the last MAPPED-ADDRESS. -/
theorem parse_message {attributes : List Attribute}
    (hshort : (attributes.flatMap Attribute.bytes).length < 2 ^ 16) (expected : Array12) :
    parseBindingResponse (message transactionId attributes) expected =
      if transactionId ≠ expected then .error (.nat "STUN transaction ID mismatch")
      else (attributes.foldlM
        (fun found a => readAttribute expected a.attrType a.value found) ⟨none, none⟩) >>=
          Mapped.address := by
  rw [message, parse_headed transactionId hshort, readAttributes_flatMap]

/-! ## The response of the server -/

variable (transactionId)

theorem xorKey_eq : Signaling.Stun.xorKey transactionId = xorKey transactionId :=
  rfl

theorem xorBytes_xorKey_length (octets : Array16) :
    (xorBytes octets.val (xorKey transactionId)).length = 16 := by
  rw [xorBytes_length (octets.property.trans (xorKey_length transactionId).symm), octets.property]

theorem attrValue_length (peer : SocketAddr) :
    (Signaling.Stun.attrValue transactionId peer).length = 8 ∨
      (Signaling.Stun.attrValue transactionId peer).length = 20 := by
  cases peer with
  | v4 bits port =>
    left
    simp only [Signaling.Stun.attrValue, List.length_append, List.length_cons, List.length_nil,
      toBeBytes16_length, toBeBytes32_length]
  | v6 octets port flowinfo scopeId =>
    right
    simp only [Signaling.Stun.attrValue, List.length_append, List.length_cons, List.length_nil,
      toBeBytes16_length, xorKey_eq, xorBytes_xorKey_length]

def xorMappedAddress (peer : SocketAddr) : Attribute where
  attrType := Signaling.Stun.stunAttrXorMappedAddress
  value := Signaling.Stun.attrValue transactionId peer
  short := by
    rcases attrValue_length transactionId peer with hlength | hlength <;> omega

theorem bytes_xorMappedAddress (peer : SocketAddr) :
    (xorMappedAddress transactionId peer).bytes =
      toBeBytes16 Signaling.Stun.stunAttrXorMappedAddress ++
        (toBeBytes16 (UInt16.ofNat (Signaling.Stun.attrValue transactionId peer).length) ++
          Signaling.Stun.attrValue transactionId peer) := by
  -- eight and twenty are multiples of four: there is no padding
  have hpadding : paddedLen (Signaling.Stun.attrValue transactionId peer).length -
      (Signaling.Stun.attrValue transactionId peer).length = 0 := by
    rw [paddedLen]
    rcases attrValue_length transactionId peer with hlength | hlength <;> omega
  have hvalue : (xorMappedAddress transactionId peer).value =
      Signaling.Stun.attrValue transactionId peer := rfl
  rw [Attribute.bytes, hvalue, hpadding, List.replicate_zero, List.append_nil]
  rfl

theorem buildBindingResponse_eq (peer : SocketAddr) :
    Signaling.Stun.buildBindingResponse transactionId peer =
      some (message transactionId [xorMappedAddress transactionId peer]) := by
  have hlength : ([xorMappedAddress transactionId peer].flatMap Attribute.bytes).length =
      4 + (Signaling.Stun.attrValue transactionId peer).length := by
    rw [List.flatMap_singleton, bytes_xorMappedAddress]
    simp only [List.length_append, toBeBytes16_length]
    omega
  rw [Signaling.Stun.buildBindingResponse, message, headed, hlength, List.flatMap_singleton,
    bytes_xorMappedAddress]
  simp only [List.append_assoc]
  rfl

section Value

variable (family : UInt8) (xPort : UInt16) (xAddr : Bytes)

def addressValue : Bytes :=
  [0x00, family] ++ toBeBytes16 xPort ++ xAddr

theorem addressValue_length : (addressValue family xPort xAddr).length = 4 + xAddr.length := by
  simp only [addressValue, List.length_append, List.length_cons, List.length_nil,
    toBeBytes16_length]

theorem slice_addressValue_port : slice (addressValue family xPort xAddr) 2 4 = toBeBytes16 xPort := by
  rw [addressValue, List.append_assoc]
  exact slice_append rfl (toBeBytes16_length _)

theorem slice_addressValue_addr {n : Nat} (hlength : xAddr.length = n) :
    slice (addressValue family xPort xAddr) 4 (4 + n) = xAddr := by
  have hlayout : addressValue family xPort xAddr =
      ([0x00, family] ++ toBeBytes16 xPort) ++ (xAddr ++ []) := by
    rw [addressValue, List.append_nil]
  rw [hlayout]
  exact slice_append rfl hlength

theorem parse_addressValue_v4 (hlength : xAddr.length = 4) :
    parseXorMappedAddress (addressValue 0x01 xPort xAddr) transactionId =
      .ok (.v4 (UInt32.ofNat (fromBeBytes32 xAddr) ^^^ stunMagicCookie)
        (xPort ^^^ (stunMagicCookie >>> 16).toUInt16)) := by
  have hlong : ¬ (addressValue 0x01 xPort xAddr).length < 8 := by
    rw [addressValue_length]
    omega
  rw [parseXorMappedAddress, if_neg hlong, slice_addressValue_port, fromBeBytes16_toBeBytes16,
    slice_addressValue_addr 0x01 xPort xAddr hlength]
  rfl

theorem parse_addressValue_v6 (hlength : xAddr.length = 16)
    (hmasked : (xorBytes xAddr (xorKey transactionId)).length = 16) :
    parseXorMappedAddress (addressValue 0x02 xPort xAddr) transactionId =
      .ok (.v6 ⟨xorBytes xAddr (xorKey transactionId), hmasked⟩
        (xPort ^^^ (stunMagicCookie >>> 16).toUInt16) 0 0) := by
  have hlong : ¬ (addressValue 0x02 xPort xAddr).length < 20 := by
    rw [addressValue_length]
    omega
  have hoctets : octetsAt (addressValue 0x02 xPort xAddr) (Nat.le_of_not_lt hlong) =
      ⟨xAddr, hlength⟩ :=
    Subtype.ext (slice_addressValue_addr 0x02 xPort xAddr hlength)
  have hfamily : (addressValue 0x02 xPort xAddr).getD 1 0 = 0x02 := rfl
  rw [parseXorMappedAddress, if_neg (by omega), hfamily, slice_addressValue_port,
    fromBeBytes16_toBeBytes16]
  dsimp only
  rw [if_neg (by decide), if_pos rfl, dif_neg hlong]
  simp only [hoctets]
  rfl

end Value

theorem xor_mask16 (x mask : UInt16) : x ^^^ mask ^^^ mask = x := by
  rw [UInt16.xor_assoc, UInt16.xor_self, UInt16.xor_zero]

theorem xor_mask32 (x mask : UInt32) : x ^^^ mask ^^^ mask = x := by
  rw [UInt32.xor_assoc, UInt32.xor_self, UInt32.xor_zero]

theorem parse_attrValue (peer : SocketAddr) :
    parseXorMappedAddress (Signaling.Stun.attrValue transactionId peer) transactionId =
      .ok (.new peer.ip peer.port) := by
  cases peer with
  | v4 bits port =>
    have hvalue : Signaling.Stun.attrValue transactionId (.v4 bits port) =
        addressValue 0x01 (port ^^^ (stunMagicCookie >>> 16).toUInt16)
          (toBeBytes32 (bits ^^^ stunMagicCookie).toNat) := rfl
    rw [hvalue, parse_addressValue_v4 _ _ _ (toBeBytes32_length _), xor_mask16,
      fromBeBytes32_toBeBytes32 (UInt32.toNat_lt _), UInt32.ofNat_toNat, xor_mask32]
    rfl
  | v6 octets port flowinfo scopeId =>
    have hvalue : Signaling.Stun.attrValue transactionId (.v6 octets port flowinfo scopeId) =
        addressValue 0x02 (port ^^^ (stunMagicCookie >>> 16).toUInt16)
          (xorBytes octets.val (xorKey transactionId)) := rfl
    have hunmasked : xorBytes (xorBytes octets.val (xorKey transactionId)) (xorKey transactionId) =
        octets.val :=
      xorBytes_xorBytes (octets.property.trans (xorKey_length _).symm)
    have hmasked : (xorBytes (xorBytes octets.val (xorKey transactionId))
        (xorKey transactionId)).length = 16 := by
      rw [hunmasked, octets.property]
    have hoctets : (⟨_, hmasked⟩ : Array16) = octets := Subtype.ext hunmasked
    rw [hvalue, parse_addressValue_v6 _ _ _ (xorBytes_xorKey_length _ _) hmasked, xor_mask16,
      hoctets]
    rfl

theorem attributes_length_le (peer : SocketAddr) :
    ([xorMappedAddress transactionId peer].flatMap Attribute.bytes).length ≤ 24 := by
  rw [List.flatMap_singleton, Attribute.bytes_length, paddedLen]
  rcases attrValue_length transactionId peer with hlength | hlength
  · rw [xorMappedAddress, hlength]
    decide
  · rw [xorMappedAddress, hlength]

theorem parse_response (peer : SocketAddr) (expected : Array12) :
    parseBindingResponse (message transactionId [xorMappedAddress transactionId peer]) expected =
      if transactionId ≠ expected then .error (.nat "STUN transaction ID mismatch")
      else .ok (.new peer.ip peer.port) := by
  rw [parse_message ((attributes_length_le transactionId peer).trans_lt (by decide))]
  by_cases hsame : transactionId = expected
  · subst hsame
    have htype : (xorMappedAddress transactionId peer).attrType = attrXorMappedAddress := rfl
    have hvalue : (xorMappedAddress transactionId peer).value =
        Signaling.Stun.attrValue transactionId peer := rfl
    rw [if_neg (not_not_intro rfl), if_neg (not_not_intro rfl), List.foldlM_cons, readAttribute,
      if_pos htype, hvalue, parse_attrValue]
    rfl
  · rw [if_pos hsame, if_pos hsame]

/-- **STUN server and client agree.** The client reads the server's response to its own transaction
as the address that the server saw, and refuses it for any other transaction. -/
theorem binding_response_agrees (peer : SocketAddr) :
    ∃ response, Signaling.Stun.buildBindingResponse transactionId peer = some response ∧
      (∃ addr, parseBindingResponse response transactionId = .ok addr ∧
        addr.ip = peer.ip ∧ addr.port = peer.port) ∧
      ∀ other, other ≠ transactionId → ∃ e, parseBindingResponse response other = .error e := by
  refine ⟨_, buildBindingResponse_eq transactionId peer, ?_, ?_⟩
  · refine ⟨.new peer.ip peer.port, ?_, SocketAddr.ip_new _ _, SocketAddr.port_new _ _⟩
    rw [parse_response, if_neg (not_not_intro rfl)]
  · intro other hother
    refine ⟨.nat "STUN transaction ID mismatch", ?_⟩
    rw [parse_response, if_pos hother.symm]

/-- The server at `[7; 12]` and an IPv6 address with a scope; `[8; 12]` is another transaction. -/
theorem binding_response_agrees_scoped :
    ∃ response, Signaling.Stun.buildBindingResponse ⟨List.replicate 12 7, rfl⟩
        (.v6 ⟨List.replicate 16 1, rfl⟩ 443 0 3) = some response ∧
      (∃ addr, parseBindingResponse response ⟨List.replicate 12 7, rfl⟩ = .ok addr ∧
        addr.ip = .v6 ⟨List.replicate 16 1, rfl⟩ ∧ addr.port = 443) ∧
      ∃ e, parseBindingResponse response ⟨List.replicate 12 8, rfl⟩ = .error e := by
  obtain ⟨response, hresponse, hparsed, hother⟩ :=
    binding_response_agrees ⟨List.replicate 12 7, rfl⟩ (.v6 ⟨List.replicate 16 1, rfl⟩ 443 0 3)
  exact ⟨response, hresponse, hparsed, hother _ (by decide)⟩

/-! ## A request and its answer -/

theorem buildBindingRequest_eq :
    buildBindingRequest transactionId = headed transactionId bindingRequest 0 [] := by
  simp only [buildBindingRequest, headed, List.append_assoc, List.append_nil]

theorem answer_buildBindingRequest (source : SocketAddr) :
    Signaling.Stun.answer (buildBindingRequest transactionId) source =
      Signaling.Stun.buildBindingResponse transactionId source := by
  have hlength := headed_length transactionId bindingRequest 0 []
  have htake : (headed transactionId bindingRequest 0 []).take Signaling.Stun.bufferSize =
      headed transactionId bindingRequest 0 [] :=
    List.take_of_length_le (by rw [hlength]; decide)
  have hheader : ¬ (fromBeBytes16 (slice (headed transactionId bindingRequest 0 []) 0 2) ≠
      Signaling.Stun.stunBindingRequest ∨
        fromBeBytes32 (slice (headed transactionId bindingRequest 0 []) 4 8) ≠
          Signaling.Stun.stunMagicCookie.toNat) := by
    rw [headed_type, headed_cookie]
    decide
  simp only [Signaling.Stun.answer, buildBindingRequest_eq, htake, hlength, headed_transactionId]
  rw [dif_neg (by decide), if_neg hheader]

theorem awaitResponse_timeouts {attempts timeouts : Nat} (h : attempts + timeouts < maxAttempts)
    (rest : List Attempt) :
    awaitResponse transactionId attempts (List.replicate timeouts .timedOut ++ rest) =
      awaitResponse transactionId (attempts + timeouts) rest := by
  induction timeouts generalizing attempts with
  | zero => rfl
  | succ timeouts ih =>
    rw [List.replicate_succ, List.cons_append, awaitResponse, if_neg (by omega), ih (by omega)]
    congr 1
    omega

/-- An exchange with the server. The client is told the address that the server sees, as long as an
answer arrives before the third attempt times out. -/
theorem awaitResponse_answered {timeouts : Nat} (htimeouts : timeouts < maxAttempts)
    (source : SocketAddr) :
    ∃ response, Signaling.Stun.answer (buildBindingRequest transactionId) source = some response ∧
      awaitResponse transactionId 0 (List.replicate timeouts .timedOut ++ [.received response]) =
        some (.ok (.new source.ip source.port)) := by
  refine ⟨_, (answer_buildBindingRequest _ _).trans (buildBindingResponse_eq _ _), ?_⟩
  have hlength : (message transactionId [xorMappedAddress transactionId source]).length ≤
      bufferSize := by
    have hattributes := attributes_length_le transactionId source
    rw [message_length, bufferSize]
    omega
  rw [awaitResponse_timeouts _ (by omega), awaitResponse, List.take_of_length_le hlength,
    parse_response, if_neg (not_not_intro rfl)]

end Cypher.Traversal.Verify
