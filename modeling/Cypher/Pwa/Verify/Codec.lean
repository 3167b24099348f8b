import Cypher.Proto.Verify.RoundTrip
import Cypher.Pwa.Proto

/-!
# The web codec against the Rust codec

The two encoders write the same bytes. For the decoders, every `case` of the web client's `switch`
reads the fields of its constructor in the order of the schema (`dispatch_of_known`), so the
comparison is made once per field type and then by induction over the field list. Where Rust accepts
a field, the web reader reads it too, up to the rounding of a `Long` and the rewriting of a string by
`TextDecoder`; where only the web reader accepts it, the data has been cut short or is not UTF-8.
-/

namespace Cypher.Pwa

open Proto (Utf8 FieldType Field Constructor Record Message InboxMessages padding slice coreP2p)

/-! ## Encoders -/

theorem setUint32_natCast (n : Nat) : setUint32 n = Lib.leBytes 4 n := by
  rw [setUint32, BitVec.ofInt_natCast, BitVec.toNat_ofNat]
  exact Lib.leBytes_mod 4 n

/-- The mask gives a signed number; writing it takes it modulo `2 ^ 32` again. -/
theorem setUint32_bitAnd (n : Nat) : setUint32 (bitAnd n 0xFFFFFFFF) = Lib.leBytes 4 n := by
  have hmask : BitVec.ofInt 32 0xFFFFFFFF = BitVec.allOnes 32 := by decide
  have hsigned : setUint32 (bitAnd n 0xFFFFFFFF) = setUint32 n := by
    rw [setUint32, bitAnd, hmask, BitVec.and_allOnes, BitVec.ofInt_toInt, setUint32]
  rw [hsigned, setUint32_natCast]

@[simp] theorem Writer.u32_eq (n : Nat) : Writer.u32 n = Lib.leBytes 4 n :=
  setUint32_natCast n

@[simp] theorem Writer.u64_eq (n : Nat) : Writer.u64 n = Lib.leBytes 8 n := by
  rw [Writer.u64, setUint32_bitAnd, setUint32_natCast]
  exact (Lib.leBytes_add 4 4 n).symm

@[simp] theorem Writer.bytes_eq (b : Bytes) : Writer.bytes b = Proto.encodeBytes b := by
  rw [Writer.bytes, Writer.u32_eq, Proto.encodeBytes]

@[simp] theorem Writer.string_eq (s : Utf8) : Writer.string s = Proto.encodeBytes s.val :=
  Writer.bytes_eq s.val

/-- The messages that the web client encodes, with the arguments of their `encode` function. -/
inductive Outgoing where
  | sessionInit (clientId nonce : Bytes)
  | signalRequestPeer (linkId : Utf8)
  | keysGetPrekeys (peerId : Bytes)
  | chatSend (peerId ciphertext ratchetKey : Bytes) (msgNo : Nat)
  | fileOffer (peerId fileId : Bytes) (name : Utf8) (size chunks : Nat) (hash : Bytes)
      (compressed : Nat)
  | fileAccept (peerId fileId : Bytes)
  | fileChunk (peerId fileId : Bytes) (index : Nat) (data hash ratchetKey : Bytes) (msgNo : Nat)
  | fileComplete (peerId fileId : Bytes)
  | fileChunkAck (peerId fileId : Bytes) (index : Nat)
  | inboxFetch (inboxId : Bytes)
  | inboxStore (inboxId ciphertext : Bytes)

namespace Outgoing

def encode : Outgoing → Bytes
  | sessionInit clientId nonce => encodeSessionInit clientId nonce
  | signalRequestPeer linkId => encodeSignalRequestPeer linkId
  | keysGetPrekeys peerId => encodeKeysGetPrekeys peerId
  | chatSend peerId ciphertext ratchetKey msgNo =>
    encodeChatSend peerId ciphertext ratchetKey msgNo
  | fileOffer peerId fileId name size chunks hash compressed =>
    encodeFileOffer peerId fileId name size chunks hash compressed
  | fileAccept peerId fileId => encodeFileAccept peerId fileId
  | fileChunk peerId fileId index data hash ratchetKey msgNo =>
    encodeFileChunk peerId fileId index data hash ratchetKey msgNo
  | fileComplete peerId fileId => encodeFileComplete peerId fileId
  | fileChunkAck peerId fileId index => encodeFileChunkAck peerId fileId index
  | inboxFetch inboxId => encodeInboxFetch inboxId
  | inboxStore inboxId ciphertext => encodeInboxStore inboxId ciphertext

def message : Outgoing → Message
  | sessionInit clientId nonce => ⟨Proto.sessionInit, (clientId, nonce, ())⟩
  | signalRequestPeer linkId => ⟨Proto.signalRequestPeer, (linkId, ())⟩
  | keysGetPrekeys peerId => ⟨Proto.keysGetPrekeys, (peerId, ())⟩
  | chatSend peerId ciphertext ratchetKey msgNo =>
    ⟨Proto.chatSend, (peerId, ciphertext, ratchetKey, UInt32.ofNat msgNo, ())⟩
  | fileOffer peerId fileId name size chunks hash compressed =>
    ⟨Proto.fileOffer, (peerId, fileId, name, UInt64.ofNat size, UInt32.ofNat chunks, hash,
      UInt32.ofNat compressed, ())⟩
  | fileAccept peerId fileId => ⟨Proto.fileAccept, (peerId, fileId, ())⟩
  | fileChunk peerId fileId index data hash ratchetKey msgNo =>
    ⟨Proto.fileChunk, (peerId, fileId, UInt32.ofNat index, data, hash, ratchetKey,
      UInt32.ofNat msgNo, ())⟩
  | fileComplete peerId fileId => ⟨Proto.fileComplete, (peerId, fileId, ())⟩
  | fileChunkAck peerId fileId index => ⟨Proto.fileChunkAck, (peerId, fileId, UInt32.ofNat index, ())⟩
  | inboxFetch inboxId => ⟨Proto.inboxFetch, (inboxId, ())⟩
  | inboxStore inboxId ciphertext => ⟨Proto.inboxStore, (inboxId, ciphertext, ())⟩

/-- Numbers fit `u32`, the size of a file is a safe integer. -/
def InRange : Outgoing → Prop
  | chatSend _ _ _ msgNo => msgNo < 2 ^ 32
  | fileOffer _ _ _ size chunks _ compressed =>
    size < 2 ^ 53 ∧ chunks < 2 ^ 32 ∧ compressed < 2 ^ 32
  | fileChunk _ _ index _ _ _ msgNo => index < 2 ^ 32 ∧ msgNo < 2 ^ 32
  | fileChunkAck _ _ index => index < 2 ^ 32
  | _ => True

attribute [local simp] encode message Message.serialize Proto.serialize Proto.serializeFields
  Proto.serializeField

theorem encode_eq_serialize (o : Outgoing) (h : o.InRange) : o.encode = o.message.serialize := by
  have hint : ∀ n < 2 ^ 32, (UInt32.ofNat n).toNat = n := fun n hn => UInt32.toNat_ofNat_of_lt' hn
  have hlong : ∀ n < 2 ^ 53, (UInt64.ofNat n).toNat = n := fun n hn =>
    UInt64.toNat_ofNat_of_lt' (hn.trans (by decide))
  cases o with
  | sessionInit => simp [encodeSessionInit, CID.sessionInit, Proto.sessionInit]
  | signalRequestPeer =>
    simp [encodeSignalRequestPeer, CID.signalRequestPeer, Proto.signalRequestPeer]
  | keysGetPrekeys => simp [encodeKeysGetPrekeys, CID.keysGetPrekeys, Proto.keysGetPrekeys]
  | chatSend peerId ciphertext ratchetKey msgNo =>
    simp [encodeChatSend, CID.chatSend, Proto.chatSend, hint msgNo h]
  | fileOffer peerId fileId name size chunks hash compressed =>
    obtain ⟨hsize, hchunks, hcompressed⟩ := h
    simp [encodeFileOffer, CID.fileOffer, Proto.fileOffer, hlong size hsize, hint chunks hchunks,
      hint compressed hcompressed]
  | fileAccept => simp [encodeFileAccept, CID.fileAccept, Proto.fileAccept]
  | fileChunk peerId fileId index data hash ratchetKey msgNo =>
    simp [encodeFileChunk, CID.fileChunk, Proto.fileChunk, hint index h.1, hint msgNo h.2]
  | fileComplete => simp [encodeFileComplete, CID.fileComplete, Proto.fileComplete]
  | fileChunkAck peerId fileId index =>
    simp [encodeFileChunkAck, CID.fileChunkAck, Proto.fileChunkAck, hint index h]
  | inboxFetch => simp [encodeInboxFetch, CID.inboxFetch, Proto.inboxFetch]
  | inboxStore => simp [encodeInboxStore, CID.inboxStore, Proto.inboxStore]

end Outgoing

/-! ## Reading a field list -/

/-- What the web client holds for a field of a type. -/
def JsValue : FieldType → Type
  | .int => Nat
  | .long => Nat
  | .bytes => Bytes
  | .string => Bytes

def JsRecord : List Field → Type
  | [] => Unit
  | f :: rest => JsValue f.ty × JsRecord rest

def toJs : (ty : FieldType) → ty.Value → JsValue ty
  | .int, (n : UInt32) => n.toNat
  | .long, (n : UInt64) => n.toNat
  | .bytes, (b : Bytes) => b
  | .string, (s : Utf8) => s.val

def recordToJs : (fields : List Field) → Record fields → JsRecord fields
  | [], _ => ()
  | f :: rest, (v, r) => (toJs f.ty v, recordToJs rest r)

namespace Reader

variable (data : Bytes)

def field : (ty : FieldType) → Reader (JsValue ty)
  | .int => u32 data
  | .long => u64 data
  | .bytes => bytes data
  | .string => string data

/-- Read the fields one after the other and build the message from them. -/
def thenBuild {α : Type} : (fields : List Field) → (JsRecord fields → α) → Reader α
  | [], build => pure (build ())
  | f :: rest, build => do
    let v ← field data f.ty
    thenBuild rest fun r => build (v, r)

/-- The fields read from `offset` on are `r`. -/
def Reads : (fields : List Field) → (offset : Nat) → JsRecord fields → Prop
  | [], _, _ => True
  | f :: rest, offset, (v, r) => ∃ next, field data f.ty offset = some (v, next) ∧ Reads rest next r

variable {data}

theorem thenBuild_eq_some_iff {α : Type} {fields : List Field} {build : JsRecord fields → α}
    {offset : Nat} {m : α} :
    (thenBuild data fields build).run' offset = some m ↔
      ∃ r, Reads data fields offset r ∧ m = build r := by
  induction fields generalizing offset with
  | nil =>
    constructor
    · intro h
      cases h
      exact ⟨(), trivial, rfl⟩
    · rintro ⟨⟨⟩, -, rfl⟩
      rfl
  | cons f rest ih =>
    have hrun : (thenBuild data (f :: rest) build).run' offset =
        (field data f.ty offset).bind fun out =>
          (thenBuild data rest fun r => build (out.1, r)).run' out.2 := by
      cases hfield : field data f.ty offset with
      | none => simp [thenBuild, StateT.run', bind, StateT.bind, hfield]
      | some out => simp [thenBuild, StateT.run', bind, StateT.bind, hfield]
    rw [hrun, Option.bind_eq_some_iff]
    constructor
    · rintro ⟨⟨v, next⟩, hfield, hrest⟩
      obtain ⟨r, hreads, rfl⟩ := ih.mp hrest
      exact ⟨(v, r), ⟨next, hfield, hreads⟩, rfl⟩
    · rintro ⟨⟨v, r⟩, ⟨next, hfield, hreads⟩, rfl⟩
      exact ⟨(v, next), hfield, ih.mpr ⟨r, hreads, rfl⟩⟩

end Reader

/-! ### One field -/

def u32At (data : Bytes) (offset : Nat) : Nat :=
  Lib.leNat (slice data offset (offset + 4))

/-- The data behind the length prefix at `offset`, as far as it is there. -/
def dataAt (data : Bytes) (offset : Nat) : Bytes :=
  slice data (offset + 4) (offset + 4 + u32At data offset)

/-- Where the length-prefixed field at `offset` ends, its padding included. -/
def dataEnd (data : Bytes) (offset : Nat) : Nat :=
  offset + 4 + u32At data offset + padding (u32At data offset)

theorem leNat_slice_lt {data : Bytes} {offset k : Nat} (h : offset + k ≤ data.length) :
    Lib.leNat (slice data offset (offset + k)) < 256 ^ k := by
  have hlt := Lib.leNat_lt (slice data offset (offset + k))
  rwa [Proto.length_slice h, Nat.add_sub_cancel_left] at hlt

namespace Reader

variable {data : Bytes} {offset next : Nat}

theorem u32_eq_some_iff {v : Nat} :
    u32 data offset = some (v, next) ↔
      offset + 4 ≤ data.length ∧ v = u32At data offset ∧ next = offset + 4 := by
  by_cases h : offset + 4 ≤ data.length
  · simp [u32, getUint32, h, u32At, eq_comm]
  · simp [u32, getUint32, h]

/-- The two halves are put together exactly and then rounded. -/
theorem u64_eq_some_iff {v : Nat} :
    u64 data offset = some (v, next) ↔
      offset + 8 ≤ data.length ∧
        v = Lib.roundDouble (Lib.leNat (slice data offset (offset + 8))) ∧ next = offset + 8 := by
  by_cases h : offset + 8 ≤ data.length
  · have hsplit : slice data offset (offset + 8) =
        slice data offset (offset + 4) ++ slice data (offset + 4) (offset + 4 + 4) := by
      simp only [slice, Nat.add_sub_cancel_left]
      rw [← List.drop_drop, ← List.take_add]
    have hlow : (slice data offset (offset + 4)).length = 4 := by
      rw [Proto.length_slice (by omega)]
      omega
    have hhigh : u32At data (offset + 4) < 2 ^ 32 := leNat_slice_lt (k := 4) (by omega)
    have hvalue : Lib.leNat (slice data offset (offset + 8)) =
        u32At data (offset + 4) * 0x100000000 + u32At data offset := by
      rw [hsplit, Lib.leNat_append, hlow, u32At, u32At]
      ring
    have hexact : Lib.roundDouble (u32At data (offset + 4) * 0x100000000) =
        u32At data (offset + 4) * 0x100000000 :=
      Lib.roundDouble_eq_self_iff.mpr (Lib.isDouble_mul_pow (k := 32) hhigh)
    have h4 : offset + 4 ≤ data.length := by omega
    have h8 : offset + 4 + 4 ≤ data.length := by omega
    have hread : u64 data offset = some (Lib.roundDouble (Lib.roundDouble
        (u32At data (offset + 4) * 0x100000000) + u32At data offset), offset + 8) := by
      simp only [u64, getUint32, if_pos h4, if_pos h8, Option.bind_eq_bind, Option.bind_some]
      rfl
    rw [hread, hexact, ← hvalue]
    simp [h, eq_comm]
  · simp only [h, false_and, iff_false]
    by_cases h4 : offset + 4 ≤ data.length
    · have h8 : ¬ offset + 4 + 4 ≤ data.length := by omega
      simp [u64, getUint32, h4, h8]
    · simp [u64, getUint32, h4]

/-- The slice is clamped, so only the length prefix has to be there. -/
theorem bytes_eq_some_iff {v : Bytes} :
    bytes data offset = some (v, next) ↔
      offset + 4 ≤ data.length ∧ v = dataAt data offset ∧ next = dataEnd data offset := by
  by_cases h : offset + 4 ≤ data.length
  · have hlen := u32_eq_some_iff.mpr ⟨h, rfl, rfl⟩
    have hread : bytes data offset = some (dataAt data offset, dataEnd data offset) := by
      simp only [bytes, bind, StateT.bind, hlen]
      rfl
    rw [hread]
    simp [h, eq_comm]
  · simp [bytes, bind, StateT.bind, u32, getUint32, h]

theorem string_eq_some_iff {v : Bytes} :
    string data offset = some (v, next) ↔
      offset + 4 ≤ data.length ∧ v = textDecode (dataAt data offset) ∧
        next = dataEnd data offset := by
  by_cases h : offset + 4 ≤ data.length
  · have hbytes := bytes_eq_some_iff.mpr ⟨h, rfl, rfl⟩
    have hread : string data offset =
        some (textDecode (dataAt data offset), dataEnd data offset) := by
      simp only [string, bind, StateT.bind, hbytes]
      rfl
    rw [hread]
    simp [h, eq_comm]
  · simp [string, bytes, bind, StateT.bind, u32, getUint32, h]

end Reader

/-! ## Rust fields in the web reader -/

theorem textDecode_of_valid (s : Utf8) (h : ¬ byteOrderMark <+: s.val) :
    textDecode s.val = s.val := by
  rw [textDecode, if_neg (by rwa [List.isPrefixOf_iff_prefix])]
  exact Lib.lossyUtf8_of_valid s.property []

theorem textDecode_ne_of_mark (s : Utf8) (h : byteOrderMark <+: s.val) :
    textDecode s.val ≠ s.val := by
  obtain ⟨b, hb⟩ := s
  obtain ⟨rest, rfl⟩ := h
  have hrest : Lib.scanUtf8 0 3 [] rest = none := hb
  have hdec : textDecode (byteOrderMark ++ rest) = rest := by
    rw [textDecode, if_pos (by rw [List.isPrefixOf_iff_prefix]; exact List.prefix_append _ _)]
    exact Lib.lossyUtf8_of_valid hrest []
  intro heq
  rw [hdec] at heq
  have hlen := congrArg List.length heq
  simp only [byteOrderMark, List.length_append, List.length_cons, List.length_nil] at hlen
  omega

/-- What the web reader makes of a field that Rust accepts. -/
def jsRead : (ty : FieldType) → ty.Value → JsValue ty
  | .int, (n : UInt32) => n.toNat
  | .long, (n : UInt64) => Lib.roundDouble n.toNat
  | .bytes, (b : Bytes) => b
  | .string, (s : Utf8) => textDecode s.val

/-- The web client can hold the value: a `Long` is a double, a string does not start with the mark
that `TextDecoder` drops. -/
def Holds : (ty : FieldType) → ty.Value → Prop
  | .int, _ => True
  | .long, (n : UInt64) => Lib.IsDouble n.toNat
  | .bytes, _ => True
  | .string, (s : Utf8) => ¬ byteOrderMark <+: s.val

theorem jsRead_eq_toJs_iff {ty : FieldType} {v : ty.Value} :
    jsRead ty v = toJs ty v ↔ Holds ty v := by
  cases ty with
  | int => exact ⟨fun _ => trivial, fun _ => rfl⟩
  | long => exact Lib.roundDouble_eq_self_iff
  | bytes => exact ⟨fun _ => trivial, fun _ => rfl⟩
  | string => exact ⟨fun h hmark => textDecode_ne_of_mark v hmark h, textDecode_of_valid v⟩

section

variable {data : Bytes} {offset next : Nat}

/-- `decode_bytes` in the terms of the web reader: here the data has to be there as well. -/
theorem decodeBytes_iff_dataAt {b : Bytes} :
    Proto.decodeBytes data offset = .ok (b, next) ↔
      offset + 4 ≤ data.length ∧ offset + 4 + u32At data offset ≤ data.length ∧
        b = dataAt data offset ∧ next = dataEnd data offset := by
  have hlength : Lib.leNat (slice data offset (offset + 4)) = u32At data offset := rfl
  unfold Proto.decodeBytes
  simp only [hlength]
  by_cases hlen : offset + 4 > data.length
  · rw [if_pos hlen]
    simp only [reduceCtorEq, false_iff]
    omega
  · rw [if_neg hlen]
    by_cases hend : offset + 4 + u32At data offset > data.length
    · rw [if_pos hend]
      simp only [reduceCtorEq, false_iff]
      omega
    · rw [if_neg hend]
      simp only [Except.ok.injEq, Prod.mk.injEq]
      constructor
      · rintro ⟨rfl, rfl⟩
        exact ⟨by omega, by omega, rfl, rfl⟩
      · rintro ⟨-, -, rfl, rfl⟩
        exact ⟨rfl, rfl⟩

/-- The web reader accepts every field that Rust accepts and goes on at the same offset. -/
theorem field_of_deserialize {name : String} {ty : FieldType} {v : ty.Value}
    (h : Proto.deserializeField name data offset ty = .ok (v, next)) :
    Reader.field data ty offset = some (jsRead ty v, next) := by
  cases ty with
  | int =>
    obtain ⟨⟨hlen, hv⟩, hnext⟩ := Proto.deserializeInt_eq_ok_iff.mp h
    exact Reader.u32_eq_some_iff.mpr ⟨hlen, hv.symm, hnext⟩
  | long =>
    obtain ⟨⟨hlen, hv⟩, hnext⟩ := Proto.deserializeLong_eq_ok_iff.mp h
    exact Reader.u64_eq_some_iff.mpr ⟨hlen, congrArg Lib.roundDouble hv.symm, hnext⟩
  | bytes =>
    obtain ⟨hlen, -, hv, hnext⟩ := decodeBytes_iff_dataAt.mp h
    exact Reader.bytes_eq_some_iff.mpr ⟨hlen, hv, hnext⟩
  | string =>
    obtain ⟨hlen, -, hv, hnext⟩ := decodeBytes_iff_dataAt.mp (Proto.decodeString_eq_ok_iff.mp h)
    exact Reader.string_eq_some_iff.mpr ⟨hlen, congrArg textDecode hv, hnext⟩

/-- The field at `offset` is complete and the web client can hold it. -/
def ExactField (data : Bytes) (offset : Nat) : FieldType → Prop
  | .int => True
  | .long => Lib.IsDouble (Lib.leNat (slice data offset (offset + 8)))
  | .bytes => offset + 4 + u32At data offset ≤ data.length
  | .string =>
    offset + 4 + u32At data offset ≤ data.length ∧
      Lib.validateUtf8 (dataAt data offset) = none ∧ ¬ byteOrderMark <+: dataAt data offset

def fieldEnd (data : Bytes) (offset : Nat) : FieldType → Nat
  | .int => offset + 4
  | .long => offset + 8
  | .bytes => dataEnd data offset
  | .string => dataEnd data offset

def ExactFields (data : Bytes) : List Field → Nat → Prop
  | [], _ => True
  | f :: rest, offset =>
    ExactField data offset f.ty ∧ ExactFields data rest (fieldEnd data offset f.ty)

/-- Every length-prefixed field of the frame lies inside it, its strings are UTF-8 without a leading
byte order mark and its `Long`s are doubles. -/
def ExactFrame (b : Bytes) : Prop :=
  ∀ c ∈ coreP2p, Lib.leNat (slice b 0 4) = c.id.toNat → ExactFields b c.fields 4

theorem exact_of_deserialize {name : String} {ty : FieldType} {v : ty.Value}
    (h : Proto.deserializeField name data offset ty = .ok (v, next)) (hv : Holds ty v) :
    ExactField data offset ty := by
  cases ty with
  | int => trivial
  | long =>
    obtain ⟨⟨-, hread⟩, -⟩ := Proto.deserializeLong_eq_ok_iff.mp h
    rw [ExactField, hread]
    exact hv
  | bytes => exact (decodeBytes_iff_dataAt.mp h).2.1
  | string =>
    obtain ⟨-, hend, hdata, -⟩ := decodeBytes_iff_dataAt.mp (Proto.decodeString_eq_ok_iff.mp h)
    refine ⟨hend, ?_, ?_⟩
    · rw [← hdata]
      exact v.property
    · rw [← hdata]
      exact hv

theorem deserialize_of_exact {ty : FieldType} {w : JsValue ty}
    (h : Reader.field data ty offset = some (w, next)) (hexact : ExactField data offset ty)
    (name : String) :
    ∃ v, Proto.deserializeField name data offset ty = .ok (v, next) ∧ toJs ty v = w := by
  cases ty with
  | int =>
    obtain ⟨hlen, hw, hnext⟩ := Reader.u32_eq_some_iff.mp h
    have hv : (UInt32.ofNat (u32At data offset)).toNat = u32At data offset :=
      UInt32.toNat_ofNat_of_lt' (leNat_slice_lt (k := 4) hlen)
    exact ⟨_, Proto.deserializeInt_eq_ok_iff.mpr ⟨⟨hlen, hv.symm⟩, hnext⟩, hv.trans hw.symm⟩
  | long =>
    obtain ⟨hlen, hw, hnext⟩ := Reader.u64_eq_some_iff.mp h
    rw [Lib.roundDouble_eq_self_iff.mpr hexact] at hw
    have hv : (UInt64.ofNat (Lib.leNat (slice data offset (offset + 8)))).toNat =
        Lib.leNat (slice data offset (offset + 8)) :=
      UInt64.toNat_ofNat_of_lt' (leNat_slice_lt (k := 8) hlen)
    exact ⟨_, Proto.deserializeLong_eq_ok_iff.mpr ⟨⟨hlen, hv.symm⟩, hnext⟩, hv.trans hw.symm⟩
  | bytes =>
    obtain ⟨hlen, hw, hnext⟩ := Reader.bytes_eq_some_iff.mp h
    exact ⟨w, decodeBytes_iff_dataAt.mpr ⟨hlen, hexact, hw, hnext⟩, rfl⟩
  | string =>
    obtain ⟨hlen, hw, hnext⟩ := Reader.string_eq_some_iff.mp h
    obtain ⟨hend, hvalid, hmark⟩ := hexact
    refine ⟨⟨dataAt data offset, hvalid⟩, ?_, ?_⟩
    · exact Proto.decodeString_eq_ok_iff.mpr (decodeBytes_iff_dataAt.mpr ⟨hlen, hend, rfl, hnext⟩)
    · exact (textDecode_of_valid ⟨dataAt data offset, hvalid⟩ hmark).symm.trans hw.symm

theorem field_next {ty : FieldType} {w : JsValue ty}
    (h : Reader.field data ty offset = some (w, next)) : next = fieldEnd data offset ty := by
  cases ty with
  | int => exact (Reader.u32_eq_some_iff.mp h).2.2
  | long => exact (Reader.u64_eq_some_iff.mp h).2.2
  | bytes => exact (Reader.bytes_eq_some_iff.mp h).2.2
  | string => exact (Reader.string_eq_some_iff.mp h).2.2

/-! ### Field lists -/

def HoldsAll : (fields : List Field) → Record fields → Prop
  | [], _ => True
  | f :: rest, (v, r) => Holds f.ty v ∧ HoldsAll rest r

theorem reads_of_deserialize {fields : List Field} (hname : ∀ f ∈ fields, f.name ≠ "__buf")
    {r : Record fields} (h : Proto.deserializeFields data fields offset = .ok r)
    (hr : HoldsAll fields r) : Reader.Reads data fields offset (recordToJs fields r) := by
  induction fields generalizing offset with
  | nil => trivial
  | cons f rest ih =>
    obtain ⟨v, r⟩ := r
    obtain ⟨hf, hrest⟩ := List.forall_mem_cons.mp hname
    obtain ⟨next, hfield, hfields⟩ := (Proto.deserializeFields_cons_eq_ok_iff hf).mp h
    refine ⟨next, ?_, ih hrest hfields hr.2⟩
    rw [field_of_deserialize hfield, jsRead_eq_toJs_iff.mpr hr.1]

theorem deserializeFields_iff_exact {fields : List Field} (hname : ∀ f ∈ fields, f.name ≠ "__buf")
    {js : JsRecord fields} (h : Reader.Reads data fields offset js) :
    (∃ r, Proto.deserializeFields data fields offset = .ok r ∧ recordToJs fields r = js) ↔
      ExactFields data fields offset := by
  induction fields generalizing offset with
  | nil => exact ⟨fun _ => trivial, fun _ => ⟨(), rfl, rfl⟩⟩
  | cons f rest ih =>
    obtain ⟨w, js⟩ := js
    obtain ⟨next, hfield, hreads⟩ := h
    obtain ⟨hf, hrest⟩ := List.forall_mem_cons.mp hname
    have hnext := field_next hfield
    have htail := ih hrest hreads
    rw [hnext] at htail
    constructor
    · rintro ⟨⟨v, r⟩, hdes, hjs⟩
      obtain ⟨next', hfield', hfields⟩ := (Proto.deserializeFields_cons_eq_ok_iff hf).mp hdes
      have hread := field_of_deserialize hfield'
      rw [hfield] at hread
      simp only [Option.some.injEq, Prod.mk.injEq] at hread
      obtain ⟨hw, rfl⟩ := hread
      obtain ⟨hv, hr⟩ := Prod.mk.inj hjs
      have hholds := jsRead_eq_toJs_iff.mp (hw.symm.trans hv.symm)
      rw [hnext] at hfields
      exact ⟨exact_of_deserialize hfield' hholds, htail.mp ⟨r, hfields, hr⟩⟩
    · rintro ⟨hexact, hexacts⟩
      obtain ⟨v, hdes, hv⟩ := deserialize_of_exact hfield hexact f.name
      obtain ⟨r, hfields, hr⟩ := htail.mpr hexacts
      rw [← hnext] at hfields
      refine ⟨(v, r), (Proto.deserializeFields_cons_eq_ok_iff hf).mpr ⟨next, hdes, hfields⟩, ?_⟩
      exact Prod.ext hv hr

end

/-! ## The cases of the switch -/

/-- A `case` of the `switch`: the constructor it reads and the message it builds. -/
structure Known where
  ctor : Constructor
  build : JsRecord ctor.fields → ProtoMessage

def known : List Known :=
  [ ⟨Proto.sessionInit, fun (clientId, nonce, _) => .sessionInit clientId nonce⟩,
    ⟨Proto.sessionAck, fun (serverNonce, timestamp, _) => .sessionAck serverNonce timestamp⟩,
    ⟨Proto.signalRequestPeer, fun (linkId, _) => .signalRequestPeer linkId⟩,
    ⟨Proto.chatSend, fun (peerId, ciphertext, ratchetKey, msgNo, _) =>
      .chatSend peerId ciphertext ratchetKey msgNo⟩,
    ⟨Proto.fileOffer, fun (peerId, fileId, name, size, chunks, hash, compressed, _) =>
      .fileOffer peerId fileId name size chunks hash compressed⟩,
    ⟨Proto.fileAccept, fun (peerId, fileId, _) => .fileAccept peerId fileId⟩,
    ⟨Proto.fileChunk, fun (peerId, fileId, index, data, hash, ratchetKey, msgNo, _) =>
      .fileChunk peerId fileId index data hash ratchetKey msgNo⟩,
    ⟨Proto.fileComplete, fun (peerId, fileId, _) => .fileComplete peerId fileId⟩,
    ⟨Proto.fileChunkAck, fun (peerId, fileId, index, _) => .fileChunkAck peerId fileId index⟩,
    ⟨Proto.inboxMessages, fun (messages, count, _) => .inboxMessages messages count⟩ ]

theorem dispatchCid_of_known (data : Bytes) {k : Known} (hk : k ∈ known) :
    dispatchCid data k.ctor.id.toNat = Reader.thenBuild data k.ctor.fields k.build := by
  simp only [known, List.mem_cons, List.not_mem_nil, or_false] at hk
  rcases hk with rfl | rfl | rfl | rfl | rfl | rfl | rfl | rfl | rfl | rfl <;> rfl

theorem dispatchCid_of_unknown (data : Bytes) {cid : Nat}
    (h : ∀ k ∈ known, cid ≠ k.ctor.id.toNat) : dispatchCid data cid = pure (.unknown cid) := by
  simp only [known, List.forall_mem_cons] at h
  obtain ⟨(h1 : cid ≠ CID.sessionInit), (h2 : cid ≠ CID.sessionAck),
    (h3 : cid ≠ CID.signalRequestPeer), (h4 : cid ≠ CID.chatSend), (h5 : cid ≠ CID.fileOffer),
    (h6 : cid ≠ CID.fileAccept), (h7 : cid ≠ CID.fileChunk), (h8 : cid ≠ CID.fileComplete),
    (h9 : cid ≠ CID.fileChunkAck), (h10 : cid ≠ CID.inboxMessages), -⟩ := h
  rw [dispatchCid, if_neg h1, if_neg h2, if_neg h3, if_neg h4, if_neg h5, if_neg h6, if_neg h7,
    if_neg h8, if_neg h9, if_neg h10]

theorem known_build_injective : ∀ k ∈ known, Function.Injective k.build := by
  simp only [known, List.forall_mem_cons]
  refine ⟨?_, ?_, ?_, ?_, ?_, ?_, ?_, ?_, ?_, ?_, fun k hk => absurd hk List.not_mem_nil⟩
  · rintro ⟨_, _, _⟩ ⟨_, _, _⟩ ⟨⟩
    rfl
  · rintro ⟨_, _, _⟩ ⟨_, _, _⟩ ⟨⟩
    rfl
  · rintro ⟨_, _⟩ ⟨_, _⟩ ⟨⟩
    rfl
  · rintro ⟨_, _, _, _, _⟩ ⟨_, _, _, _, _⟩ ⟨⟩
    rfl
  · rintro ⟨_, _, _, _, _, _, _, _⟩ ⟨_, _, _, _, _, _, _, _⟩ ⟨⟩
    rfl
  · rintro ⟨_, _, _⟩ ⟨_, _, _⟩ ⟨⟩
    rfl
  · rintro ⟨_, _, _, _, _, _, _, _⟩ ⟨_, _, _, _, _, _, _, _⟩ ⟨⟩
    rfl
  · rintro ⟨_, _, _⟩ ⟨_, _, _⟩ ⟨⟩
    rfl
  · rintro ⟨_, _, _, _⟩ ⟨_, _, _, _⟩ ⟨⟩
    rfl
  · rintro ⟨_, _, _⟩ ⟨_, _, _⟩ ⟨⟩
    rfl

theorem known_build_ne_unknown : ∀ k ∈ known, ∀ r cid, k.build r ≠ .unknown cid := by
  simp only [known, List.forall_mem_cons]
  refine ⟨?_, ?_, ?_, ?_, ?_, ?_, ?_, ?_, ?_, ?_, fun k hk => absurd hk List.not_mem_nil⟩
  all_goals
    intro r cid h
    cases h

theorem known_ids : (known.map (·.ctor.id)).Nodup := by
  decide +kernel

theorem known_mem_coreP2p : ∀ k ∈ known, k.ctor ∈ coreP2p := by
  decide +kernel

theorem dispatch_of_length {data : Bytes} (h : 4 ≤ data.length) :
    dispatch data = (dispatchCid data (u32At data 0)).run' 4 := by
  have hcid : Reader.u32 data 0 = some (u32At data 0, 4) :=
    Reader.u32_eq_some_iff.mpr ⟨h, rfl, rfl⟩
  simp [dispatch, if_neg (Nat.not_lt.mpr h), StateT.run', bind, StateT.bind, hcid]

theorem dispatch_eq_some_iff {data : Bytes} {t : ProtoMessage} (ht : ∀ cid, t ≠ .unknown cid) :
    dispatch data = some t ↔
      4 ≤ data.length ∧ ∃ k ∈ known, Lib.leNat (slice data 0 4) = k.ctor.id.toNat ∧
        ∃ js, Reader.Reads data k.ctor.fields 4 js ∧ t = k.build js := by
  by_cases hlen : data.length < 4
  · simp only [dispatch, if_pos hlen]
    constructor
    · intro h
      cases h
      exact absurd rfl (ht 0)
    · intro h
      omega
  · have hread := dispatch_of_length (by omega : 4 ≤ data.length)
    rw [hread]
    constructor
    · intro h
      by_cases hk : ∃ k ∈ known, u32At data 0 = k.ctor.id.toNat
      · obtain ⟨k, hk, hid⟩ := hk
        rw [hid, dispatchCid_of_known data hk, Reader.thenBuild_eq_some_iff] at h
        exact ⟨by omega, k, hk, hid, h⟩
      · push Not at hk
        rw [dispatchCid_of_unknown data hk] at h
        cases h
        exact absurd rfl (ht _)
    · rintro ⟨-, k, hk, hid, hreads⟩
      rw [show u32At data 0 = k.ctor.id.toNat from hid, dispatchCid_of_known data hk,
        Reader.thenBuild_eq_some_iff]
      exact hreads

/-! ## The decoders -/

/-- Both sides hold the same message: the same constructor with the same fields. -/
inductive Same : ProtoMessage → Message → Prop where
  | sessionInit (clientId nonce : Bytes) :
    Same (.sessionInit clientId nonce) ⟨Proto.sessionInit, (clientId, nonce, ())⟩
  | sessionAck (serverNonce : Bytes) (timestamp : UInt64) :
    Same (.sessionAck serverNonce timestamp.toNat) ⟨Proto.sessionAck, (serverNonce, timestamp, ())⟩
  | signalRequestPeer (linkId : Utf8) :
    Same (.signalRequestPeer linkId.val) ⟨Proto.signalRequestPeer, (linkId, ())⟩
  | chatSend (peerId ciphertext ratchetKey : Bytes) (msgNo : UInt32) :
    Same (.chatSend peerId ciphertext ratchetKey msgNo.toNat)
      ⟨Proto.chatSend, (peerId, ciphertext, ratchetKey, msgNo, ())⟩
  | fileOffer (peerId fileId : Bytes) (name : Utf8) (size : UInt64) (chunks : UInt32) (hash : Bytes)
      (compressed : UInt32) :
    Same (.fileOffer peerId fileId name.val size.toNat chunks.toNat hash compressed.toNat)
      ⟨Proto.fileOffer, (peerId, fileId, name, size, chunks, hash, compressed, ())⟩
  | fileAccept (peerId fileId : Bytes) :
    Same (.fileAccept peerId fileId) ⟨Proto.fileAccept, (peerId, fileId, ())⟩
  | fileChunk (peerId fileId : Bytes) (index : UInt32) (data hash ratchetKey : Bytes)
      (msgNo : UInt32) :
    Same (.fileChunk peerId fileId index.toNat data hash ratchetKey msgNo.toNat)
      ⟨Proto.fileChunk, (peerId, fileId, index, data, hash, ratchetKey, msgNo, ())⟩
  | fileComplete (peerId fileId : Bytes) :
    Same (.fileComplete peerId fileId) ⟨Proto.fileComplete, (peerId, fileId, ())⟩
  | fileChunkAck (peerId fileId : Bytes) (index : UInt32) :
    Same (.fileChunkAck peerId fileId index.toNat) ⟨Proto.fileChunkAck, (peerId, fileId, index, ())⟩
  | inboxMessages (messages : Bytes) (count : UInt32) :
    Same (.inboxMessages messages count.toNat) ⟨Proto.inboxMessages, (messages, count, ())⟩

theorem same_of_known : ∀ k ∈ known, ∀ r : Record k.ctor.fields,
    Same (k.build (recordToJs k.ctor.fields r)) ⟨k.ctor, r⟩ := by
  simp only [known, List.forall_mem_cons]
  refine ⟨fun (_, _, _) => .sessionInit _ _, fun (_, _, _) => .sessionAck _ _,
    fun (_, _) => .signalRequestPeer _, fun (_, _, _, _, _) => .chatSend _ _ _ _,
    fun (_, _, _, _, _, _, _, _) => .fileOffer _ _ _ _ _ _ _, fun (_, _, _) => .fileAccept _ _,
    fun (_, _, _, _, _, _, _, _) => .fileChunk _ _ _ _ _ _ _, fun (_, _, _) => .fileComplete _ _,
    fun (_, _, _, _) => .fileChunkAck _ _ _, fun (_, _, _) => .inboxMessages _ _,
    fun k hk => absurd hk List.not_mem_nil⟩

theorem known_of_same {t : ProtoMessage} {m : Message} (h : Same t m) :
    ∃ k ∈ known, ∃ r : Record k.ctor.fields, m = ⟨k.ctor, r⟩ ∧
      t = k.build (recordToJs k.ctor.fields r) := by
  have hget : ∀ i (hi : i < known.length), known[i] ∈ known := fun i hi => List.getElem_mem hi
  cases h with
  | sessionInit clientId nonce => exact ⟨_, hget 0 (by decide), (clientId, nonce, ()), rfl, rfl⟩
  | sessionAck serverNonce timestamp =>
    exact ⟨_, hget 1 (by decide), (serverNonce, timestamp, ()), rfl, rfl⟩
  | signalRequestPeer linkId => exact ⟨_, hget 2 (by decide), (linkId, ()), rfl, rfl⟩
  | chatSend peerId ciphertext ratchetKey msgNo =>
    exact ⟨_, hget 3 (by decide), (peerId, ciphertext, ratchetKey, msgNo, ()), rfl, rfl⟩
  | fileOffer peerId fileId name size chunks hash compressed =>
    exact ⟨_, hget 4 (by decide), (peerId, fileId, name, size, chunks, hash, compressed, ()), rfl,
      rfl⟩
  | fileAccept peerId fileId => exact ⟨_, hget 5 (by decide), (peerId, fileId, ()), rfl, rfl⟩
  | fileChunk peerId fileId index data hash ratchetKey msgNo =>
    exact ⟨_, hget 6 (by decide), (peerId, fileId, index, data, hash, ratchetKey, msgNo, ()), rfl,
      rfl⟩
  | fileComplete peerId fileId => exact ⟨_, hget 7 (by decide), (peerId, fileId, ()), rfl, rfl⟩
  | fileChunkAck peerId fileId index =>
    exact ⟨_, hget 8 (by decide), (peerId, fileId, index, ()), rfl, rfl⟩
  | inboxMessages messages count => exact ⟨_, hget 9 (by decide), (messages, count, ()), rfl, rfl⟩

/-- `Long` fields are below `2 ^ 53` and no string starts with U+FEFF. -/
def WebSafe : (fields : List Field) → Record fields → Prop
  | [], _ => True
  | ⟨_, .long⟩ :: rest, ((n : UInt64), r) => n.toNat < 2 ^ 53 ∧ WebSafe rest r
  | ⟨_, .string⟩ :: rest, ((s : Utf8), r) => ¬ byteOrderMark <+: s.val ∧ WebSafe rest r
  | ⟨_, .int⟩ :: rest, (_, r) => WebSafe rest r
  | ⟨_, .bytes⟩ :: rest, (_, r) => WebSafe rest r

theorem holdsAll_of_webSafe {fields : List Field} {r : Record fields} (h : WebSafe fields r) :
    HoldsAll fields r := by
  induction fields with
  | nil => trivial
  | cons f rest ih =>
    obtain ⟨v, r⟩ := r
    obtain ⟨name, ty⟩ := f
    cases ty with
    | int => exact ⟨trivial, ih h⟩
    | long => exact ⟨Lib.isDouble_of_lt h.1, ih h.2⟩
    | bytes => exact ⟨trivial, ih h⟩
    | string => exact ⟨h.1, ih h.2⟩

/-- The two codecs agree on well-formed messages: every encoder of the web client writes what Rust
serializes, and the web client reads every message of a constructor it knows that Rust serializes. -/
theorem codecs_agree :
    (∀ o : Outgoing, o.InRange → o.encode = o.message.serialize) ∧
    ∀ m : Message, m.ctor ∈ known.map (·.ctor) → m.Short → WebSafe m.ctor.fields m.fields →
      ∃ t, dispatch m.serialize = some t ∧ Same t m := by
  refine ⟨Outgoing.encode_eq_serialize, ?_⟩
  rintro ⟨c, r⟩ hm hshort hsafe
  obtain ⟨k, hk, rfl⟩ := List.mem_map.mp hm
  have hcore := known_mem_coreP2p k hk
  have hread := Proto.dispatch_of_fits Proto.coreP2p_ids Proto.coreP2p_hygienic hcore hshort
    (Proto.fits_serialize ⟨k.ctor, r⟩)
  obtain ⟨-, hlen, hid, hfields⟩ :=
    (Proto.dispatch_eq_ok_iff_fields Proto.coreP2p_ids Proto.coreP2p_hygienic).mp hread
  have hreads := reads_of_deserialize (Proto.coreP2p_hygienic _ hcore) hfields
    (holdsAll_of_webSafe hsafe)
  refine ⟨_, (dispatch_eq_some_iff (known_build_ne_unknown k hk _)).mpr ?_, same_of_known k hk r⟩
  exact ⟨hlen, k, hk, hid, _, hreads, rfl⟩

def sampleOffer : Outgoing :=
  .fileOffer [1, 2] [3] ⟨[0x61, 0x2E, 0x74], by decide⟩ (2 ^ 32 + 5) 1 [9] 0

theorem codecs_agree_offer :
    sampleOffer.encode = sampleOffer.message.serialize ∧
      ∃ t, dispatch sampleOffer.message.serialize = some t ∧ Same t sampleOffer.message := by
  have hrange : sampleOffer.InRange := ⟨by norm_num, by norm_num, by norm_num⟩
  refine ⟨codecs_agree.1 sampleOffer hrange, ?_⟩
  exact codecs_agree.2 sampleOffer.message (by decide) (by decide)
    ⟨by decide, by decide, trivial⟩

/-- A length of `2 ^ 32` is written as zero, so the web client reads an empty field. -/
theorem oversized_misread {messages : Bytes} (hlen : messages.length = 2 ^ 32) (count : UInt32)
    {t : ProtoMessage} (h : dispatch (InboxMessages.serialize ⟨messages, count⟩) = some t) :
    ¬ Same t ⟨Proto.inboxMessages, (messages, count, ())⟩ := by
  intro hsame
  have ht : t = .inboxMessages messages count.toNat := by
    cases hsame
    rfl
  have hsize := InboxMessages.serialize_length ⟨messages, count⟩
  dsimp only at hsize
  obtain ⟨hid, hlength⟩ := InboxMessages.slice_header (m := ⟨messages, count⟩)
    (InboxMessages.serialize ⟨messages, count⟩) (by omega) (Or.inl (List.prefix_refl _))
  obtain ⟨b, hb⟩ : ∃ b, b = InboxMessages.serialize ⟨messages, count⟩ := ⟨_, rfl⟩
  rw [← hb] at h hsize hid hlength
  have hk : known[9] ∈ known := List.getElem_mem (by decide)
  rw [dispatch_of_length (by omega), show u32At b 0 = known[9].ctor.id.toNat from hid,
    dispatchCid_of_known b hk, Reader.thenBuild_eq_some_iff] at h
  obtain ⟨⟨w, js⟩, ⟨next, hfield, -⟩, hbuild⟩ := h
  obtain ⟨-, hw, -⟩ := Reader.bytes_eq_some_iff.mp hfield
  have hmessages : messages = w := by
    rw [ht] at hbuild
    exact (ProtoMessage.inboxMessages.inj hbuild).1
  have hzero : u32At b 4 = 0 := by
    rw [u32At, show 4 + 4 = 8 from rfl, hlength, hlen]
    rfl
  have hempty : messages = [] := by
    rw [hmessages, hw, dataAt, hzero, slice, Nat.add_zero, Nat.sub_self, List.take_zero]
  rw [hempty] at hlen
  cases hlen

/-- A Rust message that the web client does not read back. -/
theorem codecs_disagree_oversized :
    WebSafe Proto.inboxMessages.fields (List.replicate (2 ^ 32) 0, (0 : UInt32), ()) ∧
      ¬ ∃ t, dispatch (Message.serialize
          ⟨Proto.inboxMessages, (List.replicate (2 ^ 32) 0, (0 : UInt32), ())⟩) = some t ∧
        Same t ⟨Proto.inboxMessages, (List.replicate (2 ^ 32) 0, (0 : UInt32), ())⟩ := by
  refine ⟨trivial, ?_⟩
  rintro ⟨t, hread, hsame⟩
  exact oversized_misread List.length_replicate 0 hread hsame

/-- A frame that the web client reads as a typed message is one that Rust reads as the same message
exactly if it is exact. -/
theorem rust_accepts_iff_exact {b : Bytes} {t : ProtoMessage} (h : dispatch b = some t)
    (ht : ∀ cid, t ≠ .unknown cid) :
    (∃ m, Proto.dispatch coreP2p b = .ok m ∧ Same t m) ↔ ExactFrame b := by
  obtain ⟨hlen, k, hk, hid, js, hreads, rfl⟩ := (dispatch_eq_some_iff ht).mp h
  have hcore := known_mem_coreP2p k hk
  have hrust : ∀ {m : Message}, Proto.dispatch coreP2p b = .ok m ↔ _ :=
    Proto.dispatch_eq_ok_iff_fields Proto.coreP2p_ids Proto.coreP2p_hygienic
  have hframe : ExactFrame b ↔ ExactFields b k.ctor.fields 4 := by
    constructor
    · intro hexact
      exact hexact k.ctor hcore hid
    · intro hexact c hc hcid
      have hsame : c.id = k.ctor.id := UInt32.toNat_inj.mp (hcid.symm.trans hid)
      cases List.inj_on_of_nodup_map Proto.coreP2p_ids hc hcore hsame
      exact hexact
  rw [hframe, ← deserializeFields_iff_exact (Proto.coreP2p_hygienic _ hcore) hreads]
  constructor
  · rintro ⟨m, hm, hsame⟩
    obtain ⟨k', hk', r, rfl, hbuild⟩ := known_of_same hsame
    obtain ⟨-, -, hid', hdes⟩ := hrust.mp hm
    have hids : k'.ctor.id = k.ctor.id := UInt32.toNat_inj.mp (hid'.symm.trans hid)
    cases List.inj_on_of_nodup_map known_ids hk' hk hids
    exact ⟨r, hdes, (known_build_injective k hk hbuild).symm⟩
  · rintro ⟨r, hdes, rfl⟩
    exact ⟨⟨k.ctor, r⟩, hrust.mpr ⟨hcore, hlen, hid, hdes⟩, same_of_known k hk r⟩

/-- `file.complete` without its last two bytes. -/
def truncated : Bytes :=
  (encodeFileComplete [7] [1, 2, 3, 4]).take 18

theorem rust_accepts_iff_exact_truncated :
    dispatch truncated = some (.fileComplete [7] [1, 2]) ∧
      ((∃ m, Proto.dispatch coreP2p truncated = .ok m ∧ Same (.fileComplete [7] [1, 2]) m) ↔
        ExactFrame truncated) := by
  have hread : dispatch truncated = some (.fileComplete [7] [1, 2]) := by decide +kernel
  refine ⟨hread, rust_accepts_iff_exact hread ?_⟩
  intro cid h
  cases h

/-- The web client takes the truncated file id, Rust rejects the frame. -/
theorem truncated_accepted :
    dispatch truncated = some (.fileComplete [7] [1, 2]) ∧
      Proto.dispatch coreP2p truncated = .error (.protocol "truncated bytes data") := by
  refine ⟨by decide +kernel, ?_⟩
  rfl

end Cypher.Pwa
